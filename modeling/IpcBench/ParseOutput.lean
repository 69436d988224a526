import IpcBench.Numerals
import IpcBench.Regex
import Mathlib.Tactic.NormNum

/-!
The results that a server and a client print, and `parseOutput`, which finds them again in
the output of a run.
-/

namespace IpcBench

open Regex Numerals

inductive Line
  | serverRequests (numReqs : Int)
  | serverDuration (milliseconds : Double)
  | messageRate (rate : Int)
  | closed
  | clientDuration (microseconds : Int)
  | clientRequests (count : Int)
  | latency (mean : Double)
  | median (value : Double)
  | deviation (value : Double)
  | minimum (value : Nat)
  | maximum (value : Nat)
  | expectedTime (value : Double)
  | clientStatus (status : Int)
  | serverStatus (status : Int)
deriving DecidableEq

def Line.label : Line → String
  | .serverRequests _ => "numReqs Server: "
  | .serverDuration _ => "Total duration:     "
  | .messageRate _ => "Message rate:       "
  | .closed => "closed"
  | .clientDuration _ => "Total duration:     "
  | .clientRequests _ => "numReqs Client: "
  | .latency _ => "Latency = "
  | .median _ => "Median = "
  | .deviation _ => "Standard Deviation = "
  | .minimum _ => "Minimum = "
  | .maximum _ => "Maximum = "
  | .expectedTime _ => "expected total time: "
  | .clientStatus _ => "client: "
  | .serverStatus _ => "server: "

def Line.value : Line → List Char
  | .serverRequests numReqs => integer numReqs
  | .serverDuration milliseconds => fixed 3 milliseconds
  | .messageRate rate => integer rate
  | .closed => []
  | .clientDuration microseconds => integer microseconds
  | .clientRequests count => integer count
  | .latency mean => fixed 2 mean
  | .median value => fixed 2 value
  | .deviation value => fixed 2 value
  | .minimum value => integer value
  | .maximum value => integer value
  | .expectedTime value => fixed 6 value
  | .clientStatus status => integer status
  | .serverStatus status => integer status

def Line.unit : Line → String
  | .serverDuration _ => "\tms"
  | .messageRate _ => "\tmsg/s"
  | .clientStatus _ => " "
  | .serverStatus _ => " "
  | _ => ""

def Line.chars (line : Line) : List Char :=
  line.label.toList ++ line.value ++ line.unit.toList

def text (lines : List Line) : List Char :=
  lines.flatMap fun line => line.chars ++ ['\n']

structure ServerReport where
  numReqs : Int
  milliseconds : Double
  messageRate : Int

def ServerReport.lines (report : ServerReport) : List Line := [
  .serverRequests report.numReqs,
  .serverDuration report.milliseconds,
  .messageRate report.messageRate]

structure ClientReport where
  count : Int
  mean : Double
  median : Double
  deviation : Double
  minimum : Nat
  maximum : Nat
  expectedTime : Double

def ClientReport.lines (report : ClientReport) : List Line := [
  .clientRequests report.count,
  .latency report.mean,
  .median report.median,
  .deviation report.deviation,
  .minimum report.minimum,
  .maximum report.maximum,
  .expectedTime report.expectedTime]

def Line.progress : Line → Bool
  | .closed => true
  | .clientDuration _ => true
  | .clientStatus _ => true
  | .serverStatus _ => true
  | _ => false

/-! Reading. -/

structure Query where
  before : List Token
  group : List Token

def Query.find (query : Query) (output : List Char) : Option (List Char) :=
  (search (query.before ++ query.group) output).map fun pieces =>
    (pieces.drop query.before.length).flatten

def rateQuery : Query where
  before := literals "Message rate:".toList ++ [.plus isSpace]
  group := [.plus Char.isDigit]

def latencyQuery : Query where
  before := literals "Latency =".toList ++ [.star isSpace]
  group := [.optional fun char => char = '+' || char = '-', .plus isDecimal, .literal '.',
    .plus isDecimal]

/-- `parseOutput`, for a rounding of the decimal numbers to Python floats. -/
def parseOutput {PyFloat : Type} (float : ℚ → PyFloat) (output : List Char) : PyFloat × PyFloat :=
  match rateQuery.find output with
  | none => (float (-1), float (-1))
  | some rate =>
      match latencyQuery.find output with
      | none => (float (-1), float (-1))
      | some latency => (float (decimalOf rate), float (decimalOf latency))

def printed {PyFloat : Type} (float : ℚ → PyFloat) (server : Option ServerReport)
    (client : Option ClientReport) : PyFloat × PyFloat :=
  match server, client with
  | some server, some client =>
      match client.mean with
      | .finite negative magnitude =>
          if 0 ≤ server.messageRate then
            (float server.messageRate, float (rounded 2 negative magnitude))
          else (float (-1), float (-1))
      | _ => (float (-1), float (-1))
  | _, _ => (float (-1), float (-1))

/-! Where the words of the queries stand. -/

theorem not_mem_minus {char : Char} (dash : char ≠ '-') (negative : Bool) :
    char ∉ minus negative := by
  cases negative with
  | true => simpa [minus] using dash
  | false => simp [minus]

theorem not_mem_integer {char : Char} (dash : char ≠ '-') (digit : char.isDigit = false)
    (value : Int) : char ∉ integer value := by
  intro member
  rw [integer, List.mem_append] at member
  rcases member with sign | number
  · exact not_mem_minus dash _ sign
  · rw [toDigits_digit char number] at digit
    cases digit

theorem not_mem_fixed {char : Char} (dash : char ≠ '-') (point : char ≠ '.')
    (digit : char.isDigit = false) (word : char ∉ ['i', 'n', 'f', 'a']) (places : Nat)
    (value : Double) : char ∉ fixed places value := by
  have sign := not_mem_minus dash
  cases value with
  | finite negative magnitude =>
      intro member
      rw [fixed, List.mem_append, List.mem_append, List.mem_cons] at member
      rcases member with (before | whole) | here | fraction
      · exact sign negative before
      · rw [toDigits_digit char whole] at digit
        cases digit
      · exact point here
      · rw [lastDigits_digit char fraction] at digit
        cases digit
  | infinite negative =>
      simp only [List.mem_cons, not_or] at word
      simp [fixed, sign, word]
  | nan negative =>
      simp only [List.mem_cons, not_or] at word
      simp [fixed, sign, word]

namespace Line

theorem rate_elsewhere (line : Line) : 'M' ∉ line.chars.tail := by
  have integers : ∀ value, 'M' ∉ integer value := not_mem_integer (by decide) (by decide)
  have doubles : ∀ places value, 'M' ∉ fixed places value :=
    not_mem_fixed (by decide) (by decide) (by decide) (by decide)
  cases line <;> simp [chars, label, value, unit, integers, doubles]

theorem latency_elsewhere (line : Line) : 'L' ∉ line.chars.tail := by
  have integers : ∀ value, 'L' ∉ integer value := not_mem_integer (by decide) (by decide)
  have doubles : ∀ places value, 'L' ∉ fixed places value :=
    not_mem_fixed (by decide) (by decide) (by decide) (by decide)
  cases line <;> simp [chars, label, value, unit, integers, doubles]

theorem rate_first {line : Line} {back : List Char}
    (starts : "Message rate:".toList <+: line.chars ++ back) : ∃ rate, line = .messageRate rate := by
  cases line with
  | messageRate rate => exact ⟨rate, rfl⟩
  | _ => simp [chars, label] at starts

theorem latency_first {line : Line} {back : List Char}
    (starts : "Latency =".toList <+: line.chars ++ back) : ∃ mean, line = .latency mean := by
  cases line with
  | latency mean => exact ⟨mean, rfl⟩
  | _ => simp [chars, label] at starts

end Line

theorem search_lines {first : Char} {word : List Char} {rest : List Token}
    {lines : List Line} {back : List Char} (ends : first ≠ '\n')
    (elsewhere : ∀ line : Line, first ∉ line.chars.tail)
    (fails : ∀ line ∈ lines, ∀ back,
      matchAt (literals (first :: word) ++ rest) (line.chars ++ '\n' :: back) = none) :
    search (literals (first :: word) ++ rest) (text lines ++ back) =
      search (literals (first :: word) ++ rest) back := by
  induction lines with
  | nil => rfl
  | cons line lines ih =>
      have split : text (line :: lines) ++ back = line.chars ++ '\n' :: (text lines ++ back) := by
        simp [text]
      rw [split, search_past (elsewhere line) ends (fails line List.mem_cons_self _)]
      exact ih fun other member => fails other (List.mem_cons_of_mem _ member)

theorem search_hit {first : Char} {word : List Char} {rest : List Token}
    {lines : List Line} {hit : Line} {pieces : List (List Char)} (ends : first ≠ '\n')
    (elsewhere : ∀ line : Line, first ∉ line.chars.tail) (member : hit ∈ lines)
    (found : ∀ back, matchAt (literals (first :: word) ++ rest) (hit.chars ++ '\n' :: back) =
      some pieces)
    (fails : ∀ line ∈ lines, line ≠ hit → ∀ back,
      matchAt (literals (first :: word) ++ rest) (line.chars ++ '\n' :: back) = none) :
    search (literals (first :: word) ++ rest) (text lines) = some pieces := by
  obtain ⟨before, after, rfl, earlier⟩ := List.eq_append_cons_of_mem member
  have split : text (before ++ hit :: after) = text before ++ (hit.chars ++ '\n' :: text after) := by
    simp [text]
  rw [split, search_lines ends elsewhere]
  · exact search_here (found _)
  · intro line inside
    apply fails line (List.mem_append_left _ inside)
    rintro rfl
    exact earlier inside

theorem search_miss {first : Char} {word : List Char} {rest : List Token}
    {lines : List Line} (ends : first ≠ '\n')
    (elsewhere : ∀ line : Line, first ∉ line.chars.tail)
    (fails : ∀ line ∈ lines, ∀ back,
      matchAt (literals (first :: word) ++ rest) (line.chars ++ '\n' :: back) = none) :
    search (literals (first :: word) ++ rest) (text lines) = none := by
  have past := @search_lines _ _ _ _ [] ends elsewhere fails
  rw [List.append_nil] at past
  rw [past, search_nil]

section Rate

theorem rateQuery_pattern : rateQuery.before ++ rateQuery.group =
    literals ('M' :: "essage rate:".toList) ++ [.plus isSpace, .plus Char.isDigit] := by
  simp [rateQuery]

theorem rate_shape (rate : Int) (back : List Char) :
    (Line.messageRate rate).chars ++ '\n' :: back =
      ('M' :: "essage rate:".toList) ++
        ("       ".toList ++ (integer rate ++ '\t' :: ("msg/s".toList ++ '\n' :: back))) := by
  simp [Line.chars, Line.label, Line.value, Line.unit]

theorem matchAt_spaces {front : List Char} {char : Char} {back : List Char}
    (spaces : ∀ space ∈ front, isSpace space = true) (some' : front ≠ [])
    (solid : isSpace char = false) :
    matchAt [.plus isSpace, .plus Char.isDigit] (front ++ char :: back) =
      (matchAt [.plus Char.isDigit] (char :: back)).map fun pieces => front :: pieces := by
  obtain ⟨taken, left⟩ := @takeWhile_digits isSpace front char back spaces solid
  have enough : 1 ≤ front.length := List.length_pos_iff.mpr some'
  rw [matchAt_run rfl]
  · simp [taken, left, enough]
  · intro space more accepted
    apply matchAt_refused (by decide)
    rw [Token.plus_accepts, Bool.eq_false_iff]
    intro digit
    rw [Token.plus_accepts, isSpace_digit digit] at accepted
    cases accepted

theorem matchAt_rate (rate : Int) (back : List Char) :
    matchAt (rateQuery.before ++ rateQuery.group)
        ((Line.messageRate rate).chars ++ '\n' :: back) =
      if 0 ≤ rate then
        some (("Message rate:".toList.map fun char => [char]) ++
          ["       ".toList, integer rate])
      else none := by
  have spaces : ∀ space ∈ "       ".toList, isSpace space = true := List.all_eq_true.mp (by decide)
  rw [rateQuery_pattern, rate_shape, matchAt_literals, if_pos (List.prefix_append _ _),
    List.drop_left]
  split
  · rename_i nonneg
    obtain ⟨number, rfl⟩ := Int.eq_ofNat_of_zero_le nonneg
    have digits : integer (number : Int) = Nat.toDigits 10 number := by
      simp [integer, minus]
    obtain ⟨digit, more, first, ascii⟩ := toDigits_cons number
    have read := (@takeWhile_digits Char.isDigit (Nat.toDigits 10 number) '\t'
      ("msg/s".toList ++ '\n' :: back) toDigits_digit (by decide)).1
    have last : matchAt [.plus Char.isDigit]
        (Nat.toDigits 10 number ++ '\t' :: ("msg/s".toList ++ '\n' :: back)) =
          some [Nat.toDigits 10 number] := by
      rw [matchAt_last rfl, Token.plus_accepts, read]
      rw [Token.plus_accepts, read, first]
      simp
    rw [digits]
    rw [first, List.cons_append] at last ⊢
    rw [matchAt_spaces spaces (by decide) (isSpace_digit ascii), last]
    rfl
  · rename_i negative
    have sign : integer rate = '-' :: Nat.toDigits 10 rate.natAbs := by
      simp [integer, minus, Int.not_le.mp negative]
    rw [sign, List.cons_append, matchAt_spaces spaces (by decide) (by decide),
      matchAt_refused (by decide) (by decide)]
    rfl

theorem rate_fails {line : Line} (other : ∀ rate : Nat, line ≠ .messageRate rate)
    (back : List Char) :
    matchAt (rateQuery.before ++ rateQuery.group) (line.chars ++ '\n' :: back) = none := by
  by_cases starts : "Message rate:".toList <+: line.chars ++ '\n' :: back
  · obtain ⟨rate, rfl⟩ := Line.rate_first starts
    rw [matchAt_rate, if_neg]
    intro nonneg
    obtain ⟨number, rfl⟩ := Int.eq_ofNat_of_zero_le nonneg
    exact other number rfl
  · rw [rateQuery_pattern, matchAt_literals, if_neg]
    simpa using starts

theorem rateQuery_found {lines : List Line} {rate : Nat} (printed : .messageRate rate ∈ lines)
    (only : ∀ other : Int, .messageRate other ∈ lines → other = rate) :
    rateQuery.find (text lines) = some (integer rate) := by
  have found : search (rateQuery.before ++ rateQuery.group) (text lines) =
      some (("Message rate:".toList.map fun char => [char]) ++
        ["       ".toList, integer rate]) := by
    rw [rateQuery_pattern]
    refine search_hit (by decide) Line.rate_elsewhere printed ?_ ?_
    · intro back
      rw [← rateQuery_pattern, matchAt_rate, if_pos (Int.natCast_nonneg rate)]
    · intro line member different back
      rw [← rateQuery_pattern]
      apply rate_fails
      rintro other rfl
      exact different (by rw [only other member])
  rw [Query.find, found]
  simp [rateQuery, literals]

theorem rateQuery_unfound {lines : List Line}
    (absent : ∀ rate : Nat, .messageRate rate ∉ lines) : rateQuery.find (text lines) = none := by
  have missed : search (rateQuery.before ++ rateQuery.group) (text lines) = none := by
    rw [rateQuery_pattern]
    apply search_miss (by decide) Line.rate_elsewhere
    intro line member back
    rw [← rateQuery_pattern]
    apply rate_fails
    rintro rate rfl
    exact absent rate member
  rw [Query.find, missed]
  rfl

end Rate

section Latency

theorem latencyQuery_pattern : latencyQuery.before ++ latencyQuery.group =
    literals ('L' :: "atency =".toList) ++ (.star isSpace :: latencyQuery.group) := by
  simp [latencyQuery]

theorem latency_shape (mean : Double) (back : List Char) :
    (Line.latency mean).chars ++ '\n' :: back =
      ('L' :: "atency =".toList) ++ (' ' :: (fixed 2 mean ++ '\n' :: back)) := by
  simp [Line.chars, Line.label, Line.value, Line.unit]

theorem matchAt_decimal {whole fraction back : List Char}
    (digits : ∀ digit ∈ whole, digit.isDigit = true) (some' : whole ≠ [])
    (digits' : ∀ digit ∈ fraction, digit.isDigit = true) (some'' : fraction ≠ []) :
    matchAt [.plus isDecimal, .literal '.', .plus isDecimal]
        (whole ++ '.' :: (fraction ++ '\n' :: back)) = some [whole, ['.'], fraction] := by
  have decimal : ∀ digit ∈ whole, isDecimal digit = true :=
    fun digit member => isDecimal_digit (digits digit member)
  have decimal' : ∀ digit ∈ fraction, isDecimal digit = true :=
    fun digit member => isDecimal_digit (digits' digit member)
  obtain ⟨taken, left⟩ := @takeWhile_digits isDecimal whole '.' (fraction ++ '\n' :: back) decimal
    (by decide)
  have taken' := (@takeWhile_digits isDecimal fraction '\n' back decimal' (by decide)).1
  have enough : 1 ≤ whole.length := List.length_pos_iff.mpr some'
  have enough' : 1 ≤ fraction.length := List.length_pos_iff.mpr some''
  have last : matchAt [.plus isDecimal] (fraction ++ '\n' :: back) = some [fraction] := by
    rw [matchAt_last rfl, Token.plus_accepts, taken']
    simpa [taken'] using enough'
  rw [matchAt_run rfl]
  · simp [taken, left, enough, matchAt_literal, last]
  · intro digit more accepted
    apply matchAt_refused (by decide)
    rw [Token.literal_accepts, decide_eq_false_iff_not]
    rintro rfl
    exact absurd accepted (by decide)

theorem no_sign {accepts : Char → Bool} {char : Char} (accepted : accepts char = true)
    (plus : accepts '+' = false) (dash : accepts '-' = false) :
    (char = '+' || char = '-' : Bool) = false := by
  rw [Bool.eq_false_iff]
  intro signed
  simp only [Bool.or_eq_true, decide_eq_true_eq] at signed
  rcases signed with rfl | rfl
  · rw [plus] at accepted
    cases accepted
  · rw [dash] at accepted
    cases accepted

theorem group_refused {char : Char} {more : List Char} (decimal : isDecimal char = false)
    (sign : (char = '+' || char = '-') = false) :
    matchAt latencyQuery.group (char :: more) = none := by
  have refused : matchAt [.plus isDecimal, .literal '.', .plus isDecimal] (char :: more) = none :=
    matchAt_refused (by decide) decimal
  simp [latencyQuery, matchAt_optional, sign, refused]

theorem group_refused_minus {char : Char} {more : List Char} (decimal : isDecimal char = false) :
    matchAt latencyQuery.group ('-' :: char :: more) = none := by
  have refused : matchAt [.plus isDecimal, .literal '.', .plus isDecimal] (char :: more) = none :=
    matchAt_refused (by decide) decimal
  have refused' : matchAt [.plus isDecimal, .literal '.', .plus isDecimal]
      ('-' :: char :: more) = none :=
    matchAt_refused (by decide) (by decide)
  simp [latencyQuery, matchAt_optional, refused, refused']

def decimalPieces (negative : Bool) (magnitude : ℚ≥0) : List (List Char) := [
  minus negative,
  Nat.toDigits 10 (scaled 2 magnitude / 10 ^ 2),
  ['.'],
  lastDigits 2 (scaled 2 magnitude)]

theorem decimalPieces_flatten (negative : Bool) (magnitude : ℚ≥0) :
    (decimalPieces negative magnitude).flatten = fixed 2 (.finite negative magnitude) := by
  simp [decimalPieces, fixed]

theorem group_finite (negative : Bool) (magnitude : ℚ≥0) (back : List Char) :
    matchAt latencyQuery.group (fixed 2 (.finite negative magnitude) ++ '\n' :: back) =
      some (decimalPieces negative magnitude) := by
  have decimal := @matchAt_decimal (Nat.toDigits 10 (scaled 2 magnitude / 10 ^ 2))
    (lastDigits 2 (scaled 2 magnitude)) back toDigits_digit Nat.toDigits_ne_nil lastDigits_digit
    (List.ne_nil_of_length_eq_add_one (lastDigits_length 2 _))
  obtain ⟨digit, more, first, ascii⟩ := toDigits_cons (scaled 2 magnitude / 10 ^ 2)
  have sign : (digit = '+' || digit = '-') = false := no_sign ascii (by decide) (by decide)
  simp only [fixed, decimalPieces, List.append_assoc, List.cons_append]
  rw [first, List.cons_append] at decimal ⊢
  cases negative with
  | true => simp [minus, latencyQuery, matchAt_optional, decimal]
  | false => simp [minus, latencyQuery, matchAt_optional, decimal, sign]

theorem group_infinite (negative : Bool) (back : List Char) :
    matchAt latencyQuery.group (fixed 2 (.infinite negative) ++ '\n' :: back) = none := by
  cases negative with
  | true => exact group_refused_minus (by decide)
  | false => exact group_refused (by decide) (by decide)

theorem group_nan (negative : Bool) (back : List Char) :
    matchAt latencyQuery.group (fixed 2 (.nan negative) ++ '\n' :: back) = none := by
  cases negative with
  | true => exact group_refused_minus (by decide)
  | false => exact group_refused (by decide) (by decide)

theorem fixed_solid (value : Double) : ∃ char more,
    fixed 2 value = char :: more ∧ isSpace char = false := by
  cases value with
  | finite negative magnitude =>
      cases negative with
      | true => exact ⟨'-', _, rfl, by decide⟩
      | false =>
          obtain ⟨digit, more, first, ascii⟩ := toDigits_cons (scaled 2 magnitude / 10 ^ 2)
          refine ⟨digit, more ++ '.' :: lastDigits 2 (scaled 2 magnitude), ?_, isSpace_digit ascii⟩
          simp only [fixed, minus, Bool.false_eq_true, if_false, List.nil_append]
          rw [first, List.cons_append]
  | infinite negative =>
      cases negative with
      | true => exact ⟨'-', _, rfl, by decide⟩
      | false => exact ⟨'i', _, rfl, by decide⟩
  | nan negative =>
      cases negative with
      | true => exact ⟨'-', _, rfl, by decide⟩
      | false => exact ⟨'n', _, rfl, by decide⟩

theorem matchAt_latency (mean : Double) (back : List Char) :
    matchAt (latencyQuery.before ++ latencyQuery.group)
        ((Line.latency mean).chars ++ '\n' :: back) =
      (matchAt latencyQuery.group (fixed 2 mean ++ '\n' :: back)).map fun pieces =>
        ("Latency =".toList.map fun char => [char]) ++ ([' '] :: pieces) := by
  obtain ⟨char, more, first, solid⟩ := fixed_solid mean
  obtain ⟨taken, left⟩ := @takeWhile_digits isSpace [' '] char (more ++ '\n' :: back)
    (List.all_eq_true.mp (by decide)) solid
  rw [latencyQuery_pattern, latency_shape, matchAt_literals, if_pos (List.prefix_append _ _),
    List.drop_left, first, List.cons_append, matchAt_run rfl]
  · rw [List.singleton_append] at taken left
    simp [taken, left, Function.comp_def]
  · intro space more accepted
    have other : isDecimal space = false := by
      rw [Bool.eq_false_iff]
      intro decimal
      rw [Token.star_accepts, isSpace_decimal decimal] at accepted
      cases accepted
    exact group_refused other (no_sign accepted (by decide) (by decide))

theorem latency_fails {line : Line}
    (other : ∀ negative magnitude, line ≠ .latency (.finite negative magnitude))
    (back : List Char) :
    matchAt (latencyQuery.before ++ latencyQuery.group) (line.chars ++ '\n' :: back) = none := by
  by_cases starts : "Latency =".toList <+: line.chars ++ '\n' :: back
  · obtain ⟨mean, rfl⟩ := Line.latency_first starts
    rw [matchAt_latency]
    cases mean with
    | finite negative magnitude => exact absurd rfl (other negative magnitude)
    | infinite negative =>
        rw [group_infinite]
        rfl
    | nan negative =>
        rw [group_nan]
        rfl
  · rw [latencyQuery_pattern, matchAt_literals, if_neg]
    simpa using starts

theorem latencyQuery_found {lines : List Line} {negative : Bool} {magnitude : ℚ≥0}
    (printed : .latency (.finite negative magnitude) ∈ lines)
    (only : ∀ other, .latency other ∈ lines → other = .finite negative magnitude) :
    latencyQuery.find (text lines) = some (fixed 2 (.finite negative magnitude)) := by
  have found : search (latencyQuery.before ++ latencyQuery.group) (text lines) =
      some (("Latency =".toList.map fun char => [char]) ++
        ([' '] :: decimalPieces negative magnitude)) := by
    rw [latencyQuery_pattern]
    refine search_hit (by decide) Line.latency_elsewhere printed ?_ ?_
    · intro back
      rw [← latencyQuery_pattern, matchAt_latency, group_finite]
      rfl
    · intro line member different back
      rw [← latencyQuery_pattern]
      apply latency_fails
      rintro negative magnitude rfl
      exact different (by rw [only _ member])
  rw [Query.find, found, ← decimalPieces_flatten]
  simp [latencyQuery, literals]

theorem latencyQuery_unfound {lines : List Line}
    (absent : ∀ negative magnitude, .latency (.finite negative magnitude) ∉ lines) :
    latencyQuery.find (text lines) = none := by
  have missed : search (latencyQuery.before ++ latencyQuery.group) (text lines) = none := by
    rw [latencyQuery_pattern]
    apply search_miss (by decide) Line.latency_elsewhere
    intro line member back
    rw [← latencyQuery_pattern]
    apply latency_fails
    rintro negative magnitude rfl
    exact absent negative magnitude member
  rw [Query.find, missed]
  rfl

end Latency

/-- The lines of a run in any order: what the two processes report, if anything, and lines of
progress. -/
def Shuffled (server : Option ServerReport) (client : Option ClientReport)
    (lines : List Line) : Prop :=
  ∃ progress : List Line, (∀ line ∈ progress, line.progress = true) ∧
    lines.Perm ((server.map ServerReport.lines).getD [] ++
      (client.map ClientReport.lines).getD [] ++ progress)

section Shuffled

variable {server : Option ServerReport} {client : Option ClientReport} {lines : List Line}

theorem Shuffled.rate_iff (shuffled : Shuffled server client lines) (rate : Int) :
    .messageRate rate ∈ lines ↔ ∃ report, server = some report ∧ report.messageRate = rate := by
  obtain ⟨progress, quiet, perm⟩ := shuffled
  have other : Line.messageRate rate ∉ progress := by
    intro member
    cases quiet _ member
  rw [perm.mem_iff]
  cases server with
  | none => cases client <;> simp [ClientReport.lines, other]
  | some report => cases client <;> simp [ServerReport.lines, ClientReport.lines, other, eq_comm]

theorem Shuffled.latency_iff (shuffled : Shuffled server client lines) (mean : Double) :
    .latency mean ∈ lines ↔ ∃ report, client = some report ∧ report.mean = mean := by
  obtain ⟨progress, quiet, perm⟩ := shuffled
  have other : Line.latency mean ∉ progress := by
    intro member
    cases quiet _ member
  rw [perm.mem_iff]
  cases client with
  | none => cases server <;> simp [ServerReport.lines, other]
  | some report => cases server <;> simp [ServerReport.lines, ClientReport.lines, other, eq_comm]

theorem Shuffled.rate_find (shuffled : Shuffled server client lines) :
    rateQuery.find (text lines) = match server with
      | some report => if 0 ≤ report.messageRate then some (integer report.messageRate) else none
      | none => none := by
  cases server with
  | none =>
      apply rateQuery_unfound
      intro rate member
      obtain ⟨report, absent, _⟩ := (shuffled.rate_iff rate).mp member
      cases absent
  | some server =>
      simp only
      split
      · rename_i nonneg
        obtain ⟨rate, number⟩ := Int.eq_ofNat_of_zero_le nonneg
        rw [number]
        apply rateQuery_found
        · exact (shuffled.rate_iff rate).mpr ⟨server, rfl, number⟩
        · intro other member
          obtain ⟨report, same, rfl⟩ := (shuffled.rate_iff other).mp member
          cases same
          exact number
      · rename_i negative
        apply rateQuery_unfound
        intro rate member
        obtain ⟨report, same, number⟩ := (shuffled.rate_iff rate).mp member
        cases same
        omega

theorem Shuffled.latency_find (shuffled : Shuffled server client lines) :
    latencyQuery.find (text lines) = match client.map ClientReport.mean with
      | some (.finite negative magnitude) => some (fixed 2 (.finite negative magnitude))
      | _ => none := by
  cases client with
  | none =>
      apply latencyQuery_unfound
      intro negative magnitude member
      obtain ⟨report, absent, _⟩ := (shuffled.latency_iff _).mp member
      cases absent
  | some client =>
      have only : ∀ mean, .latency mean ∈ lines → mean = client.mean := by
        intro mean member
        obtain ⟨report, same, rfl⟩ := (shuffled.latency_iff mean).mp member
        cases same
        rfl
      have printed := (shuffled.latency_iff client.mean).mpr ⟨client, rfl, rfl⟩
      rw [Option.map_some]
      generalize client.mean = mean at only printed
      cases mean with
      | finite negative magnitude => exact latencyQuery_found printed only
      | infinite negative =>
          apply latencyQuery_unfound
          intro negative magnitude member
          cases only _ member
      | nan negative =>
          apply latencyQuery_unfound
          intro negative magnitude member
          cases only _ member

end Shuffled

/-- Whatever the order of the lines, the results that were printed are read back. -/
theorem parseOutput_printed {PyFloat : Type} (float : ℚ → PyFloat) {server : Option ServerReport}
    {client : Option ClientReport} {lines : List Line} (shuffled : Shuffled server client lines) :
    parseOutput float (text lines) = printed float server client := by
  rw [parseOutput, shuffled.rate_find, shuffled.latency_find]
  cases server with
  | none => rfl
  | some server =>
      cases client with
      | none =>
          simp only [printed]
          split <;> rfl
      | some client =>
          simp only [printed, Option.map_some]
          cases client.mean with
          | finite negative magnitude =>
              by_cases nonneg : 0 ≤ server.messageRate
              · obtain ⟨rate, number⟩ := Int.eq_ofNat_of_zero_le nonneg
                simp [number, decimalOf_integer, decimalOf_fixed]
              · simp [nonneg]
          | infinite negative => split <;> rfl
          | nan negative => split <;> rfl

def eighth : ℚ≥0 :=
  ⟨⟨1, 8, by decide, by decide⟩, by decide⟩

def fastServer : ServerReport where
  numReqs := 1000
  milliseconds := .finite false 5
  messageRate := 200000

def fastClient : ClientReport where
  count := 1000
  mean := .finite false eighth
  median := .finite false eighth
  deviation := .finite false 0
  minimum := 0
  maximum := 1
  expectedTime := .infinite false

/-- The client prints first; the mean of an eighth is printed as 0.12. -/
theorem parseOutput_printed_clientFirst :
    parseOutput id (text (fastClient.lines ++ fastServer.lines ++ [.closed])) =
      (200000, 3 / 25) := by
  have shuffled : Shuffled fastServer fastClient
      (fastClient.lines ++ fastServer.lines ++ [.closed]) :=
    ⟨[.closed], by simp [Line.progress], List.Perm.append_right _ List.perm_append_comm⟩
  have places : scaled 2 eighth = 12 := rfl
  rw [parseOutput_printed id shuffled]
  simp only [printed, fastServer, fastClient, rounded, places]
  norm_num

end IpcBench
