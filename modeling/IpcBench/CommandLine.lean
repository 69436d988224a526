import IpcBench.Arguments
import IpcBench.Getopt
import Mathlib.Data.List.TakeWhile

/-!
`parse_arguments` and `check_flag`, which read the same argument vector with two option
tables.
-/

namespace IpcBench

open Words Getopt

def isspace (char : Char) : Bool :=
  char = ' ' || (9 ≤ char.toNat && char.toNat ≤ 13)

def clampLong (value : Int) : Int :=
  max (-9223372036854775808) (min value 9223372036854775807)

def leadingDigits (text : List Char) : Nat :=
  Nat.ofDigitChars 10 (text.takeWhile Char.isDigit) 0

def strtol (word : List Char) : Int :=
  match word.dropWhile isspace with
  | '-' :: digits => clampLong (-leadingDigits digits)
  | '+' :: digits => clampLong (leadingDigits digits)
  | digits => clampLong (leadingDigits digits)

def atoi (word : List Char) : Int :=
  intT (strtol word)

def argumentTable : Table where
  shorts := [':', 's', ':', 'c', ':', 'r', ':']
  longs := [
    ⟨['s', 'i', 'z', 'e'], true, 's'⟩,
    ⟨['c', 'o', 'u', 'n', 't'], true, 'c'⟩,
    ⟨['r', 'a', 't', 'e'], true, 'r'⟩]

/-- The switch of `parse_arguments`. -/
def takeOption (arguments : Arguments) (result : Result) : Arguments :=
  match result.value, result.argument with
  | 's', some optarg => { arguments with size := atoi optarg }
  | 'c', some optarg => { arguments with count := atoi optarg }
  | 'r', some optarg => { arguments with rate := atoi optarg }
  | _, _ => arguments

def parseArguments (argv : List (List Char)) : Arguments :=
  (results argumentTable ⟨[], argv.tail⟩).foldl takeOption {}

/-- `flag[0]`, the terminator of an empty name. -/
def flagLetter (flag : List Char) : Char :=
  flag.headD (Char.ofNat 0)

/-- The table of `check_flag`. The source gives its option string no terminator. -/
def flagTable (flag : List Char) : Table where
  shorts := [':', flagLetter flag]
  longs := [⟨flag, false, flagLetter flag⟩]

def checkFlag (flag : List Char) (argv : List (List Char)) : Bool :=
  (results (flagTable flag) ⟨[], argv.tail⟩).any fun result => result.value = flagLetter flag

/-! The vectors of value options and flags. -/

inductive ValueOption
  | size
  | count
  | rate
deriving DecidableEq, Repr

def ValueOption.letter : ValueOption → Char
  | .size => 's'
  | .count => 'c'
  | .rate => 'r'

def ValueOption.name : ValueOption → List Char
  | .size => ['s', 'i', 'z', 'e']
  | .count => ['c', 'o', 'u', 'n', 't']
  | .rate => ['r', 'a', 't', 'e']

theorem ValueOption.letter_ne (option : ValueOption) : option.letter ≠ '-' := by
  cases option <;> decide

theorem ValueOption.name_ne (option : ValueOption) : option.name ≠ [] := by
  cases option <;> decide

theorem ValueOption.plain (option : ValueOption) :
    ∀ char ∈ option.name, (char ≠ '=' : Bool) = true := by
  cases option <;> exact List.all_eq_true.mp (by decide)

inductive Sign
  | bare
  | plus
  | minus
deriving DecidableEq, Repr

def Sign.chars : Sign → List Char
  | .bare => []
  | .plus => ['+']
  | .minus => ['-']

structure Number where
  sign : Sign
  digits : List Char
  some : digits ≠ []
  decimal : ∀ digit ∈ digits, digit.isDigit = true
deriving DecidableEq, Repr

namespace Number

def word (number : Number) : List Char :=
  number.sign.chars ++ number.digits

def value (number : Number) : Int :=
  match number.sign with
  | .minus => -Nat.ofDigitChars 10 number.digits 0
  | _ => Nat.ofDigitChars 10 number.digits 0

def stored (number : Number) : Int :=
  intT (clampLong number.value)

theorem isspace_digit {digit : Char} (decimal : digit.isDigit = true) :
    isspace digit = false := by
  have bounds := Char.isDigit_iff_toNat.mp decimal
  have lower : '0'.toNat = 48 := rfl
  have blank : digit ≠ ' ' := by
    rintro rfl
    contradiction
  simp only [isspace, blank, decide_false, Bool.false_or, Bool.and_eq_false_iff,
    decide_eq_false_iff_not]
  omega

theorem leadingDigits_eq (number : Number) :
    leadingDigits number.digits = Nat.ofDigitChars 10 number.digits 0 := by
  rw [leadingDigits, List.takeWhile_eq_self_iff.mpr number.decimal]

theorem atoi_word (number : Number) : atoi number.word = number.stored := by
  have digits := number.leadingDigits_eq
  obtain ⟨sign, digits, some, decimal⟩ := number
  obtain ⟨digit, more, rfl⟩ := List.exists_cons_of_ne_nil some
  have first : digit.isDigit = true := decimal digit List.mem_cons_self
  unfold atoi stored strtol
  congr 1
  cases sign with
  | bare =>
      simp only [word, Sign.chars, List.nil_append, List.dropWhile_cons, isspace_digit first,
        Bool.false_eq_true, ↓reduceIte]
      split
      · rename_i same
        obtain ⟨rfl, _⟩ := List.cons.inj same
        exact absurd first (by decide)
      · rename_i same
        obtain ⟨rfl, _⟩ := List.cons.inj same
        exact absurd first (by decide)
      · rw [digits]
        rfl
  | plus =>
      have start : word ⟨.plus, digit :: more, some, decimal⟩ = '+' :: digit :: more := rfl
      have solid : isspace '+' = false := rfl
      rw [start, List.dropWhile_cons, solid]
      simp only [Bool.false_eq_true, ↓reduceIte]
      rw [digits]
      rfl
  | minus =>
      have start : word ⟨.minus, digit :: more, some, decimal⟩ = '-' :: digit :: more := rfl
      have solid : isspace '-' = false := rfl
      rw [start, List.dropWhile_cons, solid]
      simp only [Bool.false_eq_true, ↓reduceIte]
      rw [digits]
      rfl

end Number

/-- The name of a long flag, one that `parse_arguments` does not take for an option of its
own. -/
structure FlagName where
  letter : Char
  more : List Char
  alphabetic : letter.isAlpha = true
  plain : '=' ∉ letter :: more
  foreign : ∀ option : ValueOption, ¬letter :: more <+: option.name

def FlagName.chars (name : FlagName) : List Char :=
  name.letter :: name.more

theorem FlagName.chars_ne (name : FlagName) : name.chars ≠ [] :=
  List.cons_ne_nil _ _

theorem FlagName.plain_chars (name : FlagName) :
    ∀ char ∈ name.chars, (char ≠ '=' : Bool) = true := by
  intro char member
  apply decide_eq_true
  rintro rfl
  exact name.plain member

inductive Given
  | value (option : ValueOption) (long : Bool) (number : Number)
  | flag
deriving DecidableEq, Repr

namespace Given

def words (name : FlagName) : Given → List (List Char)
  | .value option true number => ['-' :: '-' :: option.name, number.word]
  | .value option false number => [['-', option.letter], number.word]
  | .flag => ['-' :: '-' :: name.chars]

def numberOf (option : ValueOption) : Given → Option Number
  | .value other _ number => if other = option then some number else none
  | .flag => none

/-- An option that `check_flag` takes for its flag: the letter is that of the flag, or the
name of the flag begins with that of the option. -/
def mistaken (name : FlagName) : Given → Bool
  | .value option true _ => option.name.isPrefixOf name.chars
  | .value option false _ => option.letter = name.letter
  | .flag => false

def stops : Given → Bool
  | .value _ _ number => number.sign ≠ .minus
  | .flag => false

def settles (name : FlagName) (item : Given) : Bool :=
  item = .flag || item.mistaken name || item.stops

end Given

def vector (name : FlagName) (program : List Char) (given : List Given) : List (List Char) :=
  program :: given.flatMap (Given.words name)

def lastNumber (option : ValueOption) (given : List Given) : Option Number :=
  (given.filterMap (Given.numberOf option)).getLast?

def lastGiven (defaults : Arguments) (given : List Given) : Arguments where
  size := ((lastNumber .size given).map Number.stored).getD defaults.size
  count := ((lastNumber .count given).map Number.stored).getD defaults.count
  rate := ((lastNumber .rate given).map Number.stored).getD defaults.rate

/-- The flag is found where it stands and the values are read. -/
def ReadsVector (name : FlagName) (program : List Char) (given : List Given) : Prop :=
  (checkFlag name.chars (vector name program given) = true ↔ Given.flag ∈ given) ∧
    parseArguments (vector name program given) = lastGiven {} given

/-- The first item at which the scan of `check_flag` is settled is the flag, or it is taken
for the flag and the flag is given too, or it ends the scan and the flag is not given. -/
def SettledRightly (name : FlagName) (given : List Given) : Prop :=
  match given.find? (Given.settles name) with
  | none => True
  | some .flag => True
  | some item => if item.mistaken name = true then .flag ∈ given else .flag ∉ given

/-! What `check_flag` makes of a vector. -/

section Check

variable (name : FlagName)

theorem FlagName.shortOption_eq (letter : Char) :
    shortOption (flagTable name.chars).shorts letter =
      if letter = name.letter then some false else none := by
  have alphabetic := name.alphabetic
  have colon : name.letter ≠ ':' := by
    intro same
    rw [same] at alphabetic
    contradiction
  have semicolon : name.letter ≠ ';' := by
    intro same
    rw [same] at alphabetic
    contradiction
  have shorts : (flagTable name.chars).shorts = [':', name.letter] := rfl
  rw [shorts, shortOption]
  by_cases same : letter = name.letter
  · subst same
    simp [colon, semicolon, Ne.symm colon]
  · rw [if_neg same]
    split
    · rfl
    · rename_i proper
      rw [not_or] at proper
      simp [Ne.symm proper.1, Ne.symm same]

theorem FlagName.longOption_eq (text : List Char) :
    longOption (flagTable name.chars).longs text =
      if text.isPrefixOf name.chars = true then some ⟨name.chars, false, name.letter⟩
      else none := by
  have longs : (flagTable name.chars).longs = [⟨name.chars, false, name.letter⟩] := rfl
  rw [longs, longOption]
  by_cases same : name.chars = text
  · subst same
    simp
  · by_cases start : text.isPrefixOf name.chars = true
    · simp [same, start]
    · simp [same, start]

def FlagName.hit (result : Result) : Bool :=
  result.value = name.letter

@[simp] theorem FlagName.hit_unknown : name.hit unknown = false := by
  have alphabetic := name.alphabetic
  have question : '?' ≠ name.letter := by
    intro same
    rw [← same] at alphabetic
    contradiction
  simp [hit, unknown, question]

@[simp] theorem FlagName.hit_letter : name.hit ⟨name.letter, none⟩ = true := by
  simp [hit]

theorem FlagName.any_unknown {Item : Type} (items : List Item) :
    (items.map fun _ => unknown).any name.hit = false := by
  simp

theorem FlagName.digit_foreign {digit : Char} (decimal : digit.isDigit = true) :
    shortOption (flagTable name.chars).shorts digit = none := by
  rw [name.shortOption_eq, if_neg]
  rintro rfl
  have alphabetic : (decide ('A'.val ≤ name.letter.val ∧ name.letter.val ≤ 'Z'.val) ||
      (decide ('a'.val ≤ name.letter.val) && decide (name.letter.val ≤ 'z'.val))) = true :=
    name.alphabetic
  simp only [Bool.or_eq_true, Bool.and_eq_true, decide_eq_true_eq, UInt32.le_iff_toNat_le]
    at alphabetic
  have decimal : '0'.toNat ≤ name.letter.val.toNat ∧ name.letter.val.toNat ≤ '9'.toNat :=
    Char.isDigit_iff_toNat.mp decimal
  have upper : 'A'.val.toNat = 65 := rfl
  have nine : '9'.toNat = 57 := rfl
  have lower : 'a'.val.toNat = 97 := rfl
  omega

/-- A non-negative word ends the scan, a negative one is a word of unknown options. -/
theorem Number.scanned (number : Number) (rest : List (List Char)) :
    (results (flagTable name.chars) ⟨[], number.word :: rest⟩).any name.hit =
      (number.sign = .minus && (results (flagTable name.chars) ⟨[], rest⟩).any name.hit) := by
  obtain ⟨sign, digits, some, decimal⟩ := number
  obtain ⟨digit, more, rfl⟩ := List.exists_cons_of_ne_nil some
  have first : digit.isDigit = true := decimal digit List.mem_cons_self
  have dash : digit ≠ '-' := by
    rintro rfl
    exact absurd first (by decide)
  cases sign with
  | bare =>
      rw [results_operand]
      · rfl
      · simpa [word, Sign.chars] using dash
  | plus =>
      rw [results_operand]
      · rfl
      · simp [word, Sign.chars]
  | minus =>
      have negative : word ⟨.minus, digit :: more, some, decimal⟩ = '-' :: digit :: more := rfl
      rw [negative, results_undeclared dash]
      · rw [List.any_append, name.any_unknown]
        simp
      · intro char member
        exact name.digit_foreign (decimal char member)

theorem Given.scanned_flag (rest : List (List Char)) :
    (results (flagTable name.chars) ⟨[], Given.flag.words name ++ rest⟩).any name.hit = true := by
  have words : Given.flag.words name ++ rest = ('-' :: '-' :: name.chars) :: rest := rfl
  rw [words, results_long name.chars_ne, readLong,
    List.takeWhile_eq_self_iff.mpr name.plain_chars,
    List.dropWhile_eq_nil_iff.mpr name.plain_chars, name.longOption_eq]
  simp

theorem Given.scanned_value (option : ValueOption) (long : Bool) (number : Number)
    (rest : List (List Char)) :
    (results (flagTable name.chars)
        ⟨[], (Given.value option long number).words name ++ rest⟩).any name.hit =
      ((Given.value option long number).mistaken name ||
        (number.sign = .minus && (results (flagTable name.chars) ⟨[], rest⟩).any name.hit)) := by
  cases long with
  | false =>
      have words : (Given.value option false number).words name ++ rest =
          ['-', option.letter] :: number.word :: rest := rfl
      rw [words, results_cluster option.letter_ne, readShort, name.shortOption_eq]
      by_cases same : option.letter = name.letter
      · simp [same, mistaken]
      · simp [same, mistaken, Number.scanned]
  | true =>
      have words : (Given.value option true number).words name ++ rest =
          ('-' :: '-' :: option.name) :: number.word :: rest := rfl
      rw [words, results_long option.name_ne, readLong, List.takeWhile_eq_self_iff.mpr option.plain,
        List.dropWhile_eq_nil_iff.mpr option.plain, name.longOption_eq]
      by_cases start : option.name.isPrefixOf name.chars = true
      · simp [start, mistaken]
      · simp [start, mistaken, Number.scanned]

theorem checkFlag_eq (program : List Char) (given : List Given) :
    checkFlag name.chars (vector name program given) =
      (given.find? (Given.settles name)).any fun item => item = .flag || item.mistaken name := by
  change (results (flagTable name.chars) ⟨[], given.flatMap (Given.words name)⟩).any name.hit = _
  induction given with
  | nil => rfl
  | cons item given ih =>
      rw [List.flatMap_cons, List.find?_cons]
      cases item with
      | flag =>
          rw [Given.scanned_flag]
          rfl
      | value option long number =>
          rw [Given.scanned_value, ih]
          by_cases taken : (Given.value option long number).mistaken name = true
          · simp [Given.settles, taken]
          · by_cases negative : number.sign = .minus
            · simp [Given.settles, Given.stops, taken, negative]
            · simp [Given.settles, Given.stops, taken, negative]

end Check

/-! What `parse_arguments` makes of a vector. -/

section Parse

variable (name : FlagName)

def Given.store (arguments : Arguments) : Given → Arguments
  | .value .size _ number => { arguments with size := number.stored }
  | .value .count _ number => { arguments with count := number.stored }
  | .value .rate _ number => { arguments with rate := number.stored }
  | .flag => arguments

theorem Given.parsed_value (option : ValueOption) (long : Bool) (number : Number)
    (rest : List (List Char)) (arguments : Arguments) :
    (results argumentTable
        ⟨[], (Given.value option long number).words name ++ rest⟩).foldl takeOption arguments =
      (results argumentTable ⟨[], rest⟩).foldl takeOption
        ((Given.value option long number).store arguments) := by
  cases long with
  | false =>
      have words : (Given.value option false number).words name ++ rest =
          ['-', option.letter] :: number.word :: rest := rfl
      have argument : readShort argumentTable option.letter [] (number.word :: rest) =
          (⟨option.letter, some number.word⟩, ⟨[], rest⟩) := by
        cases option <;> rfl
      rw [words, results_cluster option.letter_ne, argument, List.foldl_cons]
      cases option <;> simp [takeOption, store, ValueOption.letter, number.atoi_word]
  | true =>
      have words : (Given.value option true number).words name ++ rest =
          ('-' :: '-' :: option.name) :: number.word :: rest := rfl
      have argument : readLong argumentTable option.name (number.word :: rest) =
          (⟨option.letter, some number.word⟩, ⟨[], rest⟩) := by
        cases option <;> rfl
      rw [words, results_long option.name_ne, argument, List.foldl_cons]
      cases option <;> simp [takeOption, store, ValueOption.letter, number.atoi_word]

theorem FlagName.undeclared : longOption argumentTable.longs name.chars = none := by
  have other : ∀ option : ValueOption, option.name ≠ name.chars := by
    intro option same
    apply name.foreign option
    rw [same]
    exact List.prefix_refl _
  have longer : ∀ option : ValueOption, name.chars.isPrefixOf option.name = false := by
    intro option
    rw [Bool.eq_false_iff, ne_eq, List.isPrefixOf_iff_prefix]
    exact name.foreign option
  have longs : argumentTable.longs =
      [⟨ValueOption.size.name, true, 's'⟩, ⟨ValueOption.count.name, true, 'c'⟩,
        ⟨ValueOption.rate.name, true, 'r'⟩] := rfl
  simp [longs, longOption, other, longer]

theorem Given.parsed_flag (rest : List (List Char)) (arguments : Arguments) :
    (results argumentTable ⟨[], Given.flag.words name ++ rest⟩).foldl takeOption arguments =
      (results argumentTable ⟨[], rest⟩).foldl takeOption arguments := by
  have words : Given.flag.words name ++ rest = ('-' :: '-' :: name.chars) :: rest := rfl
  rw [words, results_long name.chars_ne, readLong,
    List.takeWhile_eq_self_iff.mpr name.plain_chars, name.undeclared]
  rfl

theorem lastNumber_cons (option : ValueOption) (item : Given) (given : List Given) :
    lastNumber option (item :: given) =
      (lastNumber option given).or (item.numberOf option) := by
  unfold lastNumber
  rw [List.filterMap_cons]
  cases item.numberOf option with
  | none => simp
  | some number =>
      rw [List.getLast?_cons]
      cases (given.filterMap (Given.numberOf option)).getLast? <;> rfl

theorem lastGiven_cons (defaults : Arguments) (item : Given) (given : List Given) :
    lastGiven defaults (item :: given) = lastGiven (item.store defaults) given := by
  unfold lastGiven
  simp only [lastNumber_cons]
  cases item with
  | flag => simp [Given.numberOf, Given.store]
  | value option long number =>
      cases option with
      | size => cases lastNumber .size given <;> simp [Given.numberOf, Given.store]
      | count => cases lastNumber .count given <;> simp [Given.numberOf, Given.store]
      | rate => cases lastNumber .rate given <;> simp [Given.numberOf, Given.store]

theorem parseArguments_eq (program : List Char) (given : List Given) :
    parseArguments (vector name program given) = lastGiven {} given := by
  have general : ∀ arguments : Arguments,
      (results argumentTable ⟨[], given.flatMap (Given.words name)⟩).foldl takeOption arguments =
        lastGiven arguments given := by
    induction given with
    | nil =>
        intro arguments
        rfl
    | cons item given ih =>
        intro arguments
        rw [List.flatMap_cons, lastGiven_cons, ← ih]
        cases item with
        | flag => exact Given.parsed_flag name _ arguments
        | value option long number => exact Given.parsed_value name option long number _ arguments
  exact general {}

end Parse

def tcpFlag : FlagName where
  letter := 't'
  more := ['c', 'p']
  alphabetic := by decide
  plain := by decide
  foreign := by
    intro option
    cases option <;> decide

def helpFlag : FlagName where
  letter := 'h'
  more := ['e', 'l', 'p']
  alphabetic := by decide
  plain := by decide
  foreign := by
    intro option
    cases option <;> decide

/-- `check_flag` finds its flag where `parse_arguments` would accept it exactly when its scan is
settled rightly; the values are always read. -/
theorem readsVector_iff (name : FlagName) (program : List Char) (given : List Given) :
    ReadsVector name program given ↔ SettledRightly name given := by
  rw [ReadsVector, parseArguments_eq, checkFlag_eq, SettledRightly]
  simp only [and_true]
  cases found : given.find? (Given.settles name) with
  | none =>
      have absent : Given.flag ∉ given := by
        intro member
        have unsettled := List.find?_eq_none.mp found _ member
        exact unsettled (by simp [Given.settles])
      simp [absent]
  | some item =>
      have member := List.mem_of_find?_eq_some found
      cases item with
      | flag => simp [member]
      | value option long number =>
          by_cases taken : (Given.value option long number).mistaken name = true
          · simp [taken]
          · simp [taken]

def ninety : Number where
  sign := .bare
  digits := ['9', '0']
  some := by decide
  decimal := List.all_eq_true.mp (by decide)

/-- `-s 90 --tcp`: the number ends the scan. -/
theorem flag_missed : ¬ReadsVector tcpFlag ['s', 'e', 'r', 'v', 'e', 'r']
    [.value .size false ninety, .flag] := by
  rintro ⟨found, _⟩
  have missed : checkFlag tcpFlag.chars (vector tcpFlag ['s', 'e', 'r', 'v', 'e', 'r']
      [.value .size false ninety, .flag]) = false := by
    decide
  rw [missed] at found
  exact absurd (found.mpr (by decide)) (by decide)

end IpcBench
