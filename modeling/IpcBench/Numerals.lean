import Mathlib.Data.NNRat.Defs
import Mathlib.Data.List.TakeWhile
import Mathlib.Tactic.FieldSimp
import Mathlib.Tactic.Linarith
import Mathlib.Tactic.Positivity
import Mathlib.Tactic.Ring

/-!
Numerals: how `printf` writes integers and doubles, and how Python reads the decimal texts
that it finds.
-/

namespace Numerals

/-! The characters that Python takes for decimal digits and for white space. -/

/-- The zeros of Unicode; each stands before its other nine digits. -/
def zeros : List Nat := [
  48, 1632, 1776, 1984, 2406, 2534, 2662, 2790, 2918, 3046, 3174, 3302, 3430, 3558, 3664, 3792,
  3872, 4160, 4240, 6112, 6160, 6470, 6608, 6784, 6800, 6992, 7088, 7232, 7248, 42528, 43216,
  43264, 43472, 43504, 43600, 44016, 65296, 66720, 68912, 69734, 69872, 69942, 70096, 70384,
  70736, 70864, 71248, 71360, 71472, 71904, 72016, 72784, 73040, 73120, 92768, 92864, 93008,
  120782, 120792, 120802, 120812, 120822, 123200, 123632, 125264, 130032]

def zeroOf (char : Char) : Option Nat :=
  zeros.find? fun first => first ≤ char.toNat && char.toNat < first + 10

def isDecimal (char : Char) : Bool :=
  (zeroOf char).isSome

def decimalValue (char : Char) : Nat :=
  char.toNat - (zeroOf char).getD 0

def isSpaceCode (code : Nat) : Bool :=
  (9 ≤ code && code ≤ 13) || (28 ≤ code && code ≤ 32) || code = 133 || code = 160 ||
    code = 5760 || (8192 ≤ code && code ≤ 8202) || code = 8232 || code = 8233 || code = 8239 ||
    code = 8287 || code = 12288

def isSpace (char : Char) : Bool :=
  isSpaceCode char.toNat

def natOf (digits : List Char) : Nat :=
  digits.foldl (fun value digit => 10 * value + decimalValue digit) 0

def unsignedOf (text : List Char) : ℚ :=
  let fraction := (text.dropWhile fun char => char ≠ '.').tail
  natOf (text.takeWhile fun char => char ≠ '.') + natOf fraction / 10 ^ fraction.length

def decimalOf (text : List Char) : ℚ :=
  match text with
  | '-' :: digits => -unsignedOf digits
  | '+' :: digits => unsignedOf digits
  | digits => unsignedOf digits

/-! Printing. -/

inductive Double
  | finite (negative : Bool) (magnitude : ℚ≥0)
  | infinite (negative : Bool)
  | nan (negative : Bool)
deriving DecidableEq

def minus (negative : Bool) : List Char :=
  if negative then ['-'] else []

def integer (value : Int) : List Char :=
  minus (value < 0) ++ Nat.toDigits 10 value.natAbs

def nearest (numerator denominator : Nat) : Nat :=
  let quotient := numerator / denominator
  let rest := numerator % denominator
  if 2 * rest < denominator then quotient
  else if denominator < 2 * rest then quotient + 1
  else quotient + quotient % 2

def scaled (places : Nat) (magnitude : ℚ≥0) : Nat :=
  nearest (magnitude.num * 10 ^ places) magnitude.den

def lastDigits : Nat → Nat → List Char
  | 0, _ => []
  | places + 1, value => lastDigits places (value / 10) ++ [Nat.digitChar (value % 10)]

def fixed (places : Nat) : Double → List Char
  | .finite negative magnitude =>
      minus negative ++ Nat.toDigits 10 (scaled places magnitude / 10 ^ places) ++
        '.' :: lastDigits places (scaled places magnitude)
  | .infinite negative => minus negative ++ ['i', 'n', 'f']
  | .nan negative => minus negative ++ ['n', 'a', 'n']

def rounded (places : Nat) (negative : Bool) (magnitude : ℚ≥0) : ℚ :=
  (if negative then -1 else 1) * (scaled places magnitude / 10 ^ places)

/-! Reading what has been printed. -/

theorem zeroOf_digit {digit : Char} (ascii : digit.isDigit = true) : zeroOf digit = some 48 := by
  have bounds := Char.isDigit_iff_toNat.mp ascii
  have lower : '0'.toNat = 48 := rfl
  have upper : '9'.toNat = 57 := rfl
  simp only [zeroOf, zeros, List.find?_cons]
  have here : (48 ≤ digit.toNat && digit.toNat < 48 + 10 : Bool) = true := by
    simp only [Bool.and_eq_true, decide_eq_true_eq]
    omega
  rw [here]

theorem isDecimal_digit {digit : Char} (ascii : digit.isDigit = true) :
    isDecimal digit = true := by
  rw [isDecimal, zeroOf_digit ascii]
  rfl

theorem isSpace_decimal {char : Char} (decimal : isDecimal char = true) :
    isSpace char = false := by
  have apart : (zeros.all fun first =>
      (List.range 10).all fun offset => !isSpaceCode (first + offset)) = true := by
    decide
  obtain ⟨first, found⟩ := Option.isSome_iff_exists.mp decimal
  have member := List.mem_of_find?_eq_some found
  have inside := List.find?_some found
  simp only [Bool.and_eq_true, decide_eq_true_eq] at inside
  rw [List.all_eq_true] at apart
  have here := List.all_eq_true.mp (apart first member) (char.toNat - first)
    (List.mem_range.mpr (by omega))
  have code : first + (char.toNat - first) = char.toNat := by omega
  rw [code] at here
  simpa [isSpace] using here

theorem isSpace_digit {digit : Char} (ascii : digit.isDigit = true) : isSpace digit = false :=
  isSpace_decimal (isDecimal_digit ascii)

theorem decimalValue_digit {digit : Char} (ascii : digit.isDigit = true) :
    decimalValue digit = digit.toNat - '0'.toNat := by
  rw [decimalValue, zeroOf_digit ascii]
  rfl

theorem natOf_eq {digits : List Char} (ascii : ∀ digit ∈ digits, digit.isDigit = true) :
    natOf digits = Nat.ofDigitChars 10 digits 0 := by
  have general : ∀ value,
      digits.foldl (fun value digit => 10 * value + decimalValue digit) value =
        Nat.ofDigitChars 10 digits value := by
    induction digits with
    | nil =>
        intro value
        exact Nat.ofDigitChars_nil.symm
    | cons digit digits ih =>
        intro value
        rw [List.foldl_cons, Nat.ofDigitChars_cons, decimalValue_digit (ascii digit List.mem_cons_self)]
        exact ih (fun other member => ascii other (List.mem_cons_of_mem _ member)) _
  exact general 0

theorem toDigits_digit {value : Nat} : ∀ digit ∈ Nat.toDigits 10 value, digit.isDigit = true := by
  intro digit member
  exact Nat.isDigit_of_mem_toDigits (by omega) (by omega) member

theorem natOf_toDigits (value : Nat) : natOf (Nat.toDigits 10 value) = value := by
  rw [natOf_eq toDigits_digit]
  exact Nat.ofDigitChars_toDigits (by omega) (by omega)

theorem digitChar_digit {value : Nat} (small : value < 10) :
    (Nat.digitChar value).isDigit = true := by
  rw [Nat.isDigit_digitChar]
  exact decide_eq_true small

theorem decimalValue_digitChar {value : Nat} (small : value < 10) :
    decimalValue (Nat.digitChar value) = value := by
  have read := natOf_toDigits value
  rw [Nat.toDigits_of_lt_base small] at read
  simpa [natOf] using read

theorem lastDigits_length (places value : Nat) : (lastDigits places value).length = places := by
  induction places generalizing value with
  | zero => rfl
  | succ places ih => simp [lastDigits, ih]

theorem lastDigits_digit {places value : Nat} :
    ∀ digit ∈ lastDigits places value, digit.isDigit = true := by
  induction places generalizing value with
  | zero =>
      intro digit member
      cases member
  | succ places ih =>
      intro digit member
      rw [lastDigits, List.mem_append, List.mem_singleton] at member
      rcases member with before | rfl
      · exact ih digit before
      · exact digitChar_digit (Nat.mod_lt _ (by omega))

theorem natOf_lastDigits (places value : Nat) :
    natOf (lastDigits places value) = value % 10 ^ places := by
  induction places generalizing value with
  | zero =>
      rw [Nat.pow_zero, Nat.mod_one]
      rfl
  | succ places ih =>
      have last := decimalValue_digitChar (Nat.mod_lt value (Nat.succ_pos 9))
      have split : natOf (lastDigits (places + 1) value) =
          10 * natOf (lastDigits places (value / 10)) + value % 10 := by
        simp only [lastDigits, natOf, List.foldl_append, List.foldl_cons, List.foldl_nil, last]
      rw [split, ih, Nat.pow_succ, Nat.mul_comm (10 ^ places), Nat.mod_mul]
      omega

/-- A text of digits reads as itself, however it goes on. -/
theorem takeWhile_digits {accepts : Char → Bool} {digits : List Char} {stop : Char}
    {rest : List Char} (all : ∀ digit ∈ digits, accepts digit = true) (ends : accepts stop = false) :
    (digits ++ stop :: rest).takeWhile accepts = digits ∧
      (digits ++ stop :: rest).dropWhile accepts = stop :: rest := by
  constructor
  · rw [List.takeWhile_append_of_pos all]
    simp [ends]
  · rw [List.dropWhile_append_of_pos all]
    simp [ends]

theorem pointless {whole : List Char} (digits : ∀ digit ∈ whole, digit.isDigit = true) :
    ∀ digit ∈ whole, (digit ≠ '.' : Bool) = true := by
  intro digit member
  apply decide_eq_true
  rintro rfl
  exact absurd (digits _ member) (by decide)

theorem unsignedOf_point {whole fraction : List Char}
    (digits : ∀ digit ∈ whole, digit.isDigit = true) :
    unsignedOf (whole ++ '.' :: fraction) =
      natOf whole + natOf fraction / 10 ^ fraction.length := by
  have other := pointless digits
  obtain ⟨before, after⟩ := @takeWhile_digits _ whole '.' fraction other (by decide)
  rw [unsignedOf, before, after]
  rfl

theorem unsignedOf_digits {whole : List Char} (digits : ∀ digit ∈ whole, digit.isDigit = true) :
    unsignedOf whole = natOf whole := by
  have other := pointless digits
  rw [unsignedOf, List.takeWhile_eq_self_iff.mpr other, List.dropWhile_eq_nil_iff.mpr other]
  simp [natOf]

theorem decimalOf_unsigned {digit : Char} {rest : List Char} (ascii : digit.isDigit = true) :
    decimalOf (digit :: rest) = unsignedOf (digit :: rest) := by
  unfold decimalOf
  split
  · rename_i same
    obtain ⟨rfl, _⟩ := List.cons.inj same
    exact absurd ascii (by decide)
  · rename_i same
    obtain ⟨rfl, _⟩ := List.cons.inj same
    exact absurd ascii (by decide)
  · rfl

theorem toDigits_cons (value : Nat) : ∃ digit rest,
    Nat.toDigits 10 value = digit :: rest ∧ digit.isDigit = true := by
  obtain ⟨digit, rest, digits⟩ := List.exists_cons_of_ne_nil (@Nat.toDigits_ne_nil value 10)
  refine ⟨digit, rest, digits, ?_⟩
  apply @toDigits_digit value
  rw [digits]
  exact List.mem_cons_self

/-- A printed number reads as what it was rounded to. -/
theorem decimalOf_fixed (places : Nat) (negative : Bool) (magnitude : ℚ≥0) :
    decimalOf (fixed places (.finite negative magnitude)) = rounded places negative magnitude := by
  simp only [fixed, rounded]
  generalize scaled places magnitude = value
  have number : unsignedOf
      (Nat.toDigits 10 (value / 10 ^ places) ++ '.' :: lastDigits places value) =
        value / 10 ^ places := by
    rw [unsignedOf_point toDigits_digit, natOf_toDigits, natOf_lastDigits, lastDigits_length]
    have power : (10 : ℚ) ^ places ≠ 0 := by positivity
    have division : (10 ^ places * (value / 10 ^ places) + value % 10 ^ places : ℕ) = value :=
      Nat.div_add_mod value (10 ^ places)
    have cast : (10 : ℚ) ^ places * (value / 10 ^ places : ℕ) + (value % 10 ^ places : ℕ) = value := by
      exact_mod_cast division
    field_simp
    linarith
  cases negative with
  | true =>
      simp only [minus, if_true, List.cons_append, List.nil_append]
      rw [decimalOf, number]
      ring
  | false =>
      obtain ⟨digit, rest, digits, ascii⟩ := toDigits_cons (value / 10 ^ places)
      rw [digits, List.cons_append] at number
      simp only [minus, Bool.false_eq_true, if_false, List.nil_append]
      rw [digits, List.cons_append, decimalOf_unsigned ascii, number]
      ring

theorem decimalOf_integer (value : Nat) : decimalOf (integer value) = value := by
  obtain ⟨digit, rest, digits, ascii⟩ := toDigits_cons value
  have text : integer value = Nat.toDigits 10 value := by
    simp [integer, minus]
  have number := unsignedOf_digits (@toDigits_digit value)
  rw [natOf_toDigits, digits] at number
  rw [text, digits, decimalOf_unsigned ascii, number]

theorem decimalOf_nonneg {digits : List Char} (ascii : ∀ digit ∈ digits, digit.isDigit = true) :
    0 ≤ decimalOf digits := by
  have number : unsignedOf digits = natOf digits := unsignedOf_digits ascii
  have unsigned : decimalOf digits = unsignedOf digits := by
    cases digits with
    | nil => rfl
    | cons digit rest => exact decimalOf_unsigned (ascii digit List.mem_cons_self)
  rw [unsigned, number]
  exact Nat.cast_nonneg _

end Numerals
