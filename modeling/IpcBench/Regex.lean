import Mathlib.Data.List.Forall2
import Mathlib.Data.List.TakeWhile

/-!
Regular expressions that are sequences of repeated character classes. They match as in a
backtracking engine: every repetition takes as much as it can, and the leftmost match counts.
-/

namespace Regex

structure Token where
  accepts : Char → Bool
  least : Nat
  most : Option Nat

namespace Token

def literal (char : Char) : Token := ⟨fun other => other = char, 1, some 1⟩

def plus (accepts : Char → Bool) : Token := ⟨accepts, 1, none⟩

def star (accepts : Char → Bool) : Token := ⟨accepts, 0, none⟩

def optional (accepts : Char → Bool) : Token := ⟨accepts, 0, some 1⟩

@[simp] theorem literal_accepts (char other : Char) :
    (literal char).accepts other = decide (other = char) := rfl
@[simp] theorem literal_least (char : Char) : (literal char).least = 1 := rfl
@[simp] theorem plus_accepts (accepts : Char → Bool) : (plus accepts).accepts = accepts := rfl
@[simp] theorem plus_least (accepts : Char → Bool) : (plus accepts).least = 1 := rfl
@[simp] theorem star_accepts (accepts : Char → Bool) : (star accepts).accepts = accepts := rfl
@[simp] theorem star_least (accepts : Char → Bool) : (star accepts).least = 0 := rfl

def run (token : Token) (text : List Char) : Nat :=
  match token.most with
  | none => (text.takeWhile token.accepts).length
  | some most => min most (text.takeWhile token.accepts).length

end Token

def literals (word : List Char) : List Token :=
  word.map Token.literal

def longest (follow : List Char → Option (List (List Char))) (least : Nat) (text : List Char) :
    Nat → Option (List (List Char))
  | 0 => if least = 0 then (follow text).map fun pieces => [] :: pieces else none
  | length + 1 =>
      if length + 1 < least then none
      else
        match follow (text.drop (length + 1)) with
        | some pieces => some (text.take (length + 1) :: pieces)
        | none => longest follow least text length

def matchAt : List Token → List Char → Option (List (List Char))
  | [], _ => some []
  | token :: rest, text => longest (matchAt rest) token.least text (token.run text)

def search (pattern : List Token) : List Char → Option (List (List Char))
  | [] => matchAt pattern []
  | char :: text =>
      match matchAt pattern (char :: text) with
      | some pieces => some pieces
      | none => search pattern text

section Longest

variable {follow : List Char → Option (List (List Char))} {least : Nat} {text : List Char}

theorem longest_none {length : Nat}
    (stuck : ∀ taken, taken ≤ length → follow (text.drop taken) = none) :
    longest follow least text length = none := by
  induction length with
  | zero =>
      have here := stuck 0 (Nat.le_refl 0)
      rw [List.drop_zero] at here
      simp [longest, here]
  | succ length ih =>
      have here := stuck (length + 1) (Nat.le_refl _)
      have shorter := ih fun taken below => stuck taken (Nat.le_succ_of_le below)
      simp [longest, here, shorter]

theorem longest_some {length : Nat} {pieces : List (List Char)} (enough : least ≤ length)
    (found : follow (text.drop length) = some pieces) :
    longest follow least text length = some (text.take length :: pieces) := by
  cases length with
  | zero =>
      rw [List.drop_zero] at found
      simp [longest, Nat.le_zero.mp enough, found]
  | succ length => simp [longest, Nat.not_lt.mpr enough, found]

theorem longest_short {length : Nat} (short : length < least) :
    longest follow least text length = none := by
  cases length with
  | zero => simp [longest, Nat.ne_of_gt short]
  | succ length => simp [longest, short]

theorem longest_only {length : Nat}
    (stuck : ∀ taken, taken < length → follow (text.drop taken) = none) :
    longest follow least text length =
      if least ≤ length then (follow (text.drop length)).map fun pieces => text.take length :: pieces
      else none := by
  split
  · rename_i enough
    cases found : follow (text.drop length) with
    | some pieces => exact longest_some enough found
    | none =>
        apply longest_none
        intro taken within
        rcases Nat.lt_or_eq_of_le within with below | rfl
        · exact stuck taken below
        · exact found
  · rename_i short
    exact longest_short (Nat.not_le.mp short)

end Longest

section Match

variable {token : Token} {rest : List Token} {text more : List Char} {char : Char}

theorem matchAt_literal (rest : List Token) (char : Char) (text : List Char) :
    matchAt (Token.literal char :: rest) text =
      if [char] <+: text then (matchAt rest text.tail).map fun pieces => [char] :: pieces
      else none := by
  cases text with
  | nil => simp [matchAt, Token.run, Token.literal, longest]
  | cons first text =>
      by_cases same : first = char
      · subst same
        have one : (Token.literal first).run (first :: text) = 1 := by
          simp [Token.run, Token.literal]
        rw [matchAt, one]
        cases found : matchAt rest text <;> simp [longest, Token.literal, found]
      · have other : ¬[char] <+: first :: text := by
          simp [List.cons_prefix_cons, Ne.symm same]
        have zero : (Token.literal char).run (first :: text) = 0 := by
          simp [Token.run, Token.literal, same]
        rw [matchAt, zero, if_neg other]
        rfl

theorem matchAt_literals (word : List Char) (rest : List Token) (text : List Char) :
    matchAt (literals word ++ rest) text =
      if word <+: text then
        (matchAt rest (text.drop word.length)).map fun pieces =>
          (word.map fun char => [char]) ++ pieces
      else none := by
  induction word generalizing text with
  | nil => simp [literals]
  | cons char word ih =>
      have split : literals (char :: word) ++ rest =
          Token.literal char :: (literals word ++ rest) := rfl
      rw [split, matchAt_literal]
      cases text with
      | nil => simp
      | cons first text =>
          by_cases same : char = first
          · subst same
            simp only [List.cons_prefix_cons, List.nil_prefix, and_self, if_true, List.tail_cons,
              true_and, List.length_cons, List.drop_succ_cons, ih]
            split
            · simp [Option.map_map, Function.comp_def]
            · rfl
          · simp [List.cons_prefix_cons, same]

theorem matchAt_run (unbounded : token.most = none)
    (stuck : ∀ char more, token.accepts char = true → matchAt rest (char :: more) = none) :
    matchAt (token :: rest) text =
      if token.least ≤ (text.takeWhile token.accepts).length then
        (matchAt rest (text.dropWhile token.accepts)).map fun pieces =>
          text.takeWhile token.accepts :: pieces
      else none := by
  have whole := List.takeWhile_append_dropWhile (p := token.accepts) (l := text)
  generalize accepted : text.takeWhile token.accepts = front at whole ⊢
  generalize text.dropWhile token.accepts = back at whole ⊢
  have run : token.run text = front.length := by
    simp [Token.run, unbounded, accepted]
  rw [matchAt, run, longest_only]
  · rw [← whole, List.take_left, List.drop_left]
  · intro taken below
    rw [← whole, List.drop_append_of_le_length (Nat.le_of_lt below),
      List.drop_eq_getElem_cons below, List.cons_append]
    apply stuck
    have member : front[taken] ∈ text.takeWhile token.accepts := by
      rw [accepted]
      exact List.getElem_mem below
    exact List.mem_takeWhile_imp member

theorem matchAt_last (unbounded : token.most = none)
    (enough : token.least ≤ (text.takeWhile token.accepts).length) :
    matchAt [token] text = some [text.takeWhile token.accepts] := by
  have run : token.run text = (text.takeWhile token.accepts).length := by
    simp [Token.run, unbounded]
  have front : text.takeWhile token.accepts = text.take (text.takeWhile token.accepts).length :=
    List.prefix_iff_eq_take.mp (List.takeWhile_prefix token.accepts)
  have found : longest (matchAt []) token.least text (text.takeWhile token.accepts).length =
      some (text.take (text.takeWhile token.accepts).length :: []) :=
    longest_some enough rfl
  rw [matchAt, run, found, ← front]

theorem matchAt_refused (needed : 0 < token.least) (refused : token.accepts char = false) :
    matchAt (token :: rest) (char :: more) = none := by
  have none : token.run (char :: more) = 0 := by
    unfold Token.run
    split <;> simp [refused]
  rw [matchAt, none]
  simp [longest, Nat.ne_of_gt needed]

theorem matchAt_optional (accepts : Char → Bool) (rest : List Token) (char : Char)
    (more : List Char) :
    matchAt (Token.optional accepts :: rest) (char :: more) =
      (if accepts char = true then (matchAt rest more).map fun pieces => [char] :: pieces
        else none).or ((matchAt rest (char :: more)).map fun pieces => [] :: pieces) := by
  by_cases accepted : accepts char = true
  · have one : (Token.optional accepts).run (char :: more) = 1 := by
      simp [Token.run, Token.optional, accepted]
    rw [matchAt, one, if_pos accepted]
    cases found : matchAt rest more <;> simp [longest, Token.optional, found]
  · have zero : (Token.optional accepts).run (char :: more) = 0 := by
      simp [Token.run, Token.optional, accepted]
    rw [matchAt, zero, if_neg accepted]
    simp [longest, Token.optional]

end Match

/-! Whatever is matched is of the classes of the pattern. -/

section Accepts

variable {pattern : List Token} {text : List Char} {pieces : List (List Char)}

theorem longest_inv {follow : List Char → Option (List (List Char))} {least length : Nat}
    (found : longest follow least text length = some pieces) :
    ∃ taken rest, taken ≤ length ∧ pieces = text.take taken :: rest ∧
      follow (text.drop taken) = some rest := by
  induction length with
  | zero =>
      simp only [longest] at found
      split at found
      · obtain ⟨rest, matched, rfl⟩ := Option.map_eq_some_iff.mp found
        exact ⟨0, rest, Nat.le_refl 0, rfl, matched⟩
      · cases found
  | succ length ih =>
      simp only [longest] at found
      split at found
      · cases found
      · split at found
        · rename_i rest matched
          cases found
          exact ⟨length + 1, rest, Nat.le_refl _, rfl, matched⟩
        · obtain ⟨taken, rest, within, split⟩ := ih found
          exact ⟨taken, rest, Nat.le_succ_of_le within, split⟩

theorem matchAt_accepts (found : matchAt pattern text = some pieces) :
    List.Forall₂ (fun token piece => ∀ char ∈ piece, token.accepts char = true) pattern pieces := by
  induction pattern generalizing text pieces with
  | nil =>
      cases found
      exact List.Forall₂.nil
  | cons token pattern ih =>
      obtain ⟨taken, rest, within, rfl, matched⟩ := longest_inv found
      apply List.Forall₂.cons _ (ih matched)
      intro char member
      have run : token.run text ≤ (text.takeWhile token.accepts).length := by
        unfold Token.run
        split
        · exact Nat.le_refl _
        · exact Nat.min_le_right _ _
      have front : text.takeWhile token.accepts = text.take (text.takeWhile token.accepts).length :=
        List.prefix_iff_eq_take.mp (List.takeWhile_prefix token.accepts)
      have inside := List.take_subset_take_left text (Nat.le_trans within run) member
      rw [← front] at inside
      exact List.mem_takeWhile_imp inside

theorem search_matches (found : search pattern text = some pieces) :
    ∃ suffix, matchAt pattern suffix = some pieces := by
  induction text with
  | nil => exact ⟨[], found⟩
  | cons char text ih =>
      simp only [search] at found
      split at found
      · rename_i matched
        cases found
        exact ⟨char :: text, matched⟩
      · exact ih found

end Accepts

/-! Searching for a pattern that begins with a word. -/

section Search

variable {pattern rest : List Token} {word text front back : List Char} {first stop : Char}

theorem search_here {pieces : List (List Char)} (found : matchAt pattern text = some pieces) :
    search pattern text = some pieces := by
  cases text with
  | nil => exact found
  | cons char text => simp [search, found]

theorem search_skip (absent : first ∉ front) :
    search (literals (first :: word) ++ rest) (front ++ back) =
      search (literals (first :: word) ++ rest) back := by
  induction front with
  | nil => rfl
  | cons char front ih =>
      rw [List.mem_cons, not_or] at absent
      have other : ¬first :: word <+: char :: (front ++ back) := by
        simp [List.cons_prefix_cons, absent.1]
      rw [List.cons_append, search, matchAt_literals, if_neg other]
      exact ih absent.2

theorem search_nil : search (literals (first :: word) ++ rest) [] = none := by
  rw [search, matchAt_literals]
  simp

theorem search_past (elsewhere : first ∉ text.tail) (ends : first ≠ stop)
    (fails : matchAt (literals (first :: word) ++ rest) (text ++ stop :: back) = none) :
    search (literals (first :: word) ++ rest) (text ++ stop :: back) =
      search (literals (first :: word) ++ rest) back := by
  have tail : first ∉ text.tail ++ [stop] := by
    simp [elsewhere, ends]
  cases text with
  | nil =>
      have skipped := @search_skip rest word _ back first tail
      simpa using skipped
  | cons char text =>
      have skipped := @search_skip rest word _ back first tail
      rw [List.cons_append] at fails ⊢
      simp only [search, fails]
      simpa using skipped

end Search

end Regex
