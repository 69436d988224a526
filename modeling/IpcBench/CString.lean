/-!
C strings in buffers of a fixed size, one character for each byte, and the search for the
last occurrence of a word from the end of a text.
-/

namespace CString

def nul : Char := Char.ofNat 0

structure Text where
  chars : List Char
  proper : nul ∉ chars

def cstring (memory : List Char) : List Char :=
  memory.takeWhile fun char => char ≠ nul

/-- `strcpy(memory + offset, source)`; there is no result when it writes beyond the buffer. -/
def strcpy (memory : List Char) (offset : Nat) (source : List Char) : Option (List Char) :=
  if offset + source.length + 1 ≤ memory.length then
    some (memory.take offset ++ source ++ nul :: memory.drop (offset + source.length + 1))
  else none

def sprintf (memory : List Char) (parts : List (List Char)) : Option (List Char) :=
  strcpy memory 0 parts.flatten

variable {memory source copied : List Char} {offset : Nat}

theorem strcpy_fits (fits : offset + source.length + 1 ≤ memory.length) :
    ∃ copied, strcpy memory offset source = some copied := by
  rw [strcpy, if_pos fits]
  exact ⟨_, rfl⟩

theorem strcpy_overruns (overrun : memory.length < offset + source.length + 1) :
    strcpy memory offset source = none := by
  rw [strcpy, if_neg (by omega)]

theorem strcpy_eq (copy : strcpy memory offset source = some copied) :
    offset + source.length + 1 ≤ memory.length ∧
      copied = memory.take offset ++ source ++ nul :: memory.drop (offset + source.length + 1) := by
  unfold strcpy at copy
  split at copy
  · rename_i fits
    cases copy
    exact ⟨fits, rfl⟩
  · cases copy

theorem strcpy_length (copy : strcpy memory offset source = some copied) :
    copied.length = memory.length := by
  obtain ⟨fits, rfl⟩ := strcpy_eq copy
  simp only [List.length_append, List.length_take, List.length_cons, List.length_drop]
  omega

theorem cstring_strcpy (copy : strcpy memory offset source = some copied)
    (before : nul ∉ memory.take offset) (proper : nul ∉ source) :
    cstring copied = memory.take offset ++ source := by
  obtain ⟨_, rfl⟩ := strcpy_eq copy
  have kept : ∀ char ∈ memory.take offset ++ source, (char ≠ nul : Bool) = true := by
    intro char member
    rw [List.mem_append] at member
    simp only [ne_eq, decide_not, Bool.not_eq_true', decide_eq_false_iff_not]
    rintro rfl
    exact member.elim before proper
  rw [cstring, List.takeWhile_append_of_pos kept]
  simp

/-! Searching from the end. -/

section Search

variable {Item : Type} {word text : List Item}

def MatchesAt (word text : List Item) (position : Nat) : Prop :=
  (text.drop position).take word.length = word

theorem matchesAt_append (before after : List Item) :
    MatchesAt word (before ++ word ++ after) before.length := by
  simp [MatchesAt]

theorem MatchesAt.getElem? {position : Nat} (here : MatchesAt word text position) (index : Nat)
    (inside : index < word.length) : text[position + index]? = word[index]? := by
  rw [← List.getElem?_drop, ← List.getElem?_take_of_lt inside, here]

theorem MatchesAt.take {position : Nat} (here : MatchesAt word text position) :
    text.take (position + word.length) = text.take position ++ word := by
  rw [List.take_add, here]

variable [DecidableEq Item]

instance (word text : List Item) (position : Nat) : Decidable (MatchesAt word text position) :=
  inferInstanceAs (Decidable (_ = _))

def rfind (word text : List Item) : Nat → Option Nat
  | 0 => none
  | bound + 1 => if MatchesAt word text bound then some bound else rfind word text bound

theorem rfind_some {bound position : Nat} (found : rfind word text bound = some position) :
    MatchesAt word text position ∧ position < bound := by
  induction bound with
  | zero => cases found
  | succ bound ih =>
      simp only [rfind] at found
      split at found
      · rename_i here
        cases found
        exact ⟨here, Nat.lt_succ_self _⟩
      · obtain ⟨here, inside⟩ := ih found
        exact ⟨here, by omega⟩

theorem rfind_of_matches {bound position : Nat} (here : MatchesAt word text position)
    (inside : position < bound) : ∃ last, rfind word text bound = some last ∧ position ≤ last := by
  induction bound with
  | zero => omega
  | succ bound ih =>
      simp only [rfind]
      by_cases last : MatchesAt word text bound
      · exact ⟨bound, by rw [if_pos last], by omega⟩
      · have before : position < bound := by
          apply Nat.lt_of_le_of_ne (by omega)
          rintro rfl
          exact last here
        obtain ⟨found, search, above⟩ := ih before
        exact ⟨found, by rw [if_neg last, search], above⟩

end Search

end CString
