/-!
Labelled stretches of indices, such as a log of calls that each treat the next few
entries of an array. A log whose stretches follow on each other covers every index
below its end exactly once.
-/

namespace Stretches

structure Stretch (Label : Type) where
  label : Label
  start : Nat
  length : Nat
deriving DecidableEq, Repr

variable {Label : Type}

def Stretch.Covers (index : Nat) (stretch : Stretch Label) : Prop :=
  stretch.start ≤ index ∧ index < stretch.start + stretch.length

instance (index : Nat) (stretch : Stretch Label) : Decidable (stretch.Covers index) :=
  inferInstanceAs (Decidable (_ ∧ _))

inductive Consecutive : List (Stretch Label) → Nat → Prop
  | nil : Consecutive [] 0
  | next {stretches finish} (label : Label) (length : Nat) : Consecutive stretches finish →
      Consecutive (stretches ++ [⟨label, finish, length⟩]) (finish + length)

namespace Consecutive

variable {stretches : List (Stretch Label)} {finish index : Nat}

theorem lt_of_covers (consecutive : Consecutive stretches finish) {stretch : Stretch Label}
    (member : stretch ∈ stretches) (covers : stretch.Covers index) : index < finish := by
  induction consecutive with
  | nil => simp at member
  | next label length _ ih =>
      rcases List.mem_append.mp member with old | last
      · exact Nat.lt_of_lt_of_le (ih old) (Nat.le_add_right _ _)
      · rw [List.mem_singleton] at last
        subst last
        exact covers.2

theorem exists_covers (consecutive : Consecutive stretches finish) (below : index < finish) :
    ∃ stretch ∈ stretches, stretch.Covers index := by
  induction consecutive with
  | nil => omega
  | next label length before ih =>
      rename_i stretches finish
      by_cases old : index < finish
      · obtain ⟨stretch, member, covers⟩ := ih old
        exact ⟨stretch, List.mem_append_left _ member, covers⟩
      · exact ⟨⟨label, finish, length⟩, by simp, Nat.le_of_not_lt old, below⟩

theorem countP_covers (consecutive : Consecutive stretches finish) (index : Nat) :
    stretches.countP (fun stretch => stretch.Covers index) =
      if index < finish then 1 else 0 := by
  induction consecutive with
  | nil => rfl
  | next label length before ih =>
      rename_i stretches finish
      rw [List.countP_append, ih, List.countP_singleton]
      by_cases old : index < finish
      · have apart : ¬Stretch.Covers index (⟨label, finish, length⟩ : Stretch Label) :=
          fun covers => Nat.not_le_of_lt old covers.1
        have below : index < finish + length := by omega
        simp [old, apart, below]
      · by_cases last : index < finish + length
        · have covers : Stretch.Covers index (⟨label, finish, length⟩ : Stretch Label) :=
            ⟨Nat.le_of_not_lt old, last⟩
          simp [old, covers, last]
        · have beyond : ¬Stretch.Covers index (⟨label, finish, length⟩ : Stretch Label) :=
            fun covers => last covers.2
          simp [old, beyond, last]

end Consecutive

end Stretches
