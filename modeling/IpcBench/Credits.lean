import IpcBench.Duo
import Mathlib.Algebra.GroupWithZero.Nat

/-!
Units that go round within a window: they are asked for, heard, answered and taken back, and no
more may be under way than the window holds. Seen in whole windows the four take turns.
-/

namespace Credits

open Transition

structure Credit (window : Nat) where
  asked : Nat
  heard : Nat
  answered : Nat
  taken : Nat
  heard_le : heard ≤ asked
  answered_le : answered ≤ heard
  taken_le : taken ≤ answered
  within : asked ≤ taken + window

inductive Station
  | ask
  | hear
  | answer
  | take
deriving DecidableEq, Repr

namespace Credit

variable {window : Nat}

def initial (window : Nat) : Credit window where
  asked := 0
  heard := 0
  answered := 0
  taken := 0
  heard_le := Nat.le_refl 0
  answered_le := Nat.le_refl 0
  taken_le := Nat.le_refl 0
  within := Nat.zero_le _

def passed (credit : Credit window) : Station → Nat
  | .ask => credit.asked
  | .hear => credit.heard
  | .answer => credit.answered
  | .take => credit.taken

def step (credit : Credit window) : Station × Nat → Option (Credit window)
  | (.ask, amount) =>
      if within : credit.asked + amount ≤ credit.taken + window then
        some { credit with
          asked := credit.asked + amount
          heard_le := Nat.le_trans credit.heard_le (Nat.le_add_right _ _)
          within := within }
      else none
  | (.hear, amount) =>
      if there : credit.heard + amount ≤ credit.asked then
        some { credit with
          heard := credit.heard + amount
          heard_le := there
          answered_le := Nat.le_trans credit.answered_le (Nat.le_add_right _ _) }
      else none
  | (.answer, amount) =>
      if there : credit.answered + amount ≤ credit.heard then
        some { credit with
          answered := credit.answered + amount
          answered_le := there
          taken_le := Nat.le_trans credit.taken_le (Nat.le_add_right _ _) }
      else none
  | (.take, amount) =>
      if there : credit.taken + amount ≤ credit.answered then
        some { credit with
          taken := credit.taken + amount
          taken_le := there
          within := by have := credit.within; omega }
      else none

def machine (window : Nat) : Machine (Credit window) (Station × Nat) where
  step := step

def windows (credit : Credit window) (station : Station) : Nat :=
  credit.passed station / window

def completes (credit : Credit window) (move : Station × Nat) : List (Station × Nat) :=
  (List.range' (credit.windows move.1)
    ((credit.passed move.1 + move.2) / window - credit.windows move.1)).map fun round =>
      (move.1, round)

def completed (trace : List (Credit window × (Station × Nat))) : List (Station × Nat) :=
  trace.flatMap fun entry => entry.1.completes entry.2

end Credit

def windowMove : Nat → Station
  | 0 => .ask
  | 1 => .hear
  | 2 => .answer
  | _ => .take

def windowScript : Nat → Station × Nat :=
  rounds 4 windowMove

namespace Credit

variable {window : Nat} {credit next : Credit window} {station : Station} {amount : Nat}

theorem step_passed (taken : credit.step (station, amount) = some next) (other : Station) :
    next.passed other = credit.passed other + if other = station then amount else 0 := by
  cases station with
  | ask | hear | answer | take =>
      simp only [step] at taken
      split at taken <;> cases taken
      cases other <;> rfl

/-- The stations are passed in their order, and the first is at most a window ahead. -/
theorem windows_ordered (credit : Credit window) (positive : 0 < window) :
    credit.windows .hear ≤ credit.windows .ask ∧
    credit.windows .answer ≤ credit.windows .hear ∧
    credit.windows .take ≤ credit.windows .answer ∧
    credit.windows .ask ≤ credit.windows .take + 1 := by
  refine ⟨Nat.div_le_div_right credit.heard_le, Nat.div_le_div_right credit.answered_le,
    Nat.div_le_div_right credit.taken_le, ?_⟩
  have ahead : credit.asked / window ≤ (credit.taken + window) / window :=
    Nat.div_le_div_right credit.within
  rwa [Nat.add_div_right _ positive] at ahead

def turns (credit : Credit window) : Nat :=
  credit.windows .ask + credit.windows .hear + credit.windows .answer + credit.windows .take

theorem completes_eq (taken : credit.step (station, amount) = some next) :
    credit.completes (station, amount) =
      (List.range' (credit.windows station) (next.windows station - credit.windows station)).map
        fun round => (station, round) := by
  have passed := step_passed taken station
  rw [if_pos rfl] at passed
  unfold completes windows
  rw [passed]

theorem windows_other (taken : credit.step (station, amount) = some next) {other : Station}
    (different : other ≠ station) : next.windows other = credit.windows other := by
  have passed := step_passed taken other
  rw [if_neg different, Nat.add_zero] at passed
  rw [windows, passed, windows]

theorem windows_own (taken : credit.step (station, amount) = some next) :
    credit.windows station ≤ next.windows station := by
  have passed := step_passed taken station
  unfold windows
  rw [passed]
  exact Nat.div_le_div_right (Nat.le_add_right _ _)

theorem windowScript_eq (round position : Nat) (inside : position < 4) :
    windowScript (4 * round + position) = (windowMove position, round) :=
  rounds_eq windowMove round inside

theorem step_continues (positive : 0 < window)
    (taken : credit.step (station, amount) = some next) :
    Continues windowScript credit.turns (credit.completes (station, amount)) ∧
      next.turns = credit.turns + (credit.completes (station, amount)).length := by
  have before := credit.windows_ordered positive
  have after := next.windows_ordered positive
  have grows := windows_own taken
  have same := @windows_other _ _ _ _ _ taken
  rw [completes_eq taken]
  have most : ∀ position, position < 4 → windowMove position = station →
      (next.windows station = credit.windows station + 1 →
        credit.turns = 4 * credit.windows station + position) →
      next.windows station ≤ credit.windows station + 1 →
      next.turns = credit.turns + (next.windows station - credit.windows station) →
      Continues windowScript credit.turns ((List.range' (credit.windows station)
          (next.windows station - credit.windows station)).map fun round => (station, round)) ∧
        next.turns = credit.turns + ((List.range' (credit.windows station)
          (next.windows station - credit.windows station)).map
            fun round => (station, round)).length := by
    intro position inside own turn one counted
    rw [List.length_map, List.length_range']
    refine ⟨?_, counted⟩
    rcases Nat.lt_or_ge (credit.windows station) (next.windows station) with more | none
    · have exactly : next.windows station = credit.windows station + 1 := by omega
      have script := windowScript_eq (credit.windows station) position inside
      rw [exactly, Nat.add_sub_cancel_left, turn exactly]
      rw [own] at script
      exact continues_one script.symm
    · have nothing : next.windows station - credit.windows station = 0 := by omega
      rw [nothing]
      exact continues_nil
  cases station with
  | ask =>
      have heard := same (show Station.hear ≠ .ask by simp)
      have answered := same (show Station.answer ≠ .ask by simp)
      have took := same (show Station.take ≠ .ask by simp)
      refine most 0 (by omega) rfl ?_ (by omega) ?_
      · simp only [turns]
        omega
      · simp only [turns]
        omega
  | hear =>
      have asked := same (show Station.ask ≠ .hear by simp)
      have answered := same (show Station.answer ≠ .hear by simp)
      have took := same (show Station.take ≠ .hear by simp)
      refine most 1 (by omega) rfl ?_ (by omega) ?_
      · simp only [turns]
        omega
      · simp only [turns]
        omega
  | answer =>
      have asked := same (show Station.ask ≠ .answer by simp)
      have heard := same (show Station.hear ≠ .answer by simp)
      have took := same (show Station.take ≠ .answer by simp)
      refine most 2 (by omega) rfl ?_ (by omega) ?_
      · simp only [turns]
        omega
      · simp only [turns]
        omega
  | take =>
      have asked := same (show Station.ask ≠ .take by simp)
      have heard := same (show Station.hear ≠ .take by simp)
      have answered := same (show Station.answer ≠ .take by simp)
      refine most 3 (by omega) rfl ?_ (by omega) ?_
      · simp only [turns]
        omega
      · simp only [turns]
        omega

/-- In every run the windows are completed in turn: each is asked for, heard, answered and taken
back, and the next only after that. -/
theorem completed_follows {trace : List (Credit window × (Station × Nat))} (positive : 0 < window)
    (run : Run (machine window) (initial window) trace credit) :
    Follows windowScript (completed trace) ∧ credit.turns = (completed trace).length := by
  induction run with
  | start =>
      refine ⟨follows_nil, ?_⟩
      simp [turns, windows, passed, initial, completed]
  | step before taken ih =>
      rename_i trace credit move next
      obtain ⟨follows, counted⟩ := ih
      obtain ⟨continues, grown⟩ := step_continues positive taken
      have more : completed (trace ++ [(credit, move)]) =
          completed trace ++ credit.completes move := by
        simp [completed]
      rw [more, List.length_append, ← counted]
      rw [counted] at continues
      exact ⟨follows.append continues, grown⟩

end Credit

end Credits
