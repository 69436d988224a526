import Mathlib.Algebra.BigOperators.Intervals
import Mathlib.Algebra.Order.BigOperators.Group.Finset
import Mathlib.Order.Interval.Finset.Nat

/-!
Visitors who come and go. The lengths of their stays add up to the numbers of those who are
there, summed up over time, so that a bound on these is a bound on the stays.
-/

namespace Stays

open Finset

variable {Visitor : Type} (visitors : Finset Visitor) (enter leave : Visitor → Nat)

def present (time : Nat) : Finset Visitor :=
  visitors.filter fun visitor => enter visitor ≤ time ∧ time < leave visitor

variable {visitors enter leave} {first last most : Nat}

theorem mem_present {visitor : Visitor} {time : Nat} :
    visitor ∈ present visitors enter leave time ↔
      visitor ∈ visitors ∧ enter visitor ≤ time ∧ time < leave visitor :=
  mem_filter

theorem stay_eq {enter leave : Nat} (later : first ≤ enter) (before : leave ≤ last) :
    leave - enter = ∑ time ∈ Ico first last, if enter ≤ time ∧ time < leave then 1 else 0 := by
  have moments : (Ico first last).filter (fun time => enter ≤ time ∧ time < leave) =
      Ico enter leave := by
    ext time
    simp only [mem_filter, mem_Ico]
    omega
  rw [← card_filter, moments, Nat.card_Ico]

theorem sum_stays (inside : ∀ visitor ∈ visitors, first ≤ enter visitor ∧ leave visitor ≤ last) :
    ∑ visitor ∈ visitors, (leave visitor - enter visitor) =
      ∑ time ∈ Ico first last, (present visitors enter leave time).card := by
  calc ∑ visitor ∈ visitors, (leave visitor - enter visitor)
      = ∑ visitor ∈ visitors, ∑ time ∈ Ico first last,
          if enter visitor ≤ time ∧ time < leave visitor then 1 else 0 :=
        sum_congr rfl fun visitor member => stay_eq (inside visitor member).1 (inside visitor member).2
    _ = ∑ time ∈ Ico first last, ∑ visitor ∈ visitors,
          if enter visitor ≤ time ∧ time < leave visitor then 1 else 0 := sum_comm
    _ = ∑ time ∈ Ico first last, (present visitors enter leave time).card :=
        sum_congr rfl fun time _ => (card_filter _ _).symm

/-- Where there are never more than so many, the stays are bounded by their number and the
time in which they take place. -/
theorem sum_stays_le (inside : ∀ visitor ∈ visitors, first ≤ enter visitor ∧ leave visitor ≤ last)
    (few : ∀ time, (present visitors enter leave time).card ≤ most) :
    ∑ visitor ∈ visitors, (leave visitor - enter visitor) ≤ most * (last - first) := by
  rw [sum_stays inside]
  have bound := sum_le_card_nsmul (Ico first last)
    (fun time => (present visitors enter leave time).card) most fun time _ => few time
  rwa [Nat.card_Ico, Nat.nsmul_eq_mul, Nat.mul_comm] at bound

end Stays
