import Mathlib.Data.List.Sort

/-!
Sorting with a comparator of the caller: what it owes to the sort, what the sort
owes in return, and a comparator that tells the items of a list apart as their order does.
-/

namespace Sorting

variable {Item : Type}

/-- The comparator is a total preorder on the items of a list. -/
structure ConsistentOn (compare : Item → Item → Int) (items : List Item) : Prop where
  opposite : ∀ first ∈ items, ∀ second ∈ items,
    compare first second < 0 ↔ 0 < compare second first
  transitive : ∀ first ∈ items, ∀ second ∈ items, ∀ third ∈ items,
    compare first second ≤ 0 → compare second third ≤ 0 → compare first third ≤ 0

/-- A sort that keeps its promise wherever the comparator keeps its own. -/
def Sorts (sort : (Item → Item → Int) → List Item → List Item) : Prop :=
  ∀ compare items, ConsistentOn compare items →
    (sort compare items).Perm items ∧
      (sort compare items).Pairwise fun first second => compare first second ≤ 0

/-! A sort of this kind, by insertion. -/

def insertion (compare : Item → Item → Int) (items : List Item) : List Item :=
  (items.attach.insertionSort fun first second => compare first.val second.val ≤ 0).map Subtype.val

theorem insertion_sorts : Sorts (@insertion Item) := by
  intro compare items consistent
  let ordered : {item // item ∈ items} → {item // item ∈ items} → Prop :=
    fun first second => compare first.val second.val ≤ 0
  have total : Std.Total ordered := by
    refine ⟨fun first second => ?_⟩
    have opposite := consistent.opposite second.val second.property first.val first.property
    change compare _ _ ≤ 0 ∨ compare _ _ ≤ 0
    omega
  have transitive : IsTrans _ ordered :=
    ⟨fun first second third => consistent.transitive first.val first.property second.val
      second.property third.val third.property⟩
  refine ⟨?_, List.pairwise_map.mpr (List.pairwise_insertionSort ordered items.attach)⟩
  have same := (List.perm_insertionSort ordered items.attach).map Subtype.val
  rwa [List.attach_map_subtype_val] at same

section Linear

variable [LinearOrder Item] {compare : Item → Item → Int} {items : List Item}
  {sort : (Item → Item → Int) → List Item → List Item}

structure Tells (compare : Item → Item → Int) (first second : Item) : Prop where
  less : compare first second < 0 ↔ first < second
  greater : 0 < compare first second ↔ second < first

theorem Tells.nonpos {first second : Item} (tells : Tells compare first second) :
    compare first second ≤ 0 ↔ first ≤ second := by
  rw [← not_lt, ← not_lt, tells.greater]

theorem consistentOn_of_tells
    (tells : ∀ first ∈ items, ∀ second ∈ items, Tells compare first second) :
    ConsistentOn compare items where
  opposite first inside second insideToo := by
    rw [(tells first inside second insideToo).less, (tells second insideToo first inside).greater]
  transitive first inside second insideToo third insideThree := by
    rw [(tells first inside second insideToo).nonpos,
      (tells second insideToo third insideThree).nonpos,
      (tells first inside third insideThree).nonpos]
    exact le_trans

theorem ascending_unique {sorted : List Item} (same : sorted.Perm items)
    (ascending : sorted.Pairwise (· ≤ ·)) : sorted = items.insertionSort (· ≤ ·) :=
  (same.trans (List.perm_insertionSort _ _).symm).eq_of_pairwise' ascending
    (List.pairwise_insertionSort _ _)

theorem Sorts.eq_insertionSort (sorts : Sorts sort)
    (tells : ∀ first ∈ items, ∀ second ∈ items, Tells compare first second) :
    sort compare items = items.insertionSort (· ≤ ·) := by
  obtain ⟨same, sorted⟩ := sorts compare items (consistentOn_of_tells tells)
  have ascending : (sort compare items).Pairwise (· ≤ ·) := by
    refine sorted.imp_of_mem ?_
    intro first second inside insideToo below
    exact (tells first (same.mem_iff.mp inside) second (same.mem_iff.mp insideToo)).nonpos.mp below
  exact ascending_unique same ascending

end Linear

end Sorting
