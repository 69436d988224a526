import IpcBench.Words
import IpcBench.Sorting
import IpcBench.Significand
import Mathlib.Data.Rat.Cast.Order
import Mathlib.Tactic.FieldSimp

/-!
What `analyze_array` reports of the latencies of a client: their minimum, their maximum and
their median. `size` is the `args->count` of the caller.
-/

namespace IpcBench

open Words Sorting Significand

instance linearOrderUInt64 : LinearOrder UInt64 where
  le_refl _ := UInt64.le_refl _
  le_trans _ _ _ := UInt64.le_trans
  le_antisymm _ _ := UInt64.le_antisymm
  le_total _ _ := UInt64.le_total _ _
  lt_iff_le_not_ge _ _ := by
    rw [UInt64.not_le]
    exact ⟨fun less => ⟨UInt64.le_of_lt less, less⟩, fun both => both.2⟩
  toDecidableLE := inferInstance
  toDecidableLT := inferInstance
  toDecidableEq := inferInstance

/-- `compareULLongs`: the difference of the two, as an int. -/
def compareULLongs (first second : UInt64) : Int :=
  intT (first - second).toNat

def extremes : UInt64 → UInt64 → List UInt64 → UInt64 × UInt64
  | minimum, maximum, [] => (minimum, maximum)
  | minimum, maximum, item :: rest =>
      if item < minimum then extremes item maximum rest
      else if maximum < item then extremes minimum item rest
      else extremes minimum maximum rest

def toDouble (value : UInt64) : ℚ :=
  (round 53 value.toNat : Nat)

structure Analysis where
  array : List UInt64
  median : ℚ
  minimum : UInt64
  maximum : UInt64
deriving DecidableEq, Repr

def medianOf (size : Nat) (sorted : List UInt64) : ℚ :=
  if size % 2 = 0 then toDouble (sorted.getD (size / 2 - 1) 0 + sorted.getD (size / 2) 0) / 2
  else toDouble (sorted.getD (size / 2) 0)

def analyzeArray (qsort : (UInt64 → UInt64 → Int) → List UInt64 → List UInt64)
    (array : List UInt64) : Analysis :=
  let bounds := extremes (array.getD 0 0) (array.getD 0 0) (array.drop 1)
  let sorted := qsort compareULLongs array
  { array := sorted
    median := medianOf array.length sorted
    minimum := bounds.1
    maximum := bounds.2 }

structure OrderStatistics (array : List UInt64) (analysis : Analysis) : Prop where
  tells : ∀ first ∈ array, ∀ second ∈ array, Tells compareULLongs first second
  permuted : analysis.array.Perm array
  ascending : analysis.array.Pairwise (· ≤ ·)
  minimum : analysis.minimum ∈ array ∧ ∀ item ∈ array, analysis.minimum ≤ item
  maximum : analysis.maximum ∈ array ∧ ∀ item ∈ array, item ≤ analysis.maximum
  odd : array.length % 2 = 1 →
    analysis.median = (analysis.array.getD (array.length / 2) 0).toNat
  even : array.length % 2 = 0 →
    analysis.median = (((analysis.array.getD (array.length / 2 - 1) 0).toNat +
      (analysis.array.getD (array.length / 2) 0).toNat : Nat) : ℚ) / 2

/-- The int keeps the sign of the difference: what is left of it in 32 bits is neither zero nor
a negative number. -/
def SignKept (first second : UInt64) : Prop :=
  (second < first → 0 < (first.toNat - second.toNat) % 4294967296 ∧
      (first.toNat - second.toNat) % 4294967296 < 2147483648) ∧
    (first < second → 0 < (second.toNat - first.toNat) % 4294967296 ∧
      (second.toNat - first.toNat) % 4294967296 ≤ 2147483648)

instance {first second : UInt64} : Decidable (SignKept first second) :=
  inferInstanceAs (Decidable (_ ∧ _))

/-- A `double` holds the element in the middle, or the two in the middle have a sum that an
`unsigned long long` and a `double` hold. -/
def MedianFits (array : List UInt64) : Prop :=
  let ascending := array.insertionSort (· ≤ ·)
  let upper := (ascending.getD (array.length / 2) 0).toNat
  let lower := (ascending.getD (array.length / 2 - 1) 0).toNat
  if array.length % 2 = 0 then lower + upper < 18446744073709551616 ∧ Exact 53 (lower + upper)
  else Exact 53 upper

theorem toNat_sub_of_lt {first second : UInt64} (below : first < second) :
    (first - second).toNat = 18446744073709551616 - (second.toNat - first.toNat) := by
  have less := UInt64.lt_iff_toNat_lt.mp below
  have bound := second.toNat_lt
  rw [UInt64.toNat_sub]
  omega

theorem tells_iff {first second : UInt64} :
    Tells compareULLongs first second ↔ SignKept first second := by
  rcases lt_trichotomy first second with less | rfl | greater
  · have value := toNat_sub_of_lt less
    have below := UInt64.lt_iff_toNat_lt.mp less
    have bound := second.toNat_lt
    constructor
    · intro tells
      have negative := tells.less.mpr less
      refine ⟨fun other => absurd other (lt_asymm less), fun _ => ?_⟩
      simp only [compareULLongs, value, intT] at negative
      omega
    · intro kept
      have range := kept.2 less
      have negative : compareULLongs first second < 0 := by
        simp only [compareULLongs, value, intT]
        omega
      exact ⟨iff_of_true negative less,
        iff_of_false (not_lt_of_gt negative) (lt_asymm less)⟩
  · have zero : compareULLongs first first = 0 := by
      simp [compareULLongs, intT]
    constructor
    · intro _
      exact ⟨fun less => absurd less (lt_irrefl _), fun less => absurd less (lt_irrefl _)⟩
    · intro _
      exact ⟨by simp [zero], by simp [zero]⟩
  · have value := UInt64.toNat_sub_of_le first second (le_of_lt greater)
    have below := UInt64.lt_iff_toNat_lt.mp greater
    have bound := first.toNat_lt
    constructor
    · intro tells
      have positive := tells.greater.mpr greater
      refine ⟨fun _ => ?_, fun other => absurd other (lt_asymm greater)⟩
      simp only [compareULLongs, value, intT] at positive
      omega
    · intro kept
      have range := kept.1 greater
      have positive : 0 < compareULLongs first second := by
        simp only [compareULLongs, value, intT]
        omega
      exact ⟨iff_of_false (not_lt_of_gt positive) (lt_asymm greater),
        iff_of_true positive greater⟩

/-! The minimum and the maximum. -/

structure Bounds (seen : List UInt64) (minimum maximum : UInt64) : Prop where
  minimum : minimum ∈ seen ∧ ∀ item ∈ seen, minimum ≤ item
  maximum : maximum ∈ seen ∧ ∀ item ∈ seen, item ≤ maximum

section Bounds

variable {seen items : List UInt64} {minimum maximum item : UInt64}

theorem Bounds.single : Bounds [item] item item where
  minimum := by simp
  maximum := by simp

theorem extremum_keep {order : UInt64 → UInt64 → Prop} {extremum : UInt64}
    (holds : extremum ∈ seen ∧ ∀ other ∈ seen, order extremum other) (next : order extremum item) :
    extremum ∈ seen ++ [item] ∧ ∀ other ∈ seen ++ [item], order extremum other := by
  refine ⟨List.mem_append_left _ holds.1, fun other member => ?_⟩
  rcases List.mem_append.mp member with old | new
  · exact holds.2 other old
  · rwa [List.mem_singleton.mp new]

theorem extremum_take {order : UInt64 → UInt64 → Prop} (self : order item item)
    (beyond : ∀ other ∈ seen, order item other) :
    item ∈ seen ++ [item] ∧ ∀ other ∈ seen ++ [item], order item other := by
  refine ⟨List.mem_append_right _ (List.mem_singleton_self _), fun other member => ?_⟩
  rcases List.mem_append.mp member with old | new
  · exact beyond other old
  · rwa [List.mem_singleton.mp new]

theorem Bounds.inOrder (bounds : Bounds seen minimum maximum) : minimum ≤ maximum :=
  bounds.minimum.2 _ bounds.maximum.1

theorem Bounds.lower (bounds : Bounds seen minimum maximum) (less : item < minimum) :
    Bounds (seen ++ [item]) item maximum where
  minimum := extremum_take (le_refl _) fun other old =>
    le_of_lt (lt_of_lt_of_le less (bounds.minimum.2 other old))
  maximum := by
    apply extremum_keep bounds.maximum
    exact le_of_lt (lt_of_lt_of_le less bounds.inOrder)

theorem Bounds.raise (bounds : Bounds seen minimum maximum) (above : minimum ≤ item)
    (greater : maximum < item) : Bounds (seen ++ [item]) minimum item where
  minimum := extremum_keep bounds.minimum above
  maximum := by
    apply extremum_take
    · exact le_refl item
    · intro other old
      exact le_of_lt (lt_of_le_of_lt (bounds.maximum.2 other old) greater)

theorem Bounds.keep (bounds : Bounds seen minimum maximum) (above : minimum ≤ item)
    (below : item ≤ maximum) : Bounds (seen ++ [item]) minimum maximum where
  minimum := extremum_keep bounds.minimum above
  maximum := by
    apply extremum_keep bounds.maximum
    exact below

theorem Bounds.extremes (bounds : Bounds seen minimum maximum) :
    Bounds (seen ++ items) (extremes minimum maximum items).1
      (extremes minimum maximum items).2 := by
  induction items generalizing seen minimum maximum with
  | nil => simpa [IpcBench.extremes] using bounds
  | cons item rest ih =>
      rw [List.append_cons]
      simp only [IpcBench.extremes]
      by_cases less : item < minimum
      · rw [if_pos less]
        exact ih (bounds.lower less)
      · rw [if_neg less]
        by_cases greater : maximum < item
        · rw [if_pos greater]
          exact ih (bounds.raise (not_lt.mp less) greater)
        · rw [if_neg greater]
          exact ih (bounds.keep (not_lt.mp less) (not_lt.mp greater))

end Bounds

theorem analyzeArray_bounds {qsort : (UInt64 → UInt64 → Int) → List UInt64 → List UInt64}
    {array : List UInt64} (nonempty : array ≠ []) :
    Bounds array (analyzeArray qsort array).minimum (analyzeArray qsort array).maximum := by
  obtain ⟨first, rest, rfl⟩ := List.exists_cons_of_ne_nil nonempty
  have started : Bounds [first] first first := Bounds.single
  have bounds : Bounds (first :: rest) _ _ := started.extremes
  exact bounds

/-! The median. -/

theorem toDouble_eq_iff {value : UInt64} : toDouble value = value.toNat ↔ Exact 53 value.toNat := by
  rw [toDouble, Nat.cast_inj, round_eq_iff]

theorem half_eq_iff {lower upper : UInt64} :
    toDouble (lower + upper) / 2 = ((lower.toNat + upper.toNat : Nat) : ℚ) / 2 ↔
      lower.toNat + upper.toNat < 18446744073709551616 ∧ Exact 53 (lower.toNat + upper.toNat) := by
  have halves (left right : ℚ) : left / 2 = right / 2 ↔ left = right :=
    div_left_inj' (by norm_num)
  have sum := UInt64.toNat_add lower upper
  rw [halves, toDouble, Nat.cast_inj]
  by_cases fits : lower.toNat + upper.toNat < 18446744073709551616
  · have same : (lower + upper).toNat = lower.toNat + upper.toNat := by omega
    rw [same, round_eq_iff]
    exact ⟨fun exact => ⟨fits, exact⟩, fun both => both.2⟩
  · refine iff_of_false ?_ (fun both => fits both.1)
    have doubled : round 53 (lower + upper).toNat ≤ 2 * (lower + upper).toNat :=
      round_le (by decide)
    have left := lower.toNat_lt
    have right := upper.toNat_lt
    omega

section Analyze

variable {qsort : (UInt64 → UInt64 → Int) → List UInt64 → List UInt64} {array : List UInt64}

theorem median_of_odd (odd : array.length % 2 = 1) : (analyzeArray qsort array).median =
    toDouble ((qsort compareULLongs array).getD (array.length / 2) 0) :=
  if_neg (by omega)

theorem median_of_even (even : array.length % 2 = 0) : (analyzeArray qsort array).median =
    toDouble ((qsort compareULLongs array).getD (array.length / 2 - 1) 0 +
      (qsort compareULLongs array).getD (array.length / 2) 0) / 2 :=
  if_pos even

theorem OrderStatistics.medianFits (statistics : OrderStatistics array (analyzeArray qsort array)) :
    MedianFits array := by
  have sorted : qsort compareULLongs array = array.insertionSort (· ≤ ·) :=
    ascending_unique statistics.permuted statistics.ascending
  have odd := statistics.odd
  have even := statistics.even
  unfold MedianFits
  simp only
  split
  · rename_i isEven
    have median := even isEven
    rw [median_of_even isEven] at median
    rw [← sorted]
    exact half_eq_iff.mp median
  · rename_i isOdd
    have median := odd (by omega)
    rw [median_of_odd (by omega)] at median
    rw [← sorted]
    exact toDouble_eq_iff.mp median

theorem orderStatistics_of (sorts : Sorts qsort) (nonempty : array ≠ [])
    (kept : ∀ first ∈ array, ∀ second ∈ array, SignKept first second) (fits : MedianFits array) :
    OrderStatistics array (analyzeArray qsort array) := by
  have tells : ∀ first ∈ array, ∀ second ∈ array, Tells compareULLongs first second :=
    fun first inside second insideToo => tells_iff.mpr (kept first inside second insideToo)
  have sorted := sorts.eq_insertionSort tells
  have bounds : Bounds array (analyzeArray qsort array).minimum
      (analyzeArray qsort array).maximum := analyzeArray_bounds nonempty
  refine ⟨tells, ?_, ?_, bounds.minimum, bounds.maximum, ?_, ?_⟩
  · change (qsort compareULLongs array).Perm array
    rw [sorted]
    exact List.perm_insertionSort _ _
  · change (qsort compareULLongs array).Pairwise (· ≤ ·)
    rw [sorted]
    exact List.pairwise_insertionSort _ _
  · intro isOdd
    rw [median_of_odd isOdd]
    refine toDouble_eq_iff.mpr ?_
    rw [sorted]
    simpa [MedianFits, isOdd] using fits
  · intro isEven
    rw [median_of_even isEven]
    refine half_eq_iff.mpr ?_
    rw [sorted]
    simpa [MedianFits, isEven] using fits

end Analyze

/-- With a sort that honours a consistent comparator: the comparator is right about a pair just
when the int keeps the sign of the difference, and the report is right about an array just
when it is about all pairs and no conversion changes the median. -/
theorem analyze_array_iff {qsort : (UInt64 → UInt64 → Int) → List UInt64 → List UInt64}
    (sorts : Sorts qsort) :
    (∀ first second, Tells compareULLongs first second ↔ SignKept first second) ∧
    ∀ array, array ≠ [] → (OrderStatistics array (analyzeArray qsort array) ↔
      (∀ first ∈ array, ∀ second ∈ array, SignKept first second) ∧ MedianFits array) := by
  refine ⟨fun _ _ => tells_iff, fun array nonempty => ⟨?_, ?_⟩⟩
  · intro statistics
    exact ⟨fun first inside second insideToo =>
      tells_iff.mp (statistics.tells first inside second insideToo), statistics.medianFits⟩
  · rintro ⟨kept, fits⟩
    exact orderStatistics_of sorts nonempty kept fits

theorem analyze_array_iff_three :
    OrderStatistics [3, 1, 2] (analyzeArray insertion [3, 1, 2]) ∧
      analyzeArray insertion [3, 1, 2] = ⟨[1, 2, 3], 2, 1, 3⟩ := by
  refine ⟨((analyze_array_iff insertion_sorts).2 [3, 1, 2] (by decide)).mpr ⟨?_, ?_⟩, by decide⟩
  · have kept : ([3, 1, 2] : List UInt64).all (fun first =>
        ([3, 1, 2] : List UInt64).all fun second => decide (SignKept first second)) = true := by
      decide
    simpa only [List.all_eq_true, decide_eq_true_eq] using kept
  · exact ⟨2, 0, by decide, by decide⟩

/-- The comparator takes the difference 2147483649 for a negative number. -/
theorem analyze_array_descends :
    ¬∀ qsort, Sorts qsort → ∀ array, array ≠ [] →
      OrderStatistics array (analyzeArray qsort array) := by
  intro promise
  have ascending := (promise insertion insertion_sorts [0, 2147483649] (by decide)).ascending
  revert ascending
  decide

end IpcBench
