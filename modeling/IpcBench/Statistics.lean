import IpcBench.Grouping
import IpcBench.ParseOutput
import Mathlib.Algebra.Order.BigOperators.Group.List

/-!
`getInfo`, which groups the results of all runs by size and rate and averages them.
-/

namespace IpcBench

open Regex Numerals Grouping

inductive Ipc
  | fifo
  | socket
  | tcp
  | sharedMem
  | realmPrime
deriving DecidableEq, Repr

def ipcs : List Ipc := [.realmPrime]

def rateSizeMap : Ipc → Option (List (Nat × List Nat))
  | .fifo => none
  | .socket => none
  | .tcp => some [(1, []), (128, []), (1024, []), (4096, []), (8192, []), (32768, [])]
  | .sharedMem => some [
      (1, [1, 5, 15, 30, 90]),
      (128, [1, 5, 15, 90, 250]),
      (1024, [1, 2, 15, 30, 90]),
      (4096, [1, 2, 15, 30, 40, 70]),
      (8192, [1, 3, 15, 30, 50]),
      (32768, [1, 5, 10, 30, 50]),
      (65536, [1, 5, 10, 30, 50]),
      (262144, [1, 5, 10, 30, 50])]
  | .realmPrime => some [
      (128, [1, 2, 3, 4, 5, 10, 15, 30, 50, 70, 90, 110, 130, 150, 170, 190, 210, 230, 250, 300,
        350, 400, 450, 500])]

structure Files where
  pathMap : Ipc → List Char
  listdir : List Char → List (List Char)
  isfile : List Char → Bool
  read : List Char → List Char

def join (directory filename : List Char) : List Char :=
  directory ++ '/' :: filename

def infoPattern : List Token :=
  [.plus isDecimal, .literal '_', .plus isDecimal]

/-- There is no result when the script exits. -/
def getInfoFilename (filename : List Char) : Option (Nat × Nat) :=
  match search infoPattern filename with
  | some [size, _, rate] => some (natOf size, natOf rate)
  | _ => none

def keyText (info : Nat × Nat) : List Char :=
  Nat.toDigits 10 info.1 ++ '_' :: Nat.toDigits 10 info.2

def isBlockingFile (filename : List Char) : Bool :=
  "block".toList <:+: filename

def splitList (data : List (List Char)) (isTrue : List Char → Bool) :
    List (List Char) × List (List Char) :=
  (data.filter isTrue, data.filter fun item => !isTrue item)

structure Stats where
  statMap : List (List Char × List (ℚ × ℚ))
  badFiles : List (Ipc × List (List Char))

def Stats.addBad (ipc : Ipc) (key : List Char) (stats : Stats) : Stats :=
  if key ∈ lookup stats.badFiles ipc then stats
  else { stats with badFiles := push stats.badFiles ipc key }

def getStats (files : Files) (ipc : Ipc) (stats : Stats) (filename : List Char) : Option Stats :=
  match getInfoFilename filename with
  | none => none
  | some (size, rate) =>
      let result := parseOutput id (files.read filename)
      let key := keyText (size, rate)
      let added := { stats with statMap := push stats.statMap key result }
      if ipc ≠ .realmPrime then
        match rateSizeMap ipc with
        | none => none
        | some sizes =>
            match sizes.lookup size with
            | none => some stats
            | some rates =>
                if rate ∉ rates then some stats
                else if result.1 = -1 ∨ result.2 = -1 then some (stats.addBad ipc key)
                else some added
      else some added

def inOrder (left right : ℚ × ℚ) : Bool :=
  left.1 < right.1 || (left.1 = right.1 && left.2 ≤ right.2)

def getAveragePerElement (data : List (ℚ × ℚ)) : ℚ × ℚ :=
  ((data.map Prod.fst).sum / data.length, (data.map Prod.snd).sum / data.length)

def averageTuples (data : List (ℚ × ℚ)) : ℚ × ℚ :=
  getAveragePerElement (data.mergeSort inOrder)

/-- The averages by size; the size is read from the key again. -/
def fixKeys (statMap : List (List Char × List (ℚ × ℚ))) : Option (List (Nat × List (ℚ × ℚ))) :=
  statMap.foldlM (fun statMapPrime item =>
    if item.2 = [] then some statMapPrime
    else
      match getInfoFilename item.1 with
      | none => none
      | some (size, _) => some (push statMapPrime size (averageTuples item.2))) []

def paths (files : Files) (ipc : Ipc) (dataSet : List (List Char)) : List (List Char) :=
  (dataSet.map (join (files.pathMap ipc))).filter files.isfile

def collect (files : Files) (ipc : Ipc) (badFiles : List (Ipc × List (List Char)))
    (dataSet : List (List Char)) : Option Stats :=
  (paths files ipc dataSet).foldlM (getStats files ipc) ⟨[], badFiles⟩

def getInfo (files : Files) (ipc : Ipc) (badFiles : List (Ipc × List (List Char))) :
    Option (List (List (Nat × List (ℚ × ℚ))) × List (Ipc × List (List Char))) := do
  let filenames := files.listdir (files.pathMap ipc)
  let dataSets := splitList filenames isBlockingFile
  let blocking ← collect files ipc badFiles dataSets.1
  let blockingMap ← fixKeys blocking.statMap
  let nonblocking ← collect files ipc blocking.badFiles dataSets.2
  let nonblockingMap ← fixKeys nonblocking.statMap
  return ([blockingMap, nonblockingMap], nonblocking.badFiles)

/-! What the averages are to be. -/

def failedRun : ℚ × ℚ := (-1, -1)

def runsOf (files : Files) (paths : List (List Char)) : List ((Nat × Nat) × (ℚ × ℚ)) :=
  paths.filterMap fun path =>
    (getInfoFilename path).map fun info => (info, parseOutput id (files.read path))

def runs (files : Files) (ipc : Ipc) (dataSet : List (List Char)) : List ((Nat × Nat) × (ℚ × ℚ)) :=
  runsOf files (paths files ipc dataSet)

def meansOf (runs : List ((Nat × Nat) × (ℚ × ℚ))) (size : Nat) : List (ℚ × ℚ) :=
  ((firsts (runs.map Prod.fst)).filter fun info => info.1 = size).map fun info =>
    getAveragePerElement (valuesOf info runs)

def parsed (runs : List ((Nat × Nat) × (ℚ × ℚ))) : List ((Nat × Nat) × (ℚ × ℚ)) :=
  runs.filter fun run => run.2 ≠ failedRun

/-- For every size there is one entry for each rate with a run that could be parsed: the mean
of exactly these runs. -/
def Uncontaminated (files : Files) (ipc : Ipc) (badFiles : List (Ipc × List (List Char))) : Prop :=
  ∀ blocking nonblocking after,
    getInfo files ipc badFiles = some ([blocking, nonblocking], after) →
    ∀ size,
      (lookup blocking size).Perm (meansOf (parsed (runs files ipc
        (splitList (files.listdir (files.pathMap ipc)) isBlockingFile).1)) size) ∧
      (lookup nonblocking size).Perm (meansOf (parsed (runs files ipc
        (splitList (files.listdir (files.pathMap ipc)) isBlockingFile).2)) size)

/-! Keys. -/

theorem getInfoFilename_keyText (info : Nat × Nat) : getInfoFilename (keyText info) = some info := by
  have decimal : ∀ value : Nat, ∀ digit ∈ Nat.toDigits 10 value, isDecimal digit = true :=
    fun _ digit member => isDecimal_digit (toDigits_digit digit member)
  have all : (Nat.toDigits 10 info.2).takeWhile isDecimal = Nat.toDigits 10 info.2 :=
    List.takeWhile_eq_self_iff.mpr (decimal info.2)
  obtain ⟨taken, left⟩ := @takeWhile_digits isDecimal (Nat.toDigits 10 info.1) '_'
    (Nat.toDigits 10 info.2) (decimal info.1) (by decide)
  have last : matchAt [.plus isDecimal] (Nat.toDigits 10 info.2) =
      some [Nat.toDigits 10 info.2] := by
    rw [matchAt_last rfl, Token.plus_accepts, all]
    rw [Token.plus_accepts, all]
    exact Nat.length_toDigits_pos
  have found : matchAt infoPattern (keyText info) =
      some [Nat.toDigits 10 info.1, ['_'], Nat.toDigits 10 info.2] := by
    rw [infoPattern, keyText, matchAt_run rfl]
    · have enough : 1 ≤ (Nat.toDigits 10 info.1).length := Nat.length_toDigits_pos
      simp [taken, left, enough, matchAt_literal, last]
    · intro digit more accepted
      apply matchAt_refused (by decide)
      rw [Token.literal_accepts, decide_eq_false_iff_not]
      rintro rfl
      exact absurd accepted (by decide)
  rw [getInfoFilename, search_here found]
  simp [natOf_toDigits]

theorem keyText_injective : Function.Injective keyText := by
  intro info other same
  have read := getInfoFilename_keyText info
  rw [same, getInfoFilename_keyText] at read
  exact (Option.some.inj read).symm

/-! The averages of one data set. -/

theorem averageTuples_eq (data : List (ℚ × ℚ)) : averageTuples data = getAveragePerElement data := by
  have perm : (data.mergeSort inOrder).Perm data := List.mergeSort_perm data inOrder
  rw [averageTuples, getAveragePerElement, getAveragePerElement, perm.length_eq,
    (perm.map Prod.fst).sum_eq, (perm.map Prod.snd).sum_eq]

def keyed (runs : List ((Nat × Nat) × (ℚ × ℚ))) : List (List Char × (ℚ × ℚ)) :=
  runs.map fun run => (keyText run.1, run.2)

theorem groups_keyed (runs : List ((Nat × Nat) × (ℚ × ℚ))) :
    groups (keyed runs) =
      (firsts (runs.map Prod.fst)).map fun info => (keyText info, valuesOf info runs) := by
  have keys : (keyed runs).map Prod.fst = (runs.map Prod.fst).map keyText := by
    simp [keyed]
  rw [groups_eq, keys, firsts_map keyText_injective, List.map_map]
  apply List.map_congr_left
  intro info _
  simp only [Function.comp_apply, keyed, valuesOf_map keyText_injective]

theorem foldlM_some {Item Result : Type} {step : Result → Item → Option Result}
    {next : Result → Item → Result} {items : List Item}
    (steps : ∀ item ∈ items, ∀ result, step result item = some (next result item))
    (start : Result) : items.foldlM step start = some (items.foldl next start) := by
  induction items generalizing start with
  | nil => rfl
  | cons item items ih =>
      rw [List.foldlM_cons, steps item List.mem_cons_self, List.foldl_cons]
      exact ih (fun other member => steps other (List.mem_cons_of_mem _ member)) _

theorem foldlM_none {Item Result : Type} {step : Result → Item → Option Result}
    {items : List Item} {item : Item} (member : item ∈ items)
    (fails : ∀ result, step result item = none) (start : Result) :
    items.foldlM step start = none := by
  induction items generalizing start with
  | nil => cases member
  | cons first items ih =>
      rw [List.foldlM_cons]
      rcases List.mem_cons.mp member with rfl | later
      · rw [fails]
        rfl
      · cases step start first with
        | none => rfl
        | some result => exact ih later result

theorem fixKeys_eq (runs : List ((Nat × Nat) × (ℚ × ℚ))) :
    fixKeys (groups (keyed runs)) = some (groups
      ((firsts (runs.map Prod.fst)).map fun info =>
        (info.1, getAveragePerElement (valuesOf info runs)))) := by
  rw [groups_keyed, fixKeys, List.foldlM_map, groups, List.foldl_map]
  apply foldlM_some
  intro info member means
  rw [mem_firsts] at member
  obtain ⟨run, inside, rfl⟩ := List.mem_map.mp member
  have some' : valuesOf run.1 runs ≠ [] := by
    apply @List.ne_nil_of_mem _ run.2
    exact List.mem_map_of_mem (List.mem_filter.mpr ⟨inside, decide_eq_true rfl⟩)
  simp only [some', if_false, getInfoFilename_keyText, averageTuples_eq]

theorem lookup_means (runs : List ((Nat × Nat) × (ℚ × ℚ))) (size : Nat) :
    lookup (groups ((firsts (runs.map Prod.fst)).map fun info =>
        (info.1, getAveragePerElement (valuesOf info runs)))) size = meansOf runs size := by
  rw [lookup_groups, valuesOf, List.filter_map, List.map_map]
  rfl

def Named (paths : List (List Char)) : Prop :=
  ∀ path ∈ paths, getInfoFilename path ≠ none

instance (paths : List (List Char)) : Decidable (Named paths) :=
  inferInstanceAs (Decidable (∀ path ∈ paths, _))

theorem getStats_realmPrime (files : Files) (stats : Stats) {path : List Char} {info : Nat × Nat}
    (named : getInfoFilename path = some info) :
    getStats files .realmPrime stats path = some { stats with
      statMap := push stats.statMap (keyText info) (parseOutput id (files.read path)) } := by
  rw [getStats, named]
  rfl

theorem collect_realmPrime (files : Files) (badFiles : List (Ipc × List (List Char)))
    {dataSet : List (List Char)} (named : Named (paths files .realmPrime dataSet)) :
    collect files .realmPrime badFiles dataSet =
      some ⟨groups (keyed (runs files .realmPrime dataSet)), badFiles⟩ := by
  unfold collect runs
  generalize paths files .realmPrime dataSet = all at named
  induction all using List.reverseRecOn with
  | nil => rfl
  | append_singleton before path ih =>
      have earlier : Named before := fun other member => named other (List.mem_append_left _ member)
      obtain ⟨info, known⟩ := Option.ne_none_iff_exists'.mp (named path (by simp))
      have more : keyed (runsOf files (before ++ [path])) = keyed (runsOf files before) ++
          [(keyText info, parseOutput id (files.read path))] := by
        simp [runsOf, keyed, known]
      rw [List.foldlM_append, ih earlier, more]
      simp only [Option.bind_eq_bind, Option.bind_some, List.foldlM_cons, List.foldlM_nil,
        getStats_realmPrime files _ known]
      rw [groups, groups, List.foldl_append]
      rfl

theorem collect_unnamed (files : Files) (badFiles : List (Ipc × List (List Char)))
    {dataSet : List (List Char)} {path : List Char}
    (member : path ∈ paths files .realmPrime dataSet) (unnamed : getInfoFilename path = none) :
    collect files .realmPrime badFiles dataSet = none := by
  apply foldlM_none member
  intro stats
  rw [getStats, unnamed]

/-! A failed run lowers the averages of its size. -/

theorem rateQuery_digits {output rate : List Char} (found : rateQuery.find output = some rate) :
    ∀ digit ∈ rate, digit.isDigit = true := by
  obtain ⟨pieces, matched, rfl⟩ := Option.map_eq_some_iff.mp found
  obtain ⟨suffix, here⟩ := search_matches matched
  have accepted := List.forall₂_drop rateQuery.before.length (matchAt_accepts here)
  rw [List.drop_left] at accepted
  generalize pieces.drop rateQuery.before.length = group at accepted
  obtain ⟨piece, rest, digits, none, rfl⟩ := List.forall₂_cons_left_iff.mp accepted
  rw [List.forall₂_nil_left_iff.mp none, List.flatten_cons, List.flatten_nil, List.append_nil]
  exact digits

theorem parseOutput_nonneg {output : List Char} (success : parseOutput id output ≠ failedRun) :
    0 ≤ (parseOutput id output).1 := by
  unfold parseOutput at success ⊢
  split at success
  · exact absurd rfl success
  · rename_i rate found
    split at success
    · exact absurd rfl success
    · exact decimalOf_nonneg (rateQuery_digits found)

section Means

variable {runs : List ((Nat × Nat) × (ℚ × ℚ))}

theorem valuesOf_parsed (info : Nat × Nat) (runs : List ((Nat × Nat) × (ℚ × ℚ))) :
    valuesOf info (parsed runs) = (valuesOf info runs).filter fun result => result ≠ failedRun := by
  simp only [valuesOf, parsed, List.filter_map, List.filter_filter, Function.comp_def, Bool.and_comm]

theorem sum_parsed (data : List (ℚ × ℚ)) :
    (data.map Prod.fst).sum =
      ((data.filter fun result => result ≠ failedRun).map Prod.fst).sum - data.count failedRun := by
  induction data with
  | nil => simp
  | cons result data ih =>
      by_cases failed : result = failedRun
      · subst failed
        rw [List.count_cons_self, List.filter_cons_of_neg (by simp), List.map_cons, List.sum_cons, ih]
        simp only [failedRun]
        push_cast
        ring
      · rw [List.count_cons_of_ne failed, List.filter_cons_of_pos (by simpa using failed),
          List.map_cons, List.sum_cons, List.map_cons, List.sum_cons, ih]
        ring

theorem length_parsed (data : List (ℚ × ℚ)) :
    data.length = (data.filter fun result => result ≠ failedRun).length + data.count failedRun := by
  induction data with
  | nil => rfl
  | cons result data ih =>
      by_cases failed : result = failedRun
      · subst failed
        rw [List.count_cons_self, List.filter_cons_of_neg (by simp), List.length_cons, ih]
        omega
      · rw [List.count_cons_of_ne failed, List.filter_cons_of_pos (by simpa using failed),
          List.length_cons, List.length_cons, ih]
        omega

theorem average_parsed {data : List (ℚ × ℚ)}
    (rates : ∀ result ∈ data, result ≠ failedRun → 0 ≤ result.1)
    (some' : data.filter (fun result => result ≠ failedRun) ≠ []) :
    (getAveragePerElement data).1 ≤
        (getAveragePerElement (data.filter fun result => result ≠ failedRun)).1 ∧
      (failedRun ∈ data → (getAveragePerElement data).1 <
        (getAveragePerElement (data.filter fun result => result ≠ failedRun)).1) := by
  have sums := sum_parsed data
  have lengths := length_parsed data
  have good : 0 < (data.filter fun result => result ≠ failedRun).length :=
    List.length_pos_iff.mpr some'
  have total : 0 ≤ ((data.filter fun result => result ≠ failedRun).map Prod.fst).sum := by
    apply List.sum_nonneg
    intro rate member
    obtain ⟨result, inside, rfl⟩ := List.mem_map.mp member
    obtain ⟨old, success⟩ := List.mem_filter.mp inside
    exact rates result old (by simpa using success)
  have failures : failedRun ∈ data → 0 < data.count failedRun := List.count_pos_iff.mpr
  simp only [getAveragePerElement]
  rw [sums, lengths]
  generalize ((data.filter fun result => result ≠ failedRun).map Prod.fst).sum = sum at total ⊢
  generalize (data.filter fun result => result ≠ failedRun).length = count at good ⊢
  generalize data.count failedRun = failed at failures ⊢
  have countPos : (0 : ℚ) < count := by exact_mod_cast good
  have failedNonneg : (0 : ℚ) ≤ failed := Nat.cast_nonneg failed
  push_cast
  constructor
  · rw [div_le_div_iff₀ (by linarith) countPos]
    nlinarith [mul_nonneg total failedNonneg, mul_nonneg failedNonneg countPos.le]
  · intro member
    have failedPos : (0 : ℚ) < failed := by exact_mod_cast failures member
    rw [div_lt_div_iff₀ (by linarith) countPos]
    nlinarith [mul_nonneg total failedNonneg, mul_pos failedPos countPos]

theorem mem_infos {size : Nat} {info : Nat × Nat} :
    info ∈ (firsts (runs.map Prod.fst)).filter (fun info => info.1 = size) ↔
      (∃ run ∈ runs, run.1 = info) ∧ info.1 = size := by
  simp [List.mem_filter, mem_firsts]

theorem group_average (rates : ∀ run ∈ runs, run.2 ≠ failedRun → 0 ≤ run.2.1) {info : Nat × Nat}
    (some' : ∃ run ∈ parsed runs, run.1 = info) :
    (getAveragePerElement (valuesOf info runs)).1 ≤
        (getAveragePerElement (valuesOf info (parsed runs))).1 ∧
      (failedRun ∈ valuesOf info runs → (getAveragePerElement (valuesOf info runs)).1 <
        (getAveragePerElement (valuesOf info (parsed runs))).1) := by
  rw [valuesOf_parsed]
  apply average_parsed
  · intro result member success
    obtain ⟨run, inside, rfl⟩ := List.mem_map.mp member
    exact rates run (List.mem_filter.mp inside).1 success
  · rw [← valuesOf_parsed]
    obtain ⟨run, inside, rfl⟩ := some'
    apply @List.ne_nil_of_mem _ run.2
    exact List.mem_map_of_mem (List.mem_filter.mpr ⟨inside, decide_eq_true rfl⟩)

/-- With a failed run a size has an entry too many, or the rates of its entries add up to
less. -/
theorem meansOf_contaminated (rates : ∀ run ∈ runs, run.2 ≠ failedRun → 0 ≤ run.2.1)
    {run : (Nat × Nat) × (ℚ × ℚ)} (member : run ∈ runs) (failed : run.2 = failedRun) :
    ¬(meansOf runs run.1.1).Perm (meansOf (parsed runs) run.1.1) := by
  intro perm
  have lengths := perm.length_eq
  have sums := (perm.map Prod.fst).sum_eq
  simp only [meansOf, List.length_map, List.map_map] at lengths sums
  generalize inAll : (firsts (runs.map Prod.fst)).filter (fun info => info.1 = run.1.1) = all
    at lengths sums
  generalize inGood : (firsts ((parsed runs).map Prod.fst)).filter (fun info => info.1 = run.1.1) =
    good at lengths sums
  have subset : good ⊆ all := by
    intro info inside
    rw [← inGood, mem_infos] at inside
    obtain ⟨⟨other, old, same⟩, size⟩ := inside
    rw [← inAll, mem_infos]
    exact ⟨⟨other, (List.mem_filter.mp old).1, same⟩, size⟩
  have goodNodup : good.Nodup := by
    rw [← inGood]
    exact (firsts_nodup _).filter _
  have infos : good.Perm all :=
    (goodNodup.subperm subset).perm_of_length_le (Nat.le_of_eq lengths)
  rw [(infos.map _).sum_eq] at sums
  have present : ∀ info ∈ all, ∃ run ∈ parsed runs, run.1 = info := by
    intro info inside
    rw [← infos.mem_iff, ← inGood, mem_infos] at inside
    exact inside.1
  have here : run.1 ∈ all := by
    rw [← inAll, mem_infos]
    exact ⟨⟨run, member, rfl⟩, rfl⟩
  have among : failedRun ∈ valuesOf run.1 runs := by
    rw [← failed]
    exact List.mem_map_of_mem (List.mem_filter.mpr ⟨member, decide_eq_true rfl⟩)
  apply ne_of_lt _ sums
  apply List.sum_lt_sum
  · intro info inside
    exact (group_average rates (present info inside)).1
  · exact ⟨run.1, here, (group_average rates (present run.1 here)).2 among⟩

end Means

theorem meansOf_perm_iff {runs : List ((Nat × Nat) × (ℚ × ℚ))}
    (rates : ∀ run ∈ runs, run.2 ≠ failedRun → 0 ≤ run.2.1) :
    (∀ size, (meansOf runs size).Perm (meansOf (parsed runs) size)) ↔
      ∀ run ∈ runs, run.2 ≠ failedRun := by
  constructor
  · intro perms run member failed
    exact meansOf_contaminated rates member failed (perms run.1.1)
  · intro success size
    have whole : parsed runs = runs := by
      rw [parsed, List.filter_eq_self]
      intro run member
      exact decide_eq_true (success run member)
    rw [whole]

/-! All files of a directory. -/

def regularFiles (files : Files) (ipc : Ipc) : List (List Char) :=
  paths files ipc (files.listdir (files.pathMap ipc))

def blockingNames (files : Files) (ipc : Ipc) : List (List Char) :=
  (splitList (files.listdir (files.pathMap ipc)) isBlockingFile).1

def nonblockingNames (files : Files) (ipc : Ipc) : List (List Char) :=
  (splitList (files.listdir (files.pathMap ipc)) isBlockingFile).2

section Directory

variable {files : Files} {badFiles : List (Ipc × List (List Char))}

theorem mem_regularFiles {ipc : Ipc} {path : List Char} : path ∈ regularFiles files ipc ↔
    path ∈ paths files ipc (blockingNames files ipc) ∨
      path ∈ paths files ipc (nonblockingNames files ipc) := by
  simp only [regularFiles, blockingNames, nonblockingNames, splitList, paths, List.mem_filter,
    List.mem_map]
  constructor
  · rintro ⟨⟨name, listed, rfl⟩, regular⟩
    cases kind : isBlockingFile name with
    | true => exact Or.inl ⟨⟨name, ⟨listed, kind⟩, rfl⟩, regular⟩
    | false => exact Or.inr ⟨⟨name, ⟨listed, by simp [kind]⟩, rfl⟩, regular⟩
  · rintro (⟨⟨name, ⟨listed, _⟩, rfl⟩, regular⟩ | ⟨⟨name, ⟨listed, _⟩, rfl⟩, regular⟩)
    · exact ⟨⟨name, listed, rfl⟩, regular⟩
    · exact ⟨⟨name, listed, rfl⟩, regular⟩

theorem getInfo_unnamed {path : List Char} (member : path ∈ regularFiles files .realmPrime)
    (unnamed : getInfoFilename path = none) : getInfo files .realmPrime badFiles = none := by
  rcases mem_regularFiles.mp member with blocking | nonblocking
  · have stopped := collect_unnamed files badFiles blocking unnamed
    simp only [blockingNames] at stopped
    simp [getInfo, stopped]
  · have stopped := fun bad => collect_unnamed files bad nonblocking unnamed
    simp only [nonblockingNames] at stopped
    simp [getInfo, stopped]

theorem getInfo_named (named : Named (regularFiles files .realmPrime)) :
    ∃ blocking nonblocking,
      getInfo files .realmPrime badFiles = some ([blocking, nonblocking], badFiles) ∧
      (∀ size, lookup blocking size =
        meansOf (runs files .realmPrime (blockingNames files .realmPrime)) size) ∧
      ∀ size, lookup nonblocking size =
        meansOf (runs files .realmPrime (nonblockingNames files .realmPrime)) size := by
  have first := collect_realmPrime files badFiles
    fun path member => named path (mem_regularFiles.mpr (Or.inl member))
  have second := collect_realmPrime files badFiles
    fun path member => named path (mem_regularFiles.mpr (Or.inr member))
  refine ⟨_, _, ?_, lookup_means _, lookup_means _⟩
  simp only [blockingNames, nonblockingNames] at first second ⊢
  simp [getInfo, first, second, fixKeys_eq]

theorem runs_rates {ipc : Ipc} {dataSet : List (List Char)} :
    ∀ run ∈ runs files ipc dataSet, run.2 ≠ failedRun → 0 ≤ run.2.1 := by
  intro run member success
  obtain ⟨path, _, here⟩ := List.mem_filterMap.mp member
  obtain ⟨info, _, rfl⟩ := Option.map_eq_some_iff.mp here
  exact parseOutput_nonneg success

theorem runs_parsed_iff {dataSet : List (List Char)}
    (named : Named (paths files .realmPrime dataSet)) :
    (∀ run ∈ runs files .realmPrime dataSet, run.2 ≠ failedRun) ↔
      ∀ path ∈ paths files .realmPrime dataSet, parseOutput id (files.read path) ≠ failedRun := by
  constructor
  · intro success path member
    obtain ⟨info, known⟩ := Option.ne_none_iff_exists'.mp (named path member)
    apply success (info, parseOutput id (files.read path))
    exact List.mem_filterMap.mpr ⟨path, member, by simp [known]⟩
  · intro success run member
    obtain ⟨path, inside, here⟩ := List.mem_filterMap.mp member
    obtain ⟨info, _, rfl⟩ := Option.map_eq_some_iff.mp here
    exact success path inside

theorem uncontaminated_named (named : Named (regularFiles files .realmPrime)) :
    Uncontaminated files .realmPrime badFiles ↔
      ∀ path ∈ regularFiles files .realmPrime, parseOutput id (files.read path) ≠ failedRun := by
  obtain ⟨blocking, nonblocking, result, first, second⟩ := @getInfo_named files badFiles named
  have named' : Named (paths files .realmPrime (blockingNames files .realmPrime)) :=
    fun path member => named path (mem_regularFiles.mpr (Or.inl member))
  have named'' : Named (paths files .realmPrime (nonblockingNames files .realmPrime)) :=
    fun path member => named path (mem_regularFiles.mpr (Or.inr member))
  have firstIff := meansOf_perm_iff (@runs_rates files .realmPrime (blockingNames files .realmPrime))
  have secondIff :=
    meansOf_perm_iff (@runs_rates files .realmPrime (nonblockingNames files .realmPrime))
  rw [runs_parsed_iff named'] at firstIff
  rw [runs_parsed_iff named''] at secondIff
  constructor
  · intro clean path member
    have perms := clean blocking nonblocking badFiles result
    rcases mem_regularFiles.mp member with inside | inside
    · refine firstIff.mp (fun size => ?_) path inside
      rw [← first]
      exact (perms size).1
    · refine secondIff.mp (fun size => ?_) path inside
      rw [← second]
      exact (perms size).2
  · intro success blocking' nonblocking' after result' size
    rw [result] at result'
    cases result'
    rw [first, second]
    constructor
    · exact firstIff.mpr (fun path inside => success path (mem_regularFiles.mpr (Or.inl inside))) size
    · exact secondIff.mpr (fun path inside => success path (mem_regularFiles.mpr (Or.inr inside))) size

end Directory

/-- The averages are those of the parsed runs exactly when the script gets to none of them, for
a file name without size and rate, or when every output can be parsed. -/
theorem uncontaminated_iff (files : Files) (badFiles : List (Ipc × List (List Char))) {ipc : Ipc}
    (used : ipc ∈ ipcs) :
    Uncontaminated files ipc badFiles ↔
      (∃ path ∈ regularFiles files ipc, getInfoFilename path = none) ∨
        ∀ path ∈ regularFiles files ipc, parseOutput id (files.read path) ≠ failedRun := by
  rw [ipcs, List.mem_singleton] at used
  subst used
  by_cases named : Named (regularFiles files .realmPrime)
  · rw [uncontaminated_named named]
    constructor
    · exact Or.inr
    · rintro (⟨path, member, unnamed⟩ | success)
      · exact absurd unnamed (named path member)
      · exact success
  · simp only [Named, not_forall, ne_eq, not_not] at named
    obtain ⟨path, member, unnamed⟩ := named
    constructor
    · intro _
      exact Or.inl ⟨path, member, unnamed⟩
    · rintro _ blocking nonblocking after result
      rw [getInfo_unnamed member unnamed] at result
      cases result

def silentRun : Files where
  pathMap _ := ['n', 'e', 'w']
  listdir _ := [['1', '2', '8', '_', '1', '0']]
  isfile _ := true
  read _ := []

theorem uncontaminated_iff_silent : Uncontaminated silentRun .realmPrime [] ↔
    (∃ path ∈ regularFiles silentRun .realmPrime, getInfoFilename path = none) ∨
      ∀ path ∈ regularFiles silentRun .realmPrime,
        parseOutput id (silentRun.read path) ≠ failedRun :=
  uncontaminated_iff silentRun [] (List.mem_singleton_self _)

/-- The failed run has an entry, of the rate -1. -/
theorem silent_run_counts : ¬Uncontaminated silentRun .realmPrime [] := by
  have named : Named (regularFiles silentRun .realmPrime) := by
    decide
  rw [uncontaminated_named named]
  intro success
  exact success ['n', 'e', 'w', '/', '1', '2', '8', '_', '1', '0'] (by decide) rfl

end IpcBench
