import IpcBench.ResultFiles

/-!
The graphs that `generateGraphs` and `paperGraphs` draw from the result files.
-/

namespace IpcBench

open Folders Folders.Folder

def graphedIpcs : List Ipc :=
  [.fifo, .socket, .sharedMem, .realmPrime]

def Ipc.text : Ipc → List Char
  | .fifo => "fifo".toList
  | .socket => "socket".toList
  | .tcp => "tcp".toList
  | .sharedMem => "realm".toList
  | .realmPrime => "realmPrime".toList

def graphMap : List (Ipc × List Char) := [
  (.fifo, "Pipe".toList),
  (.socket, "Socket".toList),
  (.sharedMem, "Baseline".toList),
  (.realmPrime, "Baseline w/o Copies".toList)]

structure Plot where
  label : List Char
  curve : List ℚ × List ℚ
  marker : Char
  linestyle : List Char

def Plot.item (plot : Plot) : List Char × (List ℚ × List ℚ) :=
  (plot.label, plot.curve)

structure Figure where
  filename : List Char
  plots : List Plot

def Figure.items (figure : Figure) : StatMap :=
  figure.plots.map Plot.item

def markers : List Char :=
  ['o', 's', 'p', 'h', 'd', 'x', '^']

def linestyles : List (List Char) :=
  ["-".toList, "--".toList, "-.".toList, ":".toList]

/-- There is no result when the markers or the line styles run out. -/
def plotItem (item : (List Char × (List ℚ × List ℚ)) × Nat) : Option Plot := do
  let marker ← markers[item.2]?
  let linestyle ← linestyles[item.2]?
  return { label := item.1.1, curve := item.1.2, marker := marker, linestyle := linestyle }

def pdfName (filename : List Char) : List Char :=
  "graphs/".toList ++ filename ++ ".pdf".toList

def graphMultipleLines (filename : List Char) (data : StatMap) : Option Figure :=
  (data.zipIdx.mapM plotItem).map fun plots => ⟨pdfName filename, plots⟩

def desiredKeys : List (List Char) :=
  ["64 KB".toList, "256 KB".toList]

def desired (resultMap : StatMap) : StatMap :=
  resultMap.filter fun item => desiredKeys.contains item.1

def graphName (ipc : Ipc) (blocking : Bool) : List Char :=
  ipc.text ++ '/' :: ipc.text ++ '_' :: (if blocking then "_blocking".toList else [])

def graphsOf (folder : ResultFolder) (filenames : List (List Char)) (ipc : Ipc) :
    Option (List Figure) := do
  let resultMaps ← readInfo folder filenames
  let blocking ← graphMultipleLines (graphName ipc true) (desired resultMaps.1)
  let nonblocking ← graphMultipleLines (graphName ipc false) (desired resultMaps.2)
  return [blocking, nonblocking]

def generateGraphs (folders : Ipc → ResultFolder) (listdir : Ipc → List (List Char)) :
    Option (List (List Figure)) :=
  graphedIpcs.mapM fun ipc => graphsOf (folders ipc) (listdir ipc) ipc

def paperKey : List Char :=
  "128 B".toList

def paperName (key : List Char) : List Char :=
  "paper/".toList ++ key ++ "_all_ipcs".toList

def paperStep (folders : Ipc → ResultFolder) (listdir : Ipc → List (List Char)) (key : List Char)
    (drawn : StatMap × List Figure) (ipc : Ipc) : Option (StatMap × List Figure) := do
  let resultMaps ← readInfo (folders ipc) (listdir ipc)
  let val ← resultMaps.2.lookup key
  let name ← graphMap.lookup ipc
  let items := put name val drawn.1
  let figure ← graphMultipleLines (paperName key) items
  return (items, drawn.2 ++ [figure])

def paperGraphs (folders : Ipc → ResultFolder) (listdir : Ipc → List (List Char)) :
    Option (List Figure) :=
  (graphedIpcs.foldlM (paperStep folders listdir paperKey) ([], [])).map Prod.snd

/-! Drawing. -/

theorem mapM_plotItem {data : StatMap} {start : Nat} (enough : start + data.length ≤ 4) :
    ∃ plots, (data.zipIdx start).mapM plotItem = some plots ∧ plots.map Plot.item = data := by
  induction data generalizing start with
  | nil => exact ⟨[], rfl, rfl⟩
  | cons first data ih =>
      rw [List.length_cons] at enough
      obtain ⟨plots, drawn, same⟩ := @ih (start + 1) (by omega)
      have marked : start < markers.length := Nat.lt_of_lt_of_le (by omega) (by decide : 4 ≤ 7)
      have styled : start < linestyles.length := Nat.lt_of_lt_of_le (by omega) (by decide : 4 ≤ 4)
      have one : plotItem (first, start) =
          some ⟨first.1, first.2, markers[start], linestyles[start]⟩ := by
        simp [plotItem, marked, styled]
      refine ⟨⟨first.1, first.2, markers[start], linestyles[start]⟩ :: plots, ?_, ?_⟩
      · simp [List.zipIdx_cons, one, drawn]
      · rw [List.map_cons, same]
        rfl

theorem graphMultipleLines_some (filename : List Char) {data : StatMap} (enough : data.length ≤ 4) :
    ∃ figure, graphMultipleLines filename data = some figure ∧
      figure.filename = pdfName filename ∧ figure.items = data := by
  obtain ⟨plots, drawn, same⟩ := @mapM_plotItem data 0 (by omega)
  refine ⟨⟨pdfName filename, plots⟩, ?_, rfl, same⟩
  rw [graphMultipleLines, drawn]
  rfl

section Drawn

variable {folder : ResultFolder} {names : List (List Char)}

theorem Clean.keys_nodup (clean : Clean folder) (lists : folder.Lists names) (block : Bool) :
    ((statMapOf folder names block).map Prod.fst).Nodup :=
  clean.readable.keys_nodup (lists.nodup.filter _)

theorem desired_length {resultMap : StatMap} (nodup : (resultMap.map Prod.fst).Nodup) :
    (desired resultMap).length ≤ 2 := by
  have keys : ((desired resultMap).map Prod.fst).Nodup :=
    nodup.sublist (List.filter_sublist.map Prod.fst)
  have wanted : (desired resultMap).map Prod.fst ⊆ desiredKeys := by
    intro key member
    obtain ⟨item, inside, rfl⟩ := List.mem_map.mp member
    exact List.contains_iff_mem.mp (List.mem_filter.mp inside).2
  have bound := (List.subperm_of_subset keys wanted).length_le
  rwa [List.length_map] at bound

theorem lookup_desired (resultMap : StatMap) (key : List Char) :
    (desired resultMap).lookup key = if key ∈ desiredKeys then resultMap.lookup key else none := by
  rw [desired, lookup_filter desiredKeys.contains]
  simp only [List.contains_iff_mem]

theorem desiredKeys_plain : ∀ key ∈ desiredKeys, 'b' ∉ key := by
  decide

def curveOf (folder : ResultFolder) (key : List Char) : Option (List ℚ × List ℚ) :=
  (folder.read (jsonName key false)).bind convertData

theorem Clean.desired_blocking (clean : Clean folder) (lists : folder.Lists names) :
    desired (statMapOf folder names true) = [] := by
  rw [List.eq_nil_iff_forall_not_mem]
  rintro ⟨key, curve⟩ member
  obtain ⟨inside, wanted⟩ := List.mem_filter.mp member
  have plain := desiredKeys_plain key (List.contains_iff_mem.mp wanted)
  have found := lookup_of_mem (clean.keys_nodup lists true) inside
  rw [clean.lookup_statMapOf lists] at found
  have other := isBlockingFile_jsonName plain false
  rw [jsonName, addendum, if_neg (by decide), List.append_nil] at other
  rw [other, if_neg (by decide)] at found
  cases found

theorem Clean.lookup_nonblocking (clean : Clean folder) (lists : folder.Lists names)
    {key : List Char} (plain : 'b' ∉ key) :
    (statMapOf folder names false).lookup key = curveOf folder key := by
  have other := isBlockingFile_jsonName plain false
  have name : jsonName key false = key ++ ".json".toList := by
    rw [jsonName, addendum, if_neg (by decide), List.append_nil]
  rw [clean.lookup_statMapOf lists, curveOf, ← name, other, if_pos rfl]

theorem Clean.graphsOf (clean : Clean folder) (lists : folder.Lists names) (ipc : Ipc) :
    ∃ blocking nonblocking, IpcBench.graphsOf folder names ipc = some [blocking, nonblocking] ∧
      blocking.filename = pdfName (graphName ipc true) ∧ blocking.items = [] ∧
      nonblocking.filename = pdfName (graphName ipc false) ∧
      ∀ key, nonblocking.items.lookup key =
        if key ∈ desiredKeys then curveOf folder key else none := by
  have few := desired_length (clean.keys_nodup lists false)
  obtain ⟨blocking, first, name, items⟩ :=
    @graphMultipleLines_some (graphName ipc true) [] (Nat.zero_le 4)
  obtain ⟨nonblocking, second, name', items'⟩ :=
    @graphMultipleLines_some (graphName ipc false) (desired (statMapOf folder names false)) (by omega)
  refine ⟨blocking, nonblocking, ?_, name, items, name', ?_⟩
  · rw [IpcBench.graphsOf, clean.readInfo_eq lists.nodup]
    simp [clean.desired_blocking lists, first, second]
  · intro key
    rw [items', lookup_desired]
    split
    · rename_i wanted
      exact clean.lookup_nonblocking lists (desiredKeys_plain key wanted)
    · rfl

end Drawn

/-! The paper graph. -/

section Paper

variable {folders : Ipc → ResultFolder} {listdir : Ipc → List (List Char)} {key : List Char}

theorem paperStep_eq (clean : ∀ ipc, Clean (folders ipc))
    (lists : ∀ ipc, (folders ipc).Lists (listdir ipc)) (plain : 'b' ∉ key)
    (drawn : StatMap × List Figure) (ipc : Ipc) :
    paperStep folders listdir key drawn ipc = (curveOf (folders ipc) key).bind fun val =>
      (graphMap.lookup ipc).bind fun name =>
        (graphMultipleLines (paperName key) (put name val drawn.1)).map fun figure =>
          (put name val drawn.1, drawn.2 ++ [figure]) := by
  rw [paperStep, (clean ipc).readInfo_eq (lists ipc).nodup]
  simp only [Option.bind_eq_bind, Option.bind_some, (clean ipc).lookup_nonblocking (lists ipc) plain,
    Option.map_eq_bind]
  rfl

theorem paper_run (clean : ∀ ipc, Clean (folders ipc))
    (lists : ∀ ipc, (folders ipc).Lists (listdir ipc)) (plain : 'b' ∉ key) {kinds : List Ipc}
    {name : Ipc → List Char} {curve : Ipc → List ℚ × List ℚ} (items : StatMap)
    (figures : List Figure) (named : ∀ ipc ∈ kinds, graphMap.lookup ipc = some (name ipc))
    (apart : (items.map Prod.fst ++ kinds.map name).Nodup) (few : items.length + kinds.length ≤ 4)
    (there : ∀ ipc ∈ kinds, curveOf (folders ipc) key = some (curve ipc)) :
    ∃ more, kinds.foldlM (paperStep folders listdir key) (items, figures) =
        some (items ++ kinds.map fun ipc => (name ipc, curve ipc), figures ++ more) ∧
      more.length = kinds.length ∧ ∀ figure, more.getLast? = some figure →
        figure.filename = pdfName (paperName key) ∧
          figure.items = items ++ kinds.map fun ipc => (name ipc, curve ipc) := by
  induction kinds generalizing items figures with
  | nil => exact ⟨[], by simp, rfl, by simp⟩
  | cons first kinds ih =>
      rw [List.length_cons] at few
      have new : name first ∉ items.map Prod.fst := by
        intro old
        exact (List.nodup_append.mp apart).2.2 _ old _ (by simp) rfl
      have grown := put_new (curve first) new
      obtain ⟨figure, drawn, filename, shown⟩ := @graphMultipleLines_some (paperName key)
        (items ++ [(name first, curve first)]) (by rw [List.length_append, List.length_singleton]; omega)
      have here : paperStep folders listdir key (items, figures) first =
          some (items ++ [(name first, curve first)], figures ++ [figure]) := by
        rw [paperStep_eq clean lists plain, there first List.mem_cons_self,
          Option.bind_some, named first List.mem_cons_self, Option.bind_some, grown, drawn]
        rfl
      obtain ⟨more, rest, length, last⟩ := ih (items ++ [(name first, curve first)])
        (figures ++ [figure]) (fun ipc member => named ipc (List.mem_cons_of_mem _ member))
        (by simpa [List.append_assoc] using apart)
        (by rw [List.length_append, List.length_singleton]; omega)
        (fun ipc member => there ipc (List.mem_cons_of_mem _ member))
      refine ⟨figure :: more, ?_, by rw [List.length_cons, List.length_cons, length], ?_⟩
      · rw [List.foldlM_cons, here]
        simpa [List.append_assoc] using rest
      · intro final ends
        cases more with
        | nil =>
            cases ends
            rw [List.length_nil, eq_comm, List.length_eq_zero_iff] at length
            subst length
            exact ⟨filename, shown⟩
        | cons next more =>
            rw [List.getLast?_cons_cons] at ends
            obtain ⟨filename', shown'⟩ := last final ends
            exact ⟨filename', by rw [shown']; simp⟩

theorem paperKey_plain : 'b' ∉ paperKey := by
  decide

def legend (ipc : Ipc) : List Char :=
  (graphMap.lookup ipc).getD []

theorem graphMap_legend : ∀ ipc ∈ graphedIpcs, graphMap.lookup ipc = some (legend ipc) := by
  decide

theorem legends_nodup : (graphedIpcs.map legend).Nodup := by
  decide

theorem paperGraphs_iff (clean : ∀ ipc, Clean (folders ipc))
    (lists : ∀ ipc, (folders ipc).Lists (listdir ipc)) :
    (paperGraphs folders listdir ≠ none ↔
        ∀ ipc ∈ graphedIpcs, curveOf (folders ipc) paperKey ≠ none) ∧
      ∀ figures, paperGraphs folders listdir = some figures → ∃ figure,
        figures.getLast? = some figure ∧ figure.filename = pdfName (paperName paperKey) ∧
          figure.items = graphedIpcs.filterMap fun ipc =>
            (curveOf (folders ipc) paperKey).map fun curve => (legend ipc, curve) := by
  by_cases all : ∀ ipc ∈ graphedIpcs, curveOf (folders ipc) paperKey ≠ none
  · have there : ∀ ipc ∈ graphedIpcs,
        curveOf (folders ipc) paperKey = some ((curveOf (folders ipc) paperKey).getD ([], [])) := by
      intro ipc member
      obtain ⟨curve, found⟩ := Option.ne_none_iff_exists'.mp (all ipc member)
      rw [found]
      rfl
    obtain ⟨more, ran, length, last⟩ := paper_run clean lists paperKey_plain [] []
      graphMap_legend legends_nodup (Nat.le_refl 4) there
    have drawn : paperGraphs folders listdir = some more := by
      rw [paperGraphs, ran]
      rfl
    have items : graphedIpcs.filterMap (fun ipc =>
        (curveOf (folders ipc) paperKey).map fun curve => (legend ipc, curve)) =
        graphedIpcs.map fun ipc =>
          (legend ipc, (curveOf (folders ipc) paperKey).getD ([], [])) := by
      rw [← List.filterMap_eq_map]
      apply List.filterMap_congr
      intro ipc member
      rw [there ipc member]
      rfl
    refine ⟨⟨fun _ => all, fun _ => by rw [drawn]; exact Option.some_ne_none more⟩, ?_⟩
    intro figures same
    rw [drawn] at same
    cases same
    obtain ⟨figure, ends⟩ : ∃ figure, more.getLast? = some figure := by
      cases more with
      | nil => cases length
      | cons first more => exact ⟨_, List.getLast?_eq_getLast_of_ne_nil (List.cons_ne_nil first more)⟩
    obtain ⟨filename, shown⟩ := last figure ends
    exact ⟨figure, ends, filename, by rw [shown, items]; rfl⟩
  · have none : paperGraphs folders listdir = none := by
      simp only [not_forall, ne_eq, not_not] at all
      obtain ⟨ipc, member, absent⟩ := all
      rw [paperGraphs, foldlM_none member]
      · rfl
      · intro drawn
        rw [paperStep_eq clean lists paperKey_plain, absent, Option.bind_none]
    rw [none]
    exact ⟨⟨fun some => absurd rfl some, fun every => absurd every all⟩, nofun⟩

end Paper

/-- From clean folders, listed in whatever order: `generateGraphs` draws for every kind the
curves of the desired keys that have a file, but leaves the graph of the blocking runs empty;
and `paperGraphs` draws the curves of all kinds exactly when all have a file of its key. -/
theorem graphs_drawn {folders : Ipc → ResultFolder} {listdir : Ipc → List (List Char)}
    (clean : ∀ ipc, Clean (folders ipc)) (lists : ∀ ipc, (folders ipc).Lists (listdir ipc)) :
    (∃ figures, generateGraphs folders listdir = some figures ∧
      List.Forall₂ (fun ipc pair => ∃ blocking nonblocking, pair = [blocking, nonblocking] ∧
        blocking.filename = pdfName (graphName ipc true) ∧ blocking.items = [] ∧
        nonblocking.filename = pdfName (graphName ipc false) ∧
        ∀ key, nonblocking.items.lookup key =
          if key ∈ desiredKeys then curveOf (folders ipc) key else none) graphedIpcs figures) ∧
    (paperGraphs folders listdir ≠ none ↔
      ∀ ipc ∈ graphedIpcs, curveOf (folders ipc) paperKey ≠ none) ∧
    ∀ figures, paperGraphs folders listdir = some figures → ∃ figure,
      figures.getLast? = some figure ∧ figure.filename = pdfName (paperName paperKey) ∧
        figure.items = graphedIpcs.filterMap fun ipc =>
          (curveOf (folders ipc) paperKey).map fun curve => (legend ipc, curve) := by
  refine ⟨mapM_forall₂ ?_, paperGraphs_iff clean lists⟩
  intro ipc _
  obtain ⟨blocking, nonblocking, drawn, shown⟩ := (clean ipc).graphsOf (lists ipc) ipc
  exact ⟨_, drawn, blocking, nonblocking, rfl, shown⟩

def twoKeys : ResultFolder :=
  Function.update (Function.update (fun _ => none) (jsonName paperKey false)
    (some (.file (jsonDump [(1, 2)])))) (jsonName "64 KB".toList false)
    (some (.file (jsonDump [(3, 4), (5, 6)])))

theorem twoKeys_eq {name : List Char} (there : twoKeys name ≠ none) :
    name = jsonName "64 KB".toList false ∧
        twoKeys name = some (.file (jsonDump [(3, 4), (5, 6)])) ∨
      name = jsonName paperKey false ∧ twoKeys name = some (.file (jsonDump [(1, 2)])) := by
  by_cases desired : name = jsonName "64 KB".toList false
  · subst desired
    exact Or.inl ⟨rfl, Function.update_self _ _ _⟩
  · have later : twoKeys name = Function.update (fun _ => none) (jsonName paperKey false)
        (some (.file (jsonDump [(1, 2)]))) name := Function.update_of_ne desired _ _
    by_cases paper : name = jsonName paperKey false
    · subst paper
      exact Or.inr ⟨rfl, later.trans (Function.update_self _ _ _)⟩
    · exact absurd (later.trans (Function.update_of_ne paper _ _)) there

theorem twoKeys_clean : Clean twoKeys := by
  intro name document there
  have some : twoKeys name ≠ none := by
    intro none
    rw [Folder.read, none] at there
    cases there
  rcases twoKeys_eq some with ⟨rfl, found⟩ | ⟨rfl, found⟩
  · rw [Folder.read, found] at there
    cases there
    exact ⟨⟨"64 KB".toList, rfl, by decide⟩, _, rfl⟩
  · rw [Folder.read, found] at there
    cases there
    exact ⟨⟨paperKey, rfl, by decide⟩, _, rfl⟩

theorem twoKeys_lists :
    twoKeys.Lists [jsonName paperKey false, jsonName "64 KB".toList false] where
  nodup := by decide
  mem_iff := by
    intro name
    rw [List.mem_cons, List.mem_singleton]
    constructor
    · rintro (rfl | rfl) <;> exact Option.some_ne_none _
    · intro there
      rcases twoKeys_eq there with ⟨desired, _⟩ | ⟨paper, _⟩
      · exact Or.inr desired
      · exact Or.inl paper

/-- Both scripts draw all kinds from such folders, each its own curve. -/
theorem graphs_drawn_twoKeys :
    (∃ figures, generateGraphs (fun _ => twoKeys)
        (fun _ => [jsonName paperKey false, jsonName "64 KB".toList false]) = some figures ∧
      List.Forall₂ (fun _ pair => ∃ blocking nonblocking, pair = [blocking, nonblocking] ∧
        nonblocking.items.lookup "64 KB".toList = some ([3, 5], [4, 6]) ∧
        nonblocking.items.lookup paperKey = none) graphedIpcs figures) ∧
    paperGraphs (fun _ => twoKeys)
      (fun _ => [jsonName paperKey false, jsonName "64 KB".toList false]) ≠ none := by
  obtain ⟨⟨figures, drawn, shown⟩, paper, _⟩ :=
    graphs_drawn (fun _ => twoKeys_clean) fun _ => twoKeys_lists
  refine ⟨⟨figures, drawn, shown.imp ?_⟩, paper.mpr ?_⟩
  · rintro ipc pair ⟨blocking, nonblocking, same, _, _, _, curves⟩
    exact ⟨blocking, nonblocking, same, curves "64 KB".toList, curves paperKey⟩
  · intro ipc _ absent
    cases absent

end IpcBench
