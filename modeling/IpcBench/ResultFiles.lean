import IpcBench.Folders
import IpcBench.Statistics

/-!
The averages, which are rationals here, on their way into graphs: `runBenchmarks` writes them
into one JSON file for each size, from which `generateGraphs` and `paperGraphs` read the curves
they draw.
-/

namespace IpcBench

open Folders Folders.Folder Grouping

/-- A JSON document of rows of numbers, one of another shape, or a text that is none. -/
inductive Document
  | rows (rows : List (List ℚ))
  | json
  | text
deriving DecidableEq

abbrev ResultFolder := Folder (List Char) Document

def labelMap : List (Nat × List Char) := [
  (1, "1 B".toList),
  (8, "8 B".toList),
  (16, "16 B".toList),
  (32, "32 B".toList),
  (64, "64 B".toList),
  (128, "128 B".toList),
  (256, "256 B".toList),
  (512, "512 B".toList),
  (1024, "1 KB".toList),
  (2048, "2 KB".toList),
  (4096, "4 KB".toList),
  (6144, "6 KB".toList),
  (8192, "8 KB".toList),
  (32768, "32 KB".toList),
  (65536, "64 KB".toList),
  (262144, "256 KB".toList),
  (1048576, "1 MB".toList)]

def byFirst {Value : Type} (left right : ℚ × Value) : Bool :=
  left.1 ≤ right.1

/-- There is no result for a size that has no label. -/
def parseResultMap (resultMap : List (Nat × List (ℚ × ℚ))) :
    Option (List (List Char × List (ℚ × ℚ))) :=
  -- no two items have the same size, so that it alone decides the order
  (resultMap.mergeSort fun left right => left.1 ≤ right.1).mapM fun infoObj =>
    (labelMap.lookup infoObj.1).map fun label => (label, infoObj.2.mergeSort byFirst)

/-- `json.dump`, which makes rows of tuples. -/
def jsonDump (data : List (ℚ × ℚ)) : Document :=
  .rows (data.map fun pair => [pair.1, pair.2])

def addendum (blockFile : Bool) : List Char :=
  if blockFile then "_block".toList else []

def jsonName (size : List Char) (blockFile : Bool) : List Char :=
  size ++ addendum blockFile ++ ".json".toList

def dumpData (resultMap : List (List Char × List (ℚ × ℚ))) (blockFile : Bool)
    (folder : ResultFolder) : Option ResultFolder :=
  resultMap.foldlM (fun folder item => folder.write (jsonName item.1 blockFile) (jsonDump item.2))
    folder

def dumpMaps (resultMaps : List (List (Nat × List (ℚ × ℚ)))) (block : Bool) (folder : ResultFolder) :
    Option ResultFolder :=
  match resultMaps with
  | [] => some folder
  | mapData :: rest => do
      let resultMap ← parseResultMap mapData
      let folder ← dumpData resultMap block folder
      dumpMaps rest false folder

def runBenchmarks (files : Files) (folders : Ipc → ResultFolder) : Option (Ipc → ResultFolder) := do
  let result ← ipcs.foldlM (fun (state : (Ipc → ResultFolder) × _) ipc => do
    let (resultMaps, badFiles) ← getInfo files ipc state.2
    let folder ← dumpMaps resultMaps true (state.1 ipc)
    return (Function.update state.1 ipc folder, badFiles)) (folders, [])
  return result.1

/-! `generateGraphs`. -/

def getSizeInfoFilename : List Char → Option (List Char)
  | [] => none
  | char :: filename =>
      if ".json".toList <+: char :: filename then some []
      else if char = '\n' then none
      else (getSizeInfoFilename filename).map fun size => char :: size

def readData : Document → Option Document
  | .rows rows => some (.rows rows)
  | .json => some .json
  | .text => none

def convertData : Document → Option (List ℚ × List ℚ)
  | .rows data => do
      let throughputs ← data.mapM fun item => item[0]?
      let latencies ← data.mapM fun item => item[1]?
      return (throughputs, latencies)
  | _ => none

abbrev StatMap := List (List Char × (List ℚ × List ℚ))

def readStats (filename : List Char) (document : Document) (statMap : StatMap) : Option StatMap := do
  let size ← getSizeInfoFilename filename
  let data ← readData document
  putNew size (convertData data) statMap

def readSet (folder : ResultFolder) (dataSet : List (List Char)) : Option StatMap :=
  dataSet.foldlM (fun statMap filename =>
    match folder.read filename with
    | none => some statMap
    | some document => readStats filename document statMap) []

def readInfo (folder : ResultFolder) (filenames : List (List Char)) : Option (StatMap × StatMap) := do
  let dataSets := splitList filenames isBlockingFile
  let blocking ← readSet folder dataSets.1
  let nonblocking ← readSet folder dataSets.2
  return (blocking, nonblocking)

/-! What the files are for: they keep the averages of every size. -/

abbrev Results := Bool → Nat → Option (List (ℚ × ℚ))

/-- New averages take the place of older ones of their size. -/
def Results.note (block : Bool) (means : Nat → List (ℚ × ℚ)) (results : Results) : Results :=
  fun blocking size =>
    if blocking = block ∧ means size ≠ [] then some ((means size).mergeSort byFirst)
    else results blocking size

def Results.batch (results : Results) (files : Files) : Results :=
  (results.note true (meansOf (runs files .realmPrime (blockingNames files .realmPrime)))).note
    false (meansOf (runs files .realmPrime (nonblockingNames files .realmPrime)))

def Results.keeps (results : Results) (folder : ResultFolder) : Prop :=
  ∀ block size label, labelMap.lookup size = some label →
    folder.read (jsonName label block) = (results block size).map jsonDump

def Document.averages : Document → List (ℚ × ℚ)
  | .rows table => table.map fun row => (row.getD 0 0, row.getD 1 0)
  | _ => []

def Results.stored (folder : ResultFolder) : Results :=
  fun block size => (labelMap.lookup size).bind fun label =>
    (folder.read (jsonName label block)).map Document.averages

def curve (data : List (ℚ × ℚ)) : List ℚ × List ℚ :=
  (data.map Prod.fst, data.map Prod.snd)

/-- The files are JSON files of pairs, with nothing else in their names. -/
def Clean (folder : ResultFolder) : Prop :=
  ∀ name document, folder.read name = some document →
    (∃ stem, name = stem ++ ".json".toList ∧ '.' ∉ stem ∧ '\n' ∉ stem) ∧
      ∃ data, document = jsonDump data

/-! Labels. -/

theorem labelMap_plain : ∀ entry ∈ labelMap,
    '.' ∉ entry.2 ∧ '\n' ∉ entry.2 ∧ '_' ∉ entry.2 ∧ 'b' ∉ entry.2 := by
  decide

theorem labelMap_injective {size other : Nat} {label : List Char}
    (found : labelMap.lookup size = some label) (again : labelMap.lookup other = some label) :
    size = other := by
  have nodup : (labelMap.map Prod.snd).Nodup := by decide
  have same := List.inj_on_of_nodup_map nodup (mem_of_lookup found) (mem_of_lookup again) rfl
  exact congrArg Prod.fst same

theorem jsonName_eq {label other : List Char} {block blocking : Bool}
    (same : jsonName label block = jsonName other blocking) (plain : '_' ∉ label)
    (plain' : '_' ∉ other) : label = other ∧ block = blocking := by
  have stems := List.append_cancel_right same
  cases block <;> cases blocking
  · simpa [addendum] using stems
  · rw [addendum, addendum, if_neg (by decide), if_pos rfl, List.append_nil] at stems
    rw [stems] at plain
    simp at plain
  · rw [addendum, addendum, if_pos rfl, if_neg (by decide), List.append_nil] at stems
    rw [← stems] at plain'
    simp at plain'
  · exact ⟨List.append_cancel_right stems, rfl⟩

theorem getSizeInfoFilename_stem {stem : List Char} (dot : '.' ∉ stem) (line : '\n' ∉ stem) :
    getSizeInfoFilename (stem ++ ".json".toList) = some stem := by
  induction stem with
  | nil => decide
  | cons char stem ih =>
      rw [List.mem_cons, not_or] at dot line
      have later : ¬".json".toList <+: char :: (stem ++ ".json".toList) := by
        intro here
        exact dot.1 (List.cons_prefix_cons.mp here).1
      rw [List.cons_append, getSizeInfoFilename, if_neg later, if_neg (Ne.symm line.1),
        ih dot.2 line.2]
      rfl

theorem isBlockingFile_jsonName {label : List Char} (plain : 'b' ∉ label) (block : Bool) :
    isBlockingFile (jsonName label block) = block := by
  cases block with
  | true =>
      apply decide_eq_true
      exact ⟨label ++ ['_'], ".json".toList, by simp [jsonName, addendum]⟩
  | false =>
      apply decide_eq_false
      intro inside
      have member : 'b' ∈ jsonName label false := inside.subset (by decide)
      rw [jsonName, addendum, if_neg (by decide), List.append_nil, List.mem_append] at member
      rcases member with own | extension
      · exact plain own
      · exact absurd extension (by decide)

/-! Writing. -/

section MapM

variable {Item Result Key : Type} {make : Item → Option Result} {items : List Item}
  {results : List Result}

theorem mem_mapM (made : items.mapM make = some results) (result : Result) :
    result ∈ results ↔ ∃ item ∈ items, make item = some result := by
  induction items generalizing results with
  | nil =>
      cases made
      simp
  | cons first items ih =>
      simp only [List.mapM_cons, Option.bind_eq_bind, Option.bind_eq_some_iff, Option.pure_def,
        Option.some.injEq] at made
      obtain ⟨head, here, tail, later, rfl⟩ := made
      rw [List.mem_cons, ih later]
      simp [here, eq_comm]

theorem mapM_nodup {key : Item → Key} {name : Result → List Char}
    (made : items.mapM make = some results) (nodup : (items.map key).Nodup)
    (apart : ∀ item other result twin, make item = some result → make other = some twin →
      name result = name twin → key item = key other) : (results.map name).Nodup := by
  induction items generalizing results with
  | nil =>
      cases made
      exact List.nodup_nil
  | cons first items ih =>
      simp only [List.mapM_cons, Option.bind_eq_bind, Option.bind_eq_some_iff, Option.pure_def,
        Option.some.injEq] at made
      obtain ⟨head, here, tail, later, rfl⟩ := made
      rw [List.map_cons, List.nodup_cons] at nodup ⊢
      refine ⟨?_, ih later nodup.2⟩
      intro again
      obtain ⟨twin, member, same⟩ := List.mem_map.mp again
      obtain ⟨other, inside, there⟩ := (mem_mapM later twin).mp member
      apply nodup.1
      rw [apart first other head twin here there same.symm]
      exact List.mem_map_of_mem inside

theorem mapM_forall₂ {Made : Item → Result → Prop}
    (makes : ∀ item ∈ items, ∃ result, make item = some result ∧ Made item result) :
    ∃ results, items.mapM make = some results ∧ List.Forall₂ Made items results := by
  induction items with
  | nil => exact ⟨[], rfl, List.Forall₂.nil⟩
  | cons first items ih =>
      obtain ⟨results, made, all⟩ := ih fun item member => makes item (List.mem_cons_of_mem _ member)
      obtain ⟨result, here, one⟩ := makes first List.mem_cons_self
      refine ⟨result :: results, ?_, List.Forall₂.cons one all⟩
      rw [List.mapM_cons, here, made]
      rfl

end MapM

section Dump

variable {mapData : List (Nat × List (ℚ × ℚ))} {resultMap : List (List Char × List (ℚ × ℚ))}
  {folder after : ResultFolder} {block : Bool} {results : Results}

theorem mem_parseResultMap (parsed : parseResultMap mapData = some resultMap) {label : List Char}
    {data : List (ℚ × ℚ)} : (label, data) ∈ resultMap ↔ ∃ size values, (size, values) ∈ mapData ∧
      labelMap.lookup size = some label ∧ data = values.mergeSort byFirst := by
  rw [mem_mapM parsed]
  constructor
  · rintro ⟨⟨size, values⟩, member, made⟩
    obtain ⟨found, known, same⟩ := Option.map_eq_some_iff.mp made
    cases same
    exact ⟨size, values, List.mem_mergeSort.mp member, known, rfl⟩
  · rintro ⟨size, values, member, known, rfl⟩
    exact ⟨(size, values), List.mem_mergeSort.mpr member, by simp [known]⟩

def written (resultMap : List (List Char × List (ℚ × ℚ))) (block : Bool) :
    List (List Char × Document) :=
  resultMap.map fun item => (jsonName item.1 block, jsonDump item.2)

theorem dumpData_eq (resultMap : List (List Char × List (ℚ × ℚ))) (block : Bool)
    (folder : ResultFolder) : dumpData resultMap block folder = folder.writeAll (written resultMap block) := by
  rw [dumpData, writeAll, written, List.foldlM_map]

theorem written_nodup (block : Bool) (parsed : parseResultMap mapData = some resultMap)
    (nodup : (mapData.map Prod.fst).Nodup) : ((written resultMap block).map Prod.fst).Nodup := by
  have sorted : ((mapData.mergeSort fun left right => left.1 ≤ right.1).map Prod.fst).Nodup :=
    ((List.mergeSort_perm mapData _).map Prod.fst).nodup_iff.mpr nodup
  rw [written, List.map_map]
  refine mapM_nodup parsed sorted ?_
  rintro item other result twin made again same
  obtain ⟨label, known, rfl⟩ := Option.map_eq_some_iff.mp made
  obtain ⟨label', known', rfl⟩ := Option.map_eq_some_iff.mp again
  have plain := (labelMap_plain _ (mem_of_lookup known)).2.2.1
  have plain' := (labelMap_plain _ (mem_of_lookup known')).2.2.1
  obtain ⟨equal, _⟩ := jsonName_eq same plain plain'
  simp only at equal
  subst equal
  exact labelMap_injective known known'

theorem Results.keeps.dump {entries : List (Nat × (ℚ × ℚ))} (keeps : results.keeps folder)
    (parsed : parseResultMap (groups entries) = some resultMap)
    (dumped : dumpData resultMap block folder = some after) :
    (results.note block fun size => valuesOf size entries).keeps after := by
  rw [dumpData_eq] at dumped
  have nodup := written_nodup block parsed (groups_nodup entries)
  intro blocking size label known
  have plain := (labelMap_plain _ (mem_of_lookup known)).2.2.1
  rw [read_writeAll nodup dumped]
  unfold Results.note
  split
  · rename_i here
    obtain ⟨rfl, nonempty⟩ := here
    have member : (label, (valuesOf size entries).mergeSort byFirst) ∈ resultMap :=
      (mem_parseResultMap parsed).mpr ⟨size, _, mem_groups.mpr ⟨rfl, nonempty⟩, known, rfl⟩
    have found : (written resultMap blocking).lookup (jsonName label blocking) =
        some (jsonDump ((valuesOf size entries).mergeSort byFirst)) :=
      lookup_of_mem nodup (List.mem_map_of_mem member)
    rw [found]
    rfl
  · rename_i elsewhere
    have none : (written resultMap block).lookup (jsonName label blocking) = none := by
      apply lookup_eq_none
      intro listed
      obtain ⟨entry, inside, same⟩ := List.mem_map.mp listed
      obtain ⟨⟨label', data⟩, member, rfl⟩ := List.mem_map.mp inside
      obtain ⟨size', values, grouped, known', _⟩ := (mem_parseResultMap parsed).mp member
      have plain' := (labelMap_plain _ (mem_of_lookup known')).2.2.1
      obtain ⟨rfl, rfl⟩ := jsonName_eq same plain' plain
      obtain rfl := labelMap_injective known known'
      obtain ⟨rfl, nonempty⟩ := mem_groups.mp grouped
      exact elsewhere ⟨rfl, nonempty⟩
    rw [none, Option.none_or]
    exact keeps blocking size label known

theorem Clean.dump (clean : Clean folder) (parsed : parseResultMap mapData = some resultMap)
    (dumped : dumpData resultMap block folder = some after) : Clean after := by
  rw [dumpData_eq] at dumped
  refine read_writeAll_all dumped clean ?_
  intro entry inside
  obtain ⟨⟨label, data⟩, member, rfl⟩ := List.mem_map.mp inside
  obtain ⟨size, values, _, known, _⟩ := (mem_parseResultMap parsed).mp member
  obtain ⟨dot, line, _, _⟩ := labelMap_plain _ (mem_of_lookup known)
  refine ⟨⟨label ++ addendum block, rfl, ?_, ?_⟩, data, rfl⟩
  · rw [List.mem_append, not_or]
    refine ⟨dot, ?_⟩
    cases block <;> decide
  · rw [List.mem_append, not_or]
    refine ⟨line, ?_⟩
    cases block <;> decide

end Dump

/-! A whole batch. -/

def meanEntries (runs : List ((Nat × Nat) × (ℚ × ℚ))) : List (Nat × (ℚ × ℚ)) :=
  (firsts (runs.map Prod.fst)).map fun info => (info.1, getAveragePerElement (valuesOf info runs))

theorem valuesOf_meanEntries (runs : List ((Nat × Nat) × (ℚ × ℚ))) (size : Nat) :
    valuesOf size (meanEntries runs) = meansOf runs size := by
  rw [meanEntries, valuesOf, List.filter_map, List.map_map]
  rfl

section Batch

variable {files : Files} {folders after : Ipc → ResultFolder} {results : Results}

theorem getInfo_realmPrime (badFiles : List (Ipc × List (List Char)))
    (named : Named (regularFiles files .realmPrime)) :
    getInfo files .realmPrime badFiles = some (
      [groups (meanEntries (runs files .realmPrime (blockingNames files .realmPrime))),
        groups (meanEntries (runs files .realmPrime (nonblockingNames files .realmPrime)))],
      badFiles) := by
  have first := collect_realmPrime files badFiles
    fun path member => named path (mem_regularFiles.mpr (Or.inl member))
  have second := collect_realmPrime files badFiles
    fun path member => named path (mem_regularFiles.mpr (Or.inr member))
  simp only [blockingNames, nonblockingNames] at first second ⊢
  simp [getInfo, first, second, fixKeys_eq, meanEntries]

theorem runBenchmarks_inv (ran : runBenchmarks files folders = some after) :
    ∃ blockingMap nonblockingMap between folder,
      parseResultMap (groups (meanEntries (runs files .realmPrime
        (blockingNames files .realmPrime)))) = some blockingMap ∧
      dumpData blockingMap true (folders .realmPrime) = some between ∧
      parseResultMap (groups (meanEntries (runs files .realmPrime
        (nonblockingNames files .realmPrime)))) = some nonblockingMap ∧
      dumpData nonblockingMap false between = some folder ∧
      after = Function.update folders .realmPrime folder := by
  by_cases named : Named (regularFiles files .realmPrime)
  · simp only [runBenchmarks, ipcs, List.foldlM_cons, List.foldlM_nil, getInfo_realmPrime [] named,
      dumpMaps, Option.bind_eq_bind, Option.bind_eq_some_iff, Option.pure_def, Option.some.injEq,
      Option.bind_some] at ran
    obtain ⟨state, ⟨inner, ⟨folder, ⟨blockingMap, parsed, between, dumped, nonblockingMap, parsed',
      last, dumped', rfl⟩, rfl⟩, rfl⟩, rfl⟩ := ran
    exact ⟨blockingMap, nonblockingMap, between, last, parsed, dumped, parsed', dumped', rfl⟩
  · simp only [Named, not_forall, ne_eq, not_not] at named
    obtain ⟨path, member, unnamed⟩ := named
    simp [runBenchmarks, ipcs, getInfo_unnamed member unnamed] at ran

theorem Results.keeps.batch (keeps : results.keeps (folders .realmPrime))
    (ran : runBenchmarks files folders = some after) :
    (results.batch files).keeps (after .realmPrime) := by
  obtain ⟨_, _, between, folder, parsed, dumped, parsed', dumped', rfl⟩ := runBenchmarks_inv ran
  have first := keeps.dump parsed dumped
  have second := first.dump parsed' dumped'
  simp only [valuesOf_meanEntries] at second
  rw [Function.update_self]
  exact second

theorem Clean.batch (clean : ∀ ipc, Clean (folders ipc))
    (ran : runBenchmarks files folders = some after) (ipc : Ipc) : Clean (after ipc) := by
  obtain ⟨_, _, between, folder, parsed, dumped, parsed', dumped', rfl⟩ := runBenchmarks_inv ran
  by_cases here : ipc = .realmPrime
  · subst here
    rw [Function.update_self]
    exact ((clean .realmPrime).dump parsed dumped).dump parsed' dumped'
  · rw [Function.update_of_ne here]
    exact clean ipc

end Batch

/-! Reading. -/

section Reading

variable {folder : ResultFolder} {names : List (List Char)}

theorem convertData_jsonDump (data : List (ℚ × ℚ)) : convertData (jsonDump data) = some (curve data) := by
  have column : ∀ (index : Nat) (take : ℚ × ℚ → ℚ),
      (∀ pair : ℚ × ℚ, [pair.1, pair.2][index]? = some (take pair)) →
      (data.map fun pair => [pair.1, pair.2]).mapM (fun item => item[index]?) =
        some (data.map take) := by
    intro index take taken
    induction data with
    | nil => rfl
    | cons first data ih => simp [taken, ih]
  rw [jsonDump, convertData, column 0 Prod.fst fun _ => rfl, column 1 Prod.snd fun _ => rfl]
  rfl

theorem averages_jsonDump (data : List (ℚ × ℚ)) : (jsonDump data).averages = data := by
  rw [jsonDump, Document.averages, List.map_map]
  exact List.map_id _

theorem Clean.stored (clean : Clean folder) : (Results.stored folder).keeps folder := by
  intro block size label known
  rw [Results.stored, known, Option.bind_some, Option.map_map]
  cases stored : folder.read (jsonName label block) with
  | none => rfl
  | some document =>
      obtain ⟨_, data, rfl⟩ := clean _ document stored
      rw [Option.map_some, Function.comp_apply, averages_jsonDump]

theorem readSet_eq (folder : ResultFolder) (dataSet : List (List Char)) :
    readSet folder dataSet = scan getSizeInfoFilename readData convertData folder dataSet := by
  have steps : (fun (statMap : StatMap) filename =>
      match folder.read filename with
      | none => some statMap
      | some document => readStats filename document statMap) =
        scanName getSizeInfoFilename readData convertData folder := by
    funext statMap filename
    unfold scanName
    cases folder.read filename <;> rfl
  rw [readSet, scan, ← steps]

theorem Clean.readable (clean : Clean folder) :
    Readable getSizeInfoFilename readData convertData folder where
  keyed := by
    intro name stored
    obtain ⟨document, stored⟩ := Option.ne_none_iff_exists'.mp stored
    obtain ⟨⟨stem, rfl, dot, line⟩, _⟩ := clean name document stored
    rw [getSizeInfoFilename_stem dot line]
    exact Option.some_ne_none stem
  decodes := by
    intro name document stored
    obtain ⟨_, data, rfl⟩ := clean name document stored
    exact ⟨jsonDump data, curve data, rfl, convertData_jsonDump data⟩
  apart := by
    intro name other stored stored' same
    obtain ⟨document, stored⟩ := Option.ne_none_iff_exists'.mp stored
    obtain ⟨document', stored'⟩ := Option.ne_none_iff_exists'.mp stored'
    obtain ⟨⟨stem, rfl, dot, line⟩, _⟩ := clean name document stored
    obtain ⟨⟨stem', rfl, dot', line'⟩, _⟩ := clean other document' stored'
    rw [getSizeInfoFilename_stem dot line, getSizeInfoFilename_stem dot' line'] at same
    rw [Option.some.inj same]

def kind (names : List (List Char)) (block : Bool) : List (List Char) :=
  names.filter fun name => isBlockingFile name = block

def statMapOf (folder : ResultFolder) (names : List (List Char)) (block : Bool) : StatMap :=
  (kind names block).filterMap (item getSizeInfoFilename readData convertData folder)

theorem Clean.readInfo_eq (clean : Clean folder) (nodup : names.Nodup) :
    readInfo folder names = some (statMapOf folder names true, statMapOf folder names false) := by
  have split : splitList names isBlockingFile = (kind names true, kind names false) := by
    simp [splitList, kind]
  have read : ∀ block, readSet folder (kind names block) = some (statMapOf folder names block) := by
    intro block
    rw [readSet_eq]
    exact clean.readable.scan_eq (nodup.filter _)
  rw [readInfo, split]
  simp only [read, Option.bind_eq_bind, Option.bind_some, Option.pure_def]

theorem Clean.lookup_statMapOf (clean : Clean folder) (lists : folder.Lists names) (block : Bool)
    (stem : List Char) :
    (statMapOf folder names block).lookup stem =
      if isBlockingFile (stem ++ ".json".toList) = block then
        (folder.read (stem ++ ".json".toList)).bind convertData
      else none := by
  apply Option.ext
  intro value
  rw [statMapOf, kind, clean.readable.lookup_iff (lists.nodup.filter _)]
  constructor
  · rintro ⟨name, member, keyed, document, content, stored, loaded, decoded⟩
    obtain ⟨⟨stem', rfl, dot, line⟩, data, rfl⟩ := clean name document stored
    rw [getSizeInfoFilename_stem dot line] at keyed
    cases keyed
    cases loaded
    have same := of_decide_eq_true (List.mem_filter.mp member).2
    rw [if_pos same, stored]
    exact decoded
  · intro found
    split at found
    · rename_i same
      obtain ⟨document, stored, decoded⟩ := Option.bind_eq_some_iff.mp found
      obtain ⟨⟨stem', equal, dot, line⟩, data, rfl⟩ := clean _ document stored
      obtain rfl := List.append_cancel_right equal
      exact ⟨_, List.mem_filter.mpr ⟨lists.mem stored, decide_eq_true same⟩,
        getSizeInfoFilename_stem dot line, _, _, stored, rfl, decoded⟩
    · cases found

end Reading

/-- Whatever batches of runs have come to their end, the graphs get, in whatever order the
folder is listed, for every size with a label the averages of the last batch that had runs of
this size, by ascending throughput; or else what was in the folder before. -/
theorem results_kept {batches : List Files} {folders after : Ipc → ResultFolder}
    (clean : ∀ ipc, Clean (folders ipc))
    (ran : batches.foldlM (fun folders files => runBenchmarks files folders) folders = some after)
    {names : List (List Char)} (lists : (after .realmPrime).Lists names) :
    ∃ statMaps, readInfo (after .realmPrime) names = some statMaps ∧
      ∀ block size label, labelMap.lookup size = some label →
        (if block then statMaps.1 else statMaps.2).lookup (label ++ addendum block) =
          (batches.foldl Results.batch (.stored (folders .realmPrime)) block size).map curve := by
  have kept : ∀ results : Results, results.keeps (folders .realmPrime) →
      (∀ ipc, Clean (after ipc)) ∧ (batches.foldl Results.batch results).keeps (after .realmPrime) := by
    clear lists
    induction batches generalizing folders with
    | nil =>
        cases ran
        exact fun results keeps => ⟨clean, keeps⟩
    | cons files batches ih =>
        obtain ⟨next, first, rest⟩ := Option.bind_eq_some_iff.mp ran
        exact fun results keeps => ih (Clean.batch clean first) rest _ (keeps.batch first)
  obtain ⟨tidy, keeps⟩ := kept _ (clean .realmPrime).stored
  refine ⟨_, (tidy .realmPrime).readInfo_eq lists.nodup, ?_⟩
  intro block size label known
  have name : label ++ addendum block ++ ".json".toList = jsonName label block := rfl
  have plain := (labelMap_plain _ (mem_of_lookup known)).2.2.2
  have chosen : (if block then statMapOf (after .realmPrime) names true
      else statMapOf (after .realmPrime) names false) = statMapOf (after .realmPrime) names block := by
    cases block <;> rfl
  rw [chosen, (tidy .realmPrime).lookup_statMapOf lists, name,
    if_pos (isBlockingFile_jsonName plain block), keeps block size label known]
  cases batches.foldl Results.batch (.stored (folders .realmPrime)) block size with
  | none => rfl
  | some data => exact convertData_jsonDump data

def labelled (data : Option (List (ℚ × ℚ))) : Ipc → ResultFolder :=
  Function.update (fun _ _ => none) .realmPrime
    (Function.update (fun _ => none) (jsonName "128 B".toList false)
      (data.map fun data => .file (jsonDump data)))

def twoRates (slow fast : List Char) : Files where
  pathMap _ := ['n', 'e', 'w']
  listdir _ := [['1', '2', '8', '_', '2', '0'], ['1', '2', '8', '_', '1', '0']]
  isfile _ := true
  read path := if path = ['n', 'e', 'w', '/', '1', '2', '8', '_', '1', '0'] then slow else fast

section TwoRates

variable {slow fast : List Char}

theorem sorted_twoRates (ordered : (parseOutput id slow).1 < (parseOutput id fast).1) :
    [parseOutput id fast, parseOutput id slow].mergeSort byFirst =
      [parseOutput id slow, parseOutput id fast] := by
  simp [List.mergeSort, List.MergeSort.Internal.splitInTwo, byFirst, not_le.mpr ordered]

theorem runs_twoRates : runs (twoRates slow fast) .realmPrime
    (nonblockingNames (twoRates slow fast) .realmPrime) =
      [((128, 20), parseOutput id fast), ((128, 10), parseOutput id slow)] := rfl

theorem mean_one (run : ℚ × ℚ) : getAveragePerElement [run] = run := by
  simp [getAveragePerElement]

theorem runBenchmarks_twoRates (data : Option (List (ℚ × ℚ)))
    (ordered : (parseOutput id slow).1 < (parseOutput id fast).1) :
    runBenchmarks (twoRates slow fast) (labelled data) =
      some (labelled (some [parseOutput id slow, parseOutput id fast])) := by
  have named : Named (regularFiles (twoRates slow fast) .realmPrime) := by
    have all : regularFiles (twoRates slow fast) .realmPrime =
        [['n', 'e', 'w', '/', '1', '2', '8', '_', '2', '0'],
          ['n', 'e', 'w', '/', '1', '2', '8', '_', '1', '0']] := rfl
    rw [Named, all]
    decide
  have none : runs (twoRates slow fast) .realmPrime
      (blockingNames (twoRates slow fast) .realmPrime) = [] := rfl
  have entries : meanEntries [((128, 20), parseOutput id fast), ((128, 10), parseOutput id slow)] =
      [(128, getAveragePerElement [parseOutput id fast]),
        (128, getAveragePerElement [parseOutput id slow])] := rfl
  have first : parseResultMap (groups (meanEntries [])) = some [] := by
    simp [parseResultMap, meanEntries, firsts, groups]
  have second : parseResultMap (groups [(128, parseOutput id fast), (128, parseOutput id slow)]) =
      some [("128 B".toList, [parseOutput id slow, parseOutput id fast])] := by
    have grouped : groups [(128, parseOutput id fast), (128, parseOutput id slow)] =
        [(128, [parseOutput id fast, parseOutput id slow])] := rfl
    have known : labelMap.lookup 128 = some "128 B".toList := by decide
    simp [parseResultMap, grouped, known, sorted_twoRates ordered]
  simp only [runBenchmarks, ipcs, List.foldlM_cons, List.foldlM_nil, getInfo_realmPrime [] named,
    none, runs_twoRates, entries, mean_one, dumpMaps, first, second, Option.bind_eq_bind,
    Option.bind_some, Option.pure_def]
  cases data <;> simp [dumpData, Folder.write, labelled]

theorem batch_twoRates (results : Results)
    (ordered : (parseOutput id slow).1 < (parseOutput id fast).1) :
    results.batch (twoRates slow fast) false 128 =
      some [parseOutput id slow, parseOutput id fast] := by
  have means : meansOf [((128, 20), parseOutput id fast), ((128, 10), parseOutput id slow)] 128 =
      [getAveragePerElement [parseOutput id fast], getAveragePerElement [parseOutput id slow]] := rfl
  rw [Results.batch, Results.note, runs_twoRates, means, if_pos ⟨rfl, List.cons_ne_nil _ _⟩,
    mean_one, mean_one, sorted_twoRates ordered]

end TwoRates

theorem labelled_lists (data : List (ℚ × ℚ)) :
    (labelled (some data) .realmPrime).Lists [jsonName "128 B".toList false] where
  nodup := List.nodup_singleton _
  mem_iff := by
    intro name
    rw [List.mem_singleton, labelled, Function.update_self]
    constructor
    · rintro rfl
      rw [Function.update_self]
      exact Option.some_ne_none _
    · intro there
      by_contra other
      rw [Function.update_of_ne other] at there
      exact there rfl

/-- In the second of two batches the run of the lower rate has failed. -/
theorem results_kept_again : ∃ after statMaps,
    [twoRates "Message rate: 20\nLatency = 0.50".toList
        "Message rate: 30\nLatency = 1.25".toList,
      twoRates [] "Message rate: 40\nLatency = 2.00".toList].foldlM
        (fun folders files => runBenchmarks files folders) (labelled none) = some after ∧
    readInfo (after .realmPrime) [jsonName "128 B".toList false] = some statMaps ∧
    statMaps.2.lookup "128 B".toList = some ([-1, 40], [-1, 2]) := by
  have first : (parseOutput id "Message rate: 20\nLatency = 0.50".toList).1 <
      (parseOutput id "Message rate: 30\nLatency = 1.25".toList).1 := by
    decide +kernel
  have failed : parseOutput id [] = failedRun := rfl
  have fast : parseOutput id "Message rate: 40\nLatency = 2.00".toList = (40, 2) := by
    decide +kernel
  have second : (parseOutput id []).1 <
      (parseOutput id "Message rate: 40\nLatency = 2.00".toList).1 := by
    decide +kernel
  have clean : ∀ ipc, Clean (labelled none ipc) := by
    intro ipc name document there
    cases ipc <;> simp [labelled, Folder.read] at there
  have ran : [twoRates "Message rate: 20\nLatency = 0.50".toList
        "Message rate: 30\nLatency = 1.25".toList,
      twoRates [] "Message rate: 40\nLatency = 2.00".toList].foldlM
        (fun folders files => runBenchmarks files folders) (labelled none) =
      some (labelled (some [(-1, -1), (40, 2)])) := by
    rw [List.foldlM_cons, runBenchmarks_twoRates none first, Option.bind_eq_bind,
      Option.bind_some, List.foldlM_cons, runBenchmarks_twoRates _ second, failed, fast]
    rfl
  obtain ⟨statMaps, read, shown⟩ := results_kept clean ran (labelled_lists _)
  refine ⟨_, statMaps, ran, read, (shown false 128 "128 B".toList (by decide)).trans ?_⟩
  rw [List.foldl_cons, List.foldl_cons, List.foldl_nil, batch_twoRates _ second, failed, fast]
  rfl

end IpcBench
