import Mathlib.Data.List.Nodup
import Mathlib.Logic.Function.Basic

/-!
Folders of named documents: writing documents over old ones, and reading all of them into a
dictionary, in whatever order the folder is listed.
-/

namespace Folders

inductive Entry (Document : Type)
  | file (document : Document)
  | folder

abbrev Folder (Name Document : Type) := Name → Option (Entry Document)

section Dictionaries

variable {Key Value : Type} {dictionary : List (Key × Value)} {key : Key} {value : Value}

def putNew [DecidableEq Key] (key : Key) (value : Option Value) (dictionary : List (Key × Value)) :
    Option (List (Key × Value)) :=
  if key ∈ dictionary.map Prod.fst then some dictionary
  else value.map fun value => dictionary ++ [(key, value)]

def put [DecidableEq Key] (key : Key) (value : Value) (dictionary : List (Key × Value)) :
    List (Key × Value) :=
  if key ∈ dictionary.map Prod.fst then
    dictionary.map fun entry => if entry.1 = key then (key, value) else entry
  else dictionary ++ [(key, value)]

theorem put_new [DecidableEq Key] (value : Value) (new : key ∉ dictionary.map Prod.fst) :
    put key value dictionary = dictionary ++ [(key, value)] :=
  if_neg new

variable [BEq Key] [LawfulBEq Key]

theorem lookup_later {first : Key × Value} (other : key ≠ first.1) :
    (first :: dictionary).lookup key = dictionary.lookup key := by
  obtain ⟨here, stored⟩ := first
  rw [List.lookup_cons, beq_eq_false_iff_ne.mpr other]

theorem mem_of_lookup (found : dictionary.lookup key = some value) : (key, value) ∈ dictionary := by
  obtain ⟨front, back, rfl, _⟩ := List.lookup_eq_some_iff.mp found
  exact List.mem_append_right front List.mem_cons_self

theorem lookup_eq_none (absent : key ∉ dictionary.map Prod.fst) : dictionary.lookup key = none := by
  rw [List.lookup_eq_none_iff]
  intro entry member
  rw [bne_iff_ne]
  rintro rfl
  exact absent (List.mem_map_of_mem member)

theorem lookup_of_mem (nodup : (dictionary.map Prod.fst).Nodup) (member : (key, value) ∈ dictionary) :
    dictionary.lookup key = some value := by
  induction dictionary with
  | nil => cases member
  | cons first rest ih =>
      rw [List.map_cons, List.nodup_cons] at nodup
      rcases List.mem_cons.mp member with rfl | later
      · exact List.lookup_cons_self
      · have other : key ≠ first.1 := by
          intro same
          apply nodup.1
          rw [← same]
          exact List.mem_map_of_mem later
        rw [lookup_later other]
        exact ih nodup.2 later

theorem lookup_eq_some_iff (nodup : (dictionary.map Prod.fst).Nodup) :
    dictionary.lookup key = some value ↔ (key, value) ∈ dictionary :=
  ⟨mem_of_lookup, lookup_of_mem nodup⟩

theorem lookup_filter (wanted : Key → Bool) :
    (dictionary.filter fun entry => wanted entry.1).lookup key =
      if wanted key then dictionary.lookup key else none := by
  induction dictionary with
  | nil => simp
  | cons first rest ih =>
      obtain ⟨here, stored⟩ := first
      by_cases same : key = here
      · subst same
        by_cases asked : wanted key = true
        · simp [asked]
        · simpa [asked] using ih
      · rw [lookup_later same]
        rw [List.filter_cons]
        split
        · rw [lookup_later same, ih]
        · exact ih

end Dictionaries

section Folder

variable {Name Document : Type} {folder after : Folder Name Document} {name other : Name}
  {document : Document}

namespace Folder

def read (folder : Folder Name Document) (name : Name) : Option Document :=
  match folder name with
  | some (.file document) => some document
  | _ => none

/-- A listing names every entry once, in any order. -/
structure Lists (folder : Folder Name Document) (names : List Name) : Prop where
  nodup : names.Nodup
  mem_iff : ∀ name, name ∈ names ↔ folder name ≠ none

theorem Lists.mem {names : List Name} (lists : folder.Lists names)
    (stored : folder.read name = some document) : name ∈ names := by
  rw [lists.mem_iff]
  intro absent
  rw [Folder.read, absent] at stored
  cases stored

variable [DecidableEq Name]

/-- A document is not written over a folder. -/
def write (folder : Folder Name Document) (name : Name) (document : Document) :
    Option (Folder Name Document) :=
  match folder name with
  | some .folder => none
  | _ => some (Function.update folder name (some (.file document)))

theorem write_inv (written : folder.write name document = some after) :
    after = Function.update folder name (some (.file document)) := by
  unfold write at written
  split at written
  · cases written
  · exact (Option.some.inj written).symm

theorem read_write (written : folder.write name document = some after) :
    after.read other = if other = name then some document else folder.read other := by
  rw [write_inv written]
  split
  · rename_i same
    rw [same, Folder.read, Function.update_self]
  · rename_i different
    rw [Folder.read, Function.update_of_ne different, Folder.read]

def writeAll (folder : Folder Name Document) (entries : List (Name × Document)) :
    Option (Folder Name Document) :=
  entries.foldlM (fun folder entry => folder.write entry.1 entry.2) folder

/-- What is written is there, and the rest is as before. -/
theorem read_writeAll [BEq Name] [LawfulBEq Name] {entries : List (Name × Document)}
    (nodup : (entries.map Prod.fst).Nodup) (written : folder.writeAll entries = some after) :
    after.read name = (entries.lookup name).or (folder.read name) := by
  induction entries generalizing folder with
  | nil =>
      cases written
      rfl
  | cons first rest ih =>
      obtain ⟨next, here, later⟩ := Option.bind_eq_some_iff.mp written
      rw [List.map_cons, List.nodup_cons] at nodup
      rw [ih nodup.2 later, read_write here]
      by_cases same : name = first.1
      · obtain ⟨here, stored⟩ := first
        subst same
        simp [lookup_eq_none nodup.1]
      · rw [lookup_later same, if_neg same]

theorem read_writeAll_all {entries : List (Name × Document)}
    (written : folder.writeAll entries = some after) {Holds : Name → Document → Prop}
    (old : ∀ name document, folder.read name = some document → Holds name document)
    (new : ∀ entry ∈ entries, Holds entry.1 entry.2) :
    ∀ name document, after.read name = some document → Holds name document := by
  induction entries generalizing folder with
  | nil =>
      cases written
      exact old
  | cons first rest ih =>
      obtain ⟨next, here, later⟩ := Option.bind_eq_some_iff.mp written
      refine ih later ?_ fun entry member => new entry (List.mem_cons_of_mem first member)
      intro name document stored
      rw [read_write here] at stored
      split at stored
      · rename_i same
        cases stored
        rw [same]
        exact new first List.mem_cons_self
      · exact old name document stored

end Folder

/-! Reading a folder. -/

section Scan

variable {Key Content Value : Type} [DecidableEq Key] (keyOf : Name → Option Key)
  (load : Document → Option Content) (decode : Content → Option Value)

def scanName (folder : Folder Name Document) (dictionary : List (Key × Value)) (name : Name) :
    Option (List (Key × Value)) :=
  match folder.read name with
  | none => some dictionary
  | some document => do
      let key ← keyOf name
      let content ← load document
      putNew key (decode content) dictionary

def scan (folder : Folder Name Document) (names : List Name) : Option (List (Key × Value)) :=
  names.foldlM (scanName keyOf load decode folder) []

def item (folder : Folder Name Document) (name : Name) : Option (Key × Value) := do
  let document ← folder.read name
  let key ← keyOf name
  let content ← load document
  let value ← decode content
  return (key, value)

/-- Every document can be decoded, and no two have the same key. -/
structure Readable (folder : Folder Name Document) : Prop where
  keyed : ∀ name, folder.read name ≠ none → keyOf name ≠ none
  decodes : ∀ name document, folder.read name = some document →
    ∃ content value, load document = some content ∧ decode content = some value
  apart : ∀ name other, folder.read name ≠ none → folder.read other ≠ none →
    keyOf name = keyOf other → name = other

variable {keyOf load decode} {names : List Name} {key : Key} {value : Value}

omit [DecidableEq Key] in
theorem item_eq_some : item keyOf load decode folder name = some (key, value) ↔
    keyOf name = some key ∧ ∃ document content, folder.read name = some document ∧
      load document = some content ∧ decode content = some value := by
  simp only [item, Option.bind_eq_bind, Option.bind_eq_some_iff, Option.pure_def,
    Option.some.injEq, Prod.mk.injEq]
  constructor
  · rintro ⟨document, stored, found, keyed, content, loaded, result, decoded, rfl, rfl⟩
    exact ⟨keyed, document, content, stored, loaded, decoded⟩
  · rintro ⟨keyed, document, content, stored, loaded, decoded⟩
    exact ⟨document, stored, key, keyed, content, loaded, value, decoded, rfl, rfl⟩

omit [DecidableEq Key] in
theorem Readable.keys_nodup (readable : Readable keyOf load decode folder) (nodup : names.Nodup) :
    ((names.filterMap (item keyOf load decode folder)).map Prod.fst).Nodup := by
  induction names with
  | nil => exact List.nodup_nil
  | cons first rest ih =>
      rw [List.nodup_cons] at nodup
      cases found : item keyOf load decode folder first with
      | none =>
          rw [List.filterMap_cons_none found]
          exact ih nodup.2
      | some entry =>
          rw [List.filterMap_cons_some found, List.map_cons, List.nodup_cons]
          refine ⟨?_, ih nodup.2⟩
          intro again
          obtain ⟨twin, listed, same⟩ := List.mem_map.mp again
          obtain ⟨name, member, read⟩ := List.mem_filterMap.mp listed
          obtain ⟨key, document, _, stored, _⟩ := item_eq_some.mp found
          obtain ⟨key', document', _, stored', _⟩ := item_eq_some.mp read
          have equal : name = first := by
            apply readable.apart name first
            · simp [stored']
            · simp [stored]
            · rw [key, key', same]
          rw [equal] at member
          exact nodup.1 member

theorem Readable.scan_eq (readable : Readable keyOf load decode folder) (nodup : names.Nodup) :
    scan keyOf load decode folder names =
      some (names.filterMap (item keyOf load decode folder)) := by
  have keys := readable.keys_nodup nodup
  suffices grows : ∀ before, ((before ++ names.filterMap (item keyOf load decode folder)).map
      Prod.fst).Nodup → names.foldlM (scanName keyOf load decode folder) before =
        some (before ++ names.filterMap (item keyOf load decode folder)) by
    exact grows [] keys
  clear keys nodup
  induction names with
  | nil =>
      intro before _
      simp
  | cons first rest ih =>
      intro before nodup
      rw [List.foldlM_cons]
      cases stored : folder.read first with
      | none =>
          have none : item keyOf load decode folder first = none := by simp [item, stored]
          rw [List.filterMap_cons_none none] at nodup ⊢
          simp only [scanName, stored, Option.bind_eq_bind, Option.bind_some]
          exact ih before nodup
      | some document =>
          obtain ⟨key, keyed⟩ := Option.ne_none_iff_exists'.mp
            (readable.keyed first (by simp [stored]))
          obtain ⟨content, value, loaded, decoded⟩ := readable.decodes first document stored
          have one : item keyOf load decode folder first = some (key, value) :=
            item_eq_some.mpr ⟨keyed, document, content, stored, loaded, decoded⟩
          rw [List.filterMap_cons_some one] at nodup ⊢
          rw [List.append_cons] at nodup ⊢
          have new : key ∉ before.map Prod.fst := by
            intro old
            rw [List.map_append, List.map_append, List.nodup_append] at nodup
            have split := (List.nodup_append.mp nodup.1).2.2
            exact split key old key (by simp) rfl
          have put : scanName keyOf load decode folder before first =
              some (before ++ [(key, value)]) := by
            simp [scanName, stored, keyed, loaded, decoded, putNew, new]
          rw [put]
          exact ih (before ++ [(key, value)]) nodup

omit [DecidableEq Key] in
theorem Readable.lookup_iff [BEq Key] [LawfulBEq Key]
    (readable : Readable keyOf load decode folder) (nodup : names.Nodup) :
    (names.filterMap (item keyOf load decode folder)).lookup key = some value ↔
      ∃ name ∈ names, keyOf name = some key ∧ ∃ document content,
        folder.read name = some document ∧ load document = some content ∧
          decode content = some value := by
  rw [lookup_eq_some_iff (readable.keys_nodup nodup), List.mem_filterMap]
  constructor
  · rintro ⟨name, member, found⟩
    exact ⟨name, member, item_eq_some.mp found⟩
  · rintro ⟨name, member, found⟩
    exact ⟨name, member, item_eq_some.mpr found⟩

end Scan

end Folder

end Folders
