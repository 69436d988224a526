import Mathlib.Data.List.Induction
import Mathlib.Data.List.Nodup

/-!
Dictionaries from keys to lists: they keep the order in which their keys came.
-/

namespace Grouping

variable {Key Value Other : Type} [DecidableEq Key] [DecidableEq Other]

def lookup (groups : List (Key × List Value)) (key : Key) : List Value :=
  ((groups.find? fun group => group.1 = key).map Prod.snd).getD []

def push (groups : List (Key × List Value)) (key : Key) (value : Value) : List (Key × List Value) :=
  if key ∈ groups.map Prod.fst then
    groups.map fun group => if group.1 = key then (key, group.2 ++ [value]) else group
  else groups ++ [(key, [value])]

def groups (entries : List (Key × Value)) : List (Key × List Value) :=
  entries.foldl (fun groups entry => push groups entry.1 entry.2) []

def firsts (keys : List Key) : List Key :=
  keys.foldl (fun seen key => if key ∈ seen then seen else seen ++ [key]) []

def valuesOf (key : Key) (entries : List (Key × Value)) : List Value :=
  (entries.filter fun entry => entry.1 = key).map Prod.snd

section Firsts

variable {keys : List Key}

theorem firsts_append (keys : List Key) (key : Key) :
    firsts (keys ++ [key]) = if key ∈ firsts keys then firsts keys else firsts keys ++ [key] := by
  rw [firsts, List.foldl_append]
  rfl

theorem mem_firsts {key : Key} : key ∈ firsts keys ↔ key ∈ keys := by
  induction keys using List.reverseRecOn with
  | nil => rfl
  | append_singleton keys last ih =>
      rw [firsts_append]
      split
      · rename_i old
        rw [ih, List.mem_append, List.mem_singleton]
        constructor
        · exact Or.inl
        · rintro (before | rfl)
          · exact before
          · exact ih.mp old
      · rw [List.mem_append, ih, List.mem_append]

theorem firsts_nodup (keys : List Key) : (firsts keys).Nodup := by
  induction keys using List.reverseRecOn with
  | nil => exact List.nodup_nil
  | append_singleton keys last ih =>
      rw [firsts_append]
      split
      · exact ih
      · rename_i new
        rw [List.nodup_append]
        refine ⟨ih, List.nodup_singleton last, ?_⟩
        intro key member other single same
        rw [List.mem_singleton] at single
        subst single same
        exact new member

theorem firsts_map {rename : Key → Other} (injective : Function.Injective rename)
    (keys : List Key) : firsts (keys.map rename) = (firsts keys).map rename := by
  induction keys using List.reverseRecOn with
  | nil => rfl
  | append_singleton keys last ih =>
      rw [List.map_append, List.map_singleton, firsts_append, firsts_append, ih]
      by_cases old : last ∈ firsts keys
      · rw [if_pos old, if_pos ((List.mem_map_of_injective injective).mpr old)]
      · rw [if_neg old, if_neg fun renamed => old ((List.mem_map_of_injective injective).mp renamed),
          List.map_append, List.map_singleton]

end Firsts

section Groups

variable {entries : List (Key × Value)}

theorem valuesOf_append (key : Key) (entries : List (Key × Value)) (last : Key × Value) :
    valuesOf key (entries ++ [last]) =
      if last.1 = key then valuesOf key entries ++ [last.2] else valuesOf key entries := by
  unfold valuesOf
  rw [List.filter_append]
  split
  · rename_i same
    simp [same]
  · rename_i other
    simp [other]

theorem valuesOf_eq_nil {key : Key} (absent : key ∉ entries.map Prod.fst) :
    valuesOf key entries = [] := by
  rw [valuesOf, List.map_eq_nil_iff, List.filter_eq_nil_iff]
  intro entry member same
  rw [decide_eq_true_eq] at same
  subst same
  exact absent (List.mem_map_of_mem member)

/-- Grouping keeps the values of each key together. -/
theorem groups_eq (entries : List (Key × Value)) :
    groups entries = (firsts (entries.map Prod.fst)).map fun key => (key, valuesOf key entries) := by
  induction entries using List.reverseRecOn with
  | nil => rfl
  | append_singleton entries last ih =>
      obtain ⟨key, value⟩ := last
      have grown : groups (entries ++ [(key, value)]) = push (groups entries) key value := by
        rw [groups, List.foldl_append]
        rfl
      have keys : (groups entries).map Prod.fst = firsts (entries.map Prod.fst) := by
        rw [ih, List.map_map]
        exact List.map_id _
      rw [grown, push, keys, List.map_append, List.map_singleton, firsts_append]
      split
      · rw [ih, List.map_map]
        apply List.map_congr_left
        intro other _
        rw [valuesOf_append]
        by_cases same : other = key
        · subst same
          simp
        · simp [same, Ne.symm same]
      · rename_i new
        have none : valuesOf key entries = [] := valuesOf_eq_nil fun member => new (mem_firsts.mpr member)
        rw [List.map_append, List.map_singleton, ih, valuesOf_append]
        congr 1
        · apply List.map_congr_left
          intro other member
          have different : key ≠ other := by
            rintro rfl
            exact new member
          rw [valuesOf_append, if_neg different]
        · simp [none]

theorem groups_nodup (entries : List (Key × Value)) :
    ((groups entries).map Prod.fst).Nodup := by
  have keys : (groups entries).map Prod.fst = firsts (entries.map Prod.fst) := by
    rw [groups_eq, List.map_map]
    exact List.map_id _
  rw [keys]
  exact firsts_nodup _

theorem mem_groups {key : Key} {values : List Value} :
    (key, values) ∈ groups entries ↔ values = valuesOf key entries ∧ values ≠ [] := by
  rw [groups_eq, List.mem_map]
  constructor
  · rintro ⟨found, member, same⟩
    cases same
    refine ⟨rfl, ?_⟩
    obtain ⟨entry, inside, rfl⟩ := List.mem_map.mp (mem_firsts.mp member)
    apply @List.ne_nil_of_mem _ entry.2
    exact List.mem_map_of_mem (List.mem_filter.mpr ⟨inside, decide_eq_true rfl⟩)
  · rintro ⟨rfl, nonempty⟩
    refine ⟨key, ?_, rfl⟩
    rw [mem_firsts]
    by_contra absent
    exact nonempty (valuesOf_eq_nil absent)

theorem find?_key {keys : List Key} {key : Key} (member : key ∈ keys) :
    keys.find? (fun other => other = key) = some key := by
  induction keys with
  | nil => cases member
  | cons first keys ih =>
      by_cases same : first = key
      · simp [same]
      · rw [List.find?_cons_of_neg (by simpa using same)]
        exact ih ((List.mem_cons.mp member).resolve_left (Ne.symm same))

theorem lookup_groups (entries : List (Key × Value)) (key : Key) :
    lookup (groups entries) key = valuesOf key entries := by
  rw [groups_eq, lookup, List.find?_map]
  by_cases member : key ∈ firsts (entries.map Prod.fst)
  · have found : (firsts (entries.map Prod.fst)).find?
        ((fun group => decide (group.1 = key)) ∘ fun other => (other, valuesOf other entries)) =
          some key := find?_key member
    rw [found]
    rfl
  · have none : valuesOf key entries = [] :=
      valuesOf_eq_nil fun inside => member (mem_firsts.mpr inside)
    rw [none, List.find?_eq_none.mpr]
    · rfl
    · rintro other inside same
      simp only [Function.comp_apply, decide_eq_true_eq] at same
      subst same
      exact member inside

theorem valuesOf_map {rename : Key → Other} (injective : Function.Injective rename) (key : Key)
    (entries : List (Key × Value)) :
    valuesOf (rename key) (entries.map fun entry => (rename entry.1, entry.2)) =
      valuesOf key entries := by
  simp only [valuesOf, List.filter_map, List.map_map, Function.comp_def, injective.eq_iff]

end Groups

end Grouping
