/-!
The descriptors of a process: a table in which a new descriptor takes the lowest free
number, and what the socket calls leave behind in it.
-/

namespace Descriptors

structure Socket (Address : Type) where
  bound : Option Address
  connected : Option Address
  listening : Bool
deriving DecidableEq, Repr

def Socket.fresh {Address : Type} : Socket Address where
  bound := none
  connected := none
  listening := false

inductive Entry (Address : Type)
  | file
  | socket (socket : Socket Address)
deriving DecidableEq, Repr

abbrev Table (Address : Type) := List (Option (Entry Address))

variable {Address : Type}

namespace Table

/-- Calls take a C int; a negative one is no descriptor. -/
def lookup (table : Table Address) (descriptor : Int) : Option (Entry Address) :=
  if descriptor < 0 then none else table[descriptor.toNat]?.join

def put (table : Table Address) (descriptor : Int) (entry : Option (Entry Address)) :
    Table Address :=
  if descriptor < 0 then table else table.set descriptor.toNat entry

def take (entry : Entry Address) : Table Address → Nat × Table Address
  | [] => (0, [some entry])
  | none :: rest => (0, some entry :: rest)
  | some used :: rest => ((take entry rest).1 + 1, some used :: (take entry rest).2)

def close (table : Table Address) (descriptor : Int) : Table Address :=
  table.put descriptor none

def socket (table : Table Address) (succeeds : Bool) : Int × Table Address :=
  if succeeds then ((take (.socket .fresh) table).1, (take (.socket .fresh) table).2)
  else (-1, table)

/-- A call that changes a socket and returns 0, or fails with -1, which it does on
anything that is no socket. -/
def change (table : Table Address) (descriptor : Int) (update : Socket Address → Socket Address)
    (succeeds : Bool) : Int × Table Address :=
  match table.lookup descriptor with
  | some (.socket socket) =>
      if succeeds then (0, table.put descriptor (some (.socket (update socket)))) else (-1, table)
  | _ => (-1, table)

def bind (table : Table Address) (descriptor : Int) (address : Address) (succeeds : Bool) :
    Int × Table Address :=
  table.change descriptor (fun socket => { socket with bound := some address }) succeeds

def connect (table : Table Address) (descriptor : Int) (address : Address) (succeeds : Bool) :
    Int × Table Address :=
  table.change descriptor (fun socket => { socket with connected := some address }) succeeds

def listen (table : Table Address) (descriptor : Int) (succeeds : Bool) : Int × Table Address :=
  table.change descriptor (fun socket => { socket with listening := true }) succeeds

def option (table : Table Address) (descriptor : Int) (succeeds : Bool) : Int :=
  (table.change descriptor id succeeds).1

section Take

variable (entry : Entry Address) (table : Table Address)

theorem take_free : table[(take entry table).1]?.join = none := by
  induction table with
  | nil => rfl
  | cons first rest ih =>
      cases first with
      | none => rfl
      | some used => simpa [take] using ih

theorem take_taken : (take entry table).2[(take entry table).1]? = some (some entry) := by
  induction table with
  | nil => rfl
  | cons first rest ih =>
      cases first with
      | none => rfl
      | some used => simpa [take] using ih

theorem take_other {number : Nat} (other : number ≠ (take entry table).1) :
    (take entry table).2[number]?.join = table[number]?.join := by
  induction table generalizing number with
  | nil =>
      cases number with
      | zero => exact absurd rfl other
      | succ number => rfl
  | cons first rest ih =>
      cases first with
      | none =>
          cases number with
          | zero => exact absurd rfl other
          | succ number => rfl
      | some used =>
          cases number with
          | zero => rfl
          | succ number =>
              simp only [take, List.getElem?_cons_succ]
              apply ih
              intro same
              apply other
              simp [take, same]

end Take

variable {table : Table Address} {descriptor other : Int}

@[simp] theorem lookup_negative : table.lookup (-1) = none := rfl

theorem lookup_nonneg {entry : Entry Address} (found : table.lookup descriptor = some entry) :
    0 ≤ descriptor ∧ descriptor.toNat < table.length := by
  unfold lookup at found
  split at found
  · cases found
  · rename_i nonneg
    refine ⟨by omega, ?_⟩
    apply Nat.lt_of_not_le
    intro beyond
    rw [List.getElem?_eq_none beyond] at found
    cases found

theorem lookup_put (entry : Option (Entry Address)) {old : Entry Address}
    (found : table.lookup descriptor = some old) :
    (table.put descriptor entry).lookup descriptor = entry := by
  obtain ⟨nonneg, inside⟩ := lookup_nonneg found
  simp [lookup, put, Int.not_lt.mpr nonneg, inside]

theorem lookup_put_other (entry : Option (Entry Address)) (different : other ≠ descriptor) :
    (table.put descriptor entry).lookup other = table.lookup other := by
  by_cases negative : descriptor < 0
  · simp [put, negative]
  · by_cases otherNegative : other < 0
    · simp [lookup, otherNegative]
    · have numbers : descriptor.toNat ≠ other.toNat := by omega
      simp [lookup, put, negative, otherNegative, List.getElem?_set_ne numbers]

theorem socket_true {next : Table Address} (opened : table.socket true = (descriptor, next)) :
    0 ≤ descriptor ∧ table.lookup descriptor = none ∧
      next.lookup descriptor = some (.socket .fresh) ∧
      ∀ other, other ≠ descriptor → next.lookup other = table.lookup other := by
  simp only [socket, if_true, Prod.mk.injEq] at opened
  obtain ⟨rfl, rfl⟩ := opened
  have nonneg : ¬((take (.socket .fresh) table).1 : Int) < 0 := by omega
  refine ⟨by omega, ?_, ?_, ?_⟩
  · simp [lookup, nonneg, take_free]
  · simp [lookup, nonneg, take_taken]
  · intro other different
    by_cases negative : other < 0
    · simp [lookup, negative]
    · have numbers : other.toNat ≠ (take (.socket .fresh) table).1 := by omega
      simp [lookup, negative, take_other _ _ numbers]

theorem change_succeeds {socket : Socket Address} (update : Socket Address → Socket Address)
    (found : table.lookup descriptor = some (.socket socket)) :
    ∃ next, table.change descriptor update true = (0, next) ∧
      next.lookup descriptor = some (.socket (update socket)) ∧
      ∀ other, other ≠ descriptor → next.lookup other = table.lookup other := by
  refine ⟨table.put descriptor (some (.socket (update socket))), ?_, ?_, ?_⟩
  · simp [change, found]
  · exact lookup_put _ found
  · intro other different
    exact lookup_put_other _ different

theorem change_fails (update : Socket Address → Socket Address) :
    table.change descriptor update false = (-1, table) := by
  unfold change
  split <;> rfl

theorem option_eq {socket : Socket Address} (succeeds : Bool)
    (found : table.lookup descriptor = some (.socket socket)) :
    table.option descriptor succeeds = if succeeds then 0 else -1 := by
  cases succeeds <;> simp [option, change, found]

theorem option_closed {succeeds : Bool} (closed : table.lookup descriptor = none) :
    table.option descriptor succeeds = -1 := by
  simp [option, change, closed]

end Table

end Descriptors
