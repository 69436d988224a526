import IpcBench.Words

/-!
The transfer helpers `read_from_socket`, `write_to_socket`, `read_from_pipe` and
`write_to_pipe`. All four repeat one system call, `chunk` bytes at a time, until
the limit is reached or a call returns no bytes; a helper call in progress is
kept as the state of that loop.
-/

namespace IpcBench

/-- `struct socketMetaData` and `struct pipeMetaData`. -/
structure MetaData where
  wholeReqs : Nat
  spareBytes : Nat
  totalBytes : Nat
deriving DecidableEq, Repr

def MetaData.zero : MetaData := ⟨0, 0, 0⟩

/-- The loop of a helper between two system calls: `numBytesToRead` or
`numBytesToWrite`, and the bytes moved so far. -/
structure Transfer where
  limit : Nat
  total : Nat
deriving DecidableEq, Repr

namespace Transfer

def start (limit : Nat) : Transfer where
  limit := limit
  total := 0

def request (chunk : Nat) (transfer : Transfer) : Nat :=
  if transfer.limit - transfer.total < chunk then transfer.limit - transfer.total else chunk

def advance (amount : Nat) (transfer : Transfer) : Transfer :=
  { transfer with total := transfer.total + amount }

def unfinished (transfer : Transfer) : Bool :=
  transfer.total < transfer.limit

def metaData (chunk : Nat) (transfer : Transfer) : MetaData where
  wholeReqs := transfer.total / chunk
  spareBytes := transfer.total % chunk
  totalBytes := transfer.total

@[simp] theorem start_limit (limit : Nat) : (start limit).limit = limit := rfl
@[simp] theorem start_total (limit : Nat) : (start limit).total = 0 := rfl

@[simp] theorem advance_limit (amount : Nat) (transfer : Transfer) :
    (transfer.advance amount).limit = transfer.limit := rfl

@[simp] theorem advance_total (amount : Nat) (transfer : Transfer) :
    (transfer.advance amount).total = transfer.total + amount := rfl

@[simp] theorem metaData_totalBytes (chunk : Nat) (transfer : Transfer) :
    (transfer.metaData chunk).totalBytes = transfer.total := rfl

@[simp] theorem metaData_wholeReqs (chunk : Nat) (transfer : Transfer) :
    (transfer.metaData chunk).wholeReqs = transfer.total / chunk := rfl

theorem request_le (chunk : Nat) {transfer : Transfer} (room : transfer.total ≤ transfer.limit) :
    transfer.total + transfer.request chunk ≤ transfer.limit := by
  unfold request
  split <;> omega

theorem request_pos {chunk : Nat} (chunkPos : 0 < chunk) {transfer : Transfer}
    (room : transfer.total < transfer.limit) : 0 < transfer.request chunk := by
  unfold request
  split <;> omega

end Transfer

def MetaData.Consistent (chunk : Nat) (info : MetaData) : Prop :=
  info.wholeReqs = info.totalBytes / chunk

theorem MetaData.consistent_zero (chunk : Nat) : MetaData.zero.Consistent chunk :=
  (Nat.zero_div chunk).symm

theorem Transfer.metaData_consistent (chunk : Nat) (transfer : Transfer) :
    (transfer.metaData chunk).Consistent chunk := rfl

end IpcBench
