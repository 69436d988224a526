import IpcBench.Server
import IpcBench.Transfer
import IpcBench.Transition

/-!
The loops of `read_from_socket`, `write_to_socket`, `read_from_pipe` and `write_to_pipe` with
their machine integers, their buffer and the system calls they make.
-/

namespace IpcBench

open Transition Words

inductive TransferFlags
  | none
  | dontWait
  | waitAll
deriving DecidableEq, Repr

inductive SystemCall
  | recv (flags : TransferFlags)
  | send (flags : TransferFlags)
  | read
  | write
deriving DecidableEq, Repr

def SystemCall.reads : SystemCall → Bool
  | .recv _ => true
  | .send _ => false
  | .read => true
  | .write => false

def tcpReadFromSocket (nonBlock : Bool) : SystemCall :=
  if nonBlock then .recv .dontWait else .recv .waitAll

def tcpWriteToSocket (nonBlock : Bool) : SystemCall :=
  if nonBlock then .send .dontWait else .send .waitAll

def domainReadFromSocket (nonBlock : Bool) : SystemCall :=
  if nonBlock then .recv .dontWait else .recv .none

def domainWriteToSocket (nonBlock : Bool) : SystemCall :=
  if nonBlock then .send .dontWait else .send .none

def readFromPipe : SystemCall :=
  .read

def writeToPipe : SystemCall :=
  .write

inductive Helper
  | tcpRead
  | tcpWrite
  | domainRead
  | domainWrite
  | pipeRead
  | pipeWrite
deriving DecidableEq, Repr

def Helper.call (nonBlock : Bool) : Helper → SystemCall
  | .tcpRead => tcpReadFromSocket nonBlock
  | .tcpWrite => tcpWriteToSocket nonBlock
  | .domainRead => domainReadFromSocket nonBlock
  | .domainWrite => domainWriteToSocket nonBlock
  | .pipeRead => readFromPipe
  | .pipeWrite => writeToPipe

/-- What a system call returns: bytes read, none at the end of a file; how many bytes were
taken; or -1. -/
inductive Answer (Byte : Type)
  | bytes (data : List Byte)
  | amount (count : Nat)
  | error
deriving DecidableEq, Repr

namespace Answer

variable {Byte : Type}

def result : Answer Byte → Int
  | .bytes data => data.length
  | .amount count => count
  | .error => -1

def data : Answer Byte → List Byte
  | .bytes data => data
  | _ => []

def fits (reads : Bool) (length : Nat) : Answer Byte → Bool
  | .bytes data => reads && data.length ≤ length
  | .amount count => !reads && count ≤ length
  | .error => true

end Answer

/-- A helper between two system calls: `numBytesToRead` or `numBytesToWrite`, the local
`total_bytes_read` or `total_bytes_written`, and what has been returned. -/
structure HelperLoop (Byte : Type) where
  numBytes : Nat
  total : Int
  buffer : List Byte
  returned : Option MetaData
deriving DecidableEq, Repr

namespace HelperLoop

variable {Byte : Type}

def request (chunk : Nat) (loop : HelperLoop Byte) : Nat :=
  if sizeT (loop.numBytes - loop.total) < chunk then sizeT (loop.numBytes - loop.total) else chunk

def finish (chunk : Nat) (loop : HelperLoop Byte) : HelperLoop Byte :=
  { loop with
    returned := some {
      wholeReqs := sizeT loop.total / chunk
      spareBytes := sizeT loop.total % chunk
      totalBytes := sizeT loop.total } }

def test (chunk : Nat) (loop : HelperLoop Byte) : HelperLoop Byte :=
  if sizeT loop.total < loop.numBytes then loop else loop.finish chunk

/-- A helper called with nothing to do returns zeros; its second test, `numBytes < 0`, never
holds of a `size_t`. -/
def start (chunk numBytes : Nat) (buffer : List Byte) : HelperLoop Byte :=
  if numBytes = 0 then ⟨numBytes, 0, buffer, some .zero⟩
  else test chunk ⟨numBytes, 0, buffer, none⟩

/-- What follows a system call. Its bytes are in the buffer already. -/
def account (chunk : Nat) (answer : Answer Byte) (loop : HelperLoop Byte) : HelperLoop Byte :=
  if answer.result ≤ 0 then loop.finish chunk
  else test chunk { loop with total := ssizeT (loop.total + answer.result) }

def fill (answer : Answer Byte) (loop : HelperLoop Byte) : HelperLoop Byte :=
  { loop with buffer := store loop.buffer loop.total.toNat answer.data }

def step (call : SystemCall) (chunk : Nat) (loop : HelperLoop Byte) (answer : Answer Byte) :
    Option (HelperLoop Byte) :=
  if loop.returned = none ∧ answer.fits call.reads (loop.request chunk) = true then
    some ((loop.fill answer).account chunk answer)
  else none

def machine (call : SystemCall) (chunk : Nat) : Machine (HelperLoop Byte) (Answer Byte) where
  step := step call chunk

def moved (trace : List (HelperLoop Byte × Answer Byte)) : Nat :=
  (trace.map fun entry => entry.2.result.toNat).sum

def received (trace : List (HelperLoop Byte × Answer Byte)) : List Byte :=
  trace.flatMap fun entry => entry.2.data

def handed (trace : List (HelperLoop Byte × Answer Byte)) : List Byte :=
  trace.flatMap fun entry =>
    (entry.1.buffer.drop entry.1.total.toNat).take entry.2.result.toNat

structure Exact (call : SystemCall) (chunk numBytes : Nat) (buffer : List Byte)
    (trace : List (HelperLoop Byte × Answer Byte)) (loop : HelperLoop Byte) : Prop where
  calls : Throughout (fun earlier before _ => before.total = moved earlier ∧
    0 < before.request chunk ∧ before.total + before.request chunk ≤ numBytes) trace
  totalBytes : ∀ info, loop.returned = some info → info.totalBytes = moved trace ∧
    info.totalBytes ≤ numBytes ∧
    (info.totalBytes = numBytes ∨ ∃ entry ∈ trace, entry.2.result ≤ 0)
  wholeReqs : ∀ info, loop.returned = some info →
    info.wholeReqs * chunk + info.spareBytes = info.totalBytes ∧ info.spareBytes < chunk
  reads : call.reads = true →
    (received trace).length = moved trace ∧ loop.buffer = received trace ++ buffer.drop (moved trace)
  writes : call.reads = false →
    handed trace = buffer.take (moved trace) ∧ loop.buffer = buffer

section Totals

variable (trace : List (HelperLoop Byte × Answer Byte)) (loop : HelperLoop Byte)
  (answer : Answer Byte)

@[simp] theorem moved_nil : moved ([] : List (HelperLoop Byte × Answer Byte)) = 0 := rfl

@[simp] theorem moved_step :
    moved (trace ++ [(loop, answer)]) = moved trace + answer.result.toNat := by
  simp [moved]

@[simp] theorem received_nil : received ([] : List (HelperLoop Byte × Answer Byte)) = [] := rfl

@[simp] theorem received_step :
    received (trace ++ [(loop, answer)]) = received trace ++ answer.data := by
  simp [received]

@[simp] theorem handed_nil : handed ([] : List (HelperLoop Byte × Answer Byte)) = [] := rfl

@[simp] theorem handed_step : handed (trace ++ [(loop, answer)]) =
    handed trace ++ (loop.buffer.drop loop.total.toNat).take answer.result.toNat := by
  simp [handed]

end Totals

def transfer (loop : HelperLoop Byte) : Transfer where
  limit := loop.numBytes
  total := loop.total.toNat

section Step

variable {call : SystemCall} {chunk numBytes : Nat} {buffer : List Byte}
  {trace : List (HelperLoop Byte × Answer Byte)} {loop next : HelperLoop Byte}
  {answer : Answer Byte}

/-- A loop whose total is a possible number of bytes. -/
structure Proper (loop : HelperLoop Byte) : Prop where
  nonneg : 0 ≤ loop.total
  within : loop.total ≤ loop.numBytes
  small : loop.numBytes < 9223372036854775808

theorem Proper.request_eq (proper : Proper loop) :
    loop.request chunk = loop.transfer.request chunk := by
  obtain ⟨nonneg, within, small⟩ := proper
  have rest : sizeT (loop.numBytes - loop.total) = loop.numBytes - loop.total.toNat := by
    unfold sizeT
    omega
  rw [request, rest]
  rfl

theorem Proper.finish_eq (proper : Proper loop) :
    loop.finish chunk = { loop with returned := some (loop.transfer.metaData chunk) } := by
  obtain ⟨nonneg, within, small⟩ := proper
  have total : sizeT loop.total = loop.total.toNat := sizeT_eq nonneg (by omega)
  simp only [finish, Transfer.metaData, transfer, total]

theorem Proper.test_eq (proper : Proper loop) :
    test chunk loop = if loop.total < loop.numBytes then loop
      else { loop with returned := some (loop.transfer.metaData chunk) } := by
  rw [test, proper.finish_eq]
  obtain ⟨nonneg, within, small⟩ := proper
  have total : sizeT loop.total = loop.total.toNat := sizeT_eq nonneg (by omega)
  rw [total]
  by_cases below : loop.total < loop.numBytes
  · rw [if_pos below, if_pos (by omega)]
  · rw [if_neg below, if_neg (by omega)]

theorem step_inv (taken : loop.step call chunk answer = some next) : loop.returned = none ∧
    answer.fits call.reads (loop.request chunk) = true ∧
    next = (loop.fill answer).account chunk answer := by
  unfold step at taken
  split at taken
  · rename_i both
    cases taken
    exact ⟨both.1, both.2, rfl⟩
  · cases taken

theorem answer_length {reads : Bool} {length : Nat} (fits : answer.fits reads length = true) :
    answer.result.toNat ≤ length ∧
      answer.data.length = if reads = true then answer.result.toNat else 0 := by
  cases answer with
  | bytes data =>
      simp only [Answer.fits, Bool.and_eq_true, decide_eq_true_eq] at fits
      simp [Answer.result, Answer.data, fits.1, fits.2]
  | amount count =>
      simp only [Answer.fits, Bool.and_eq_true, Bool.not_eq_true', decide_eq_true_eq] at fits
      simp [Answer.result, Answer.data, fits.1, fits.2]
  | error => simp [Answer.result, Answer.data]

structure Accounted (chunk : Nat) (answer : Answer Byte) (loop next : HelperLoop Byte) : Prop where
  total : next.total = loop.total + answer.result.toNat
  numBytes : next.numBytes = loop.numBytes
  buffer : next.buffer = loop.buffer
  running : next.returned = none → 0 < answer.result ∧ next.total < next.numBytes
  returned : ∀ info, next.returned = some info → info = next.transfer.metaData chunk ∧
    (next.total = next.numBytes ∨ answer.result ≤ 0)

theorem Proper.account (proper : Proper loop) (open' : loop.returned = none)
    (room : loop.total + answer.result.toNat ≤ loop.numBytes) :
    Accounted chunk answer loop (loop.account chunk answer) := by
  unfold HelperLoop.account
  split
  · rename_i stopped
    rw [proper.finish_eq]
    have none : answer.result.toNat = 0 := by omega
    constructor
    · simp [none]
    · rfl
    · rfl
    · intro returned
      cases returned
    · intro info returned
      cases returned
      exact ⟨rfl, Or.inr stopped⟩
  · rename_i positive
    obtain ⟨nonneg, within, small⟩ := proper
    have sum : ssizeT (loop.total + answer.result) = loop.total + answer.result.toNat := by
      rw [ssizeT_eq] <;> omega
    have grown : Proper { loop with total := loop.total + answer.result.toNat } :=
      ⟨by simp only; omega, room, small⟩
    rw [sum, grown.test_eq]
    split
    · rename_i unfinished
      constructor
      · rfl
      · rfl
      · rfl
      · intro _
        exact ⟨by omega, unfinished⟩
      · intro info returned
        rw [open'] at returned
        cases returned
    · rename_i finished
      constructor
      · rfl
      · rfl
      · rfl
      · intro returned
        cases returned
      · intro info returned
        cases returned
        refine ⟨rfl, Or.inl ?_⟩
        simp only at finished ⊢
        omega

structure Kept (call : SystemCall) (chunk numBytes : Nat) (buffer : List Byte)
    (trace : List (HelperLoop Byte × Answer Byte)) (loop : HelperLoop Byte) : Prop where
  proper : Proper loop
  numBytes : loop.numBytes = numBytes
  total : loop.total = moved trace
  running : loop.returned = none → loop.total < loop.numBytes
  returned : ∀ info, loop.returned = some info → info = loop.transfer.metaData chunk ∧
    (loop.total = loop.numBytes ∨ ∃ entry ∈ trace, entry.2.result ≤ 0)
  reads : call.reads = true →
    (received trace).length = moved trace ∧ loop.buffer = received trace ++ buffer.drop (moved trace)
  writes : call.reads = false →
    handed trace = buffer.take (moved trace) ∧ loop.buffer = buffer

theorem Kept.start (small : numBytes < 9223372036854775808) :
    Kept call chunk numBytes buffer [] (HelperLoop.start chunk numBytes buffer) := by
  by_cases nothing : numBytes = 0
  · subst nothing
    constructor
    · exact ⟨Int.le_refl 0, Int.le_refl 0, small⟩
    · rfl
    · rfl
    · intro returned
      cases returned
    · intro info returned
      cases returned
      refine ⟨?_, Or.inl rfl⟩
      simp [Transfer.metaData, transfer, MetaData.zero, HelperLoop.start]
    · intro _
      exact ⟨rfl, rfl⟩
    · intro _
      exact ⟨rfl, rfl⟩
  · have opened : HelperLoop.start chunk numBytes buffer = ⟨numBytes, 0, buffer, none⟩ := by
      have positive : 0 < numBytes := Nat.pos_of_ne_zero nothing
      have zero : sizeT 0 = 0 := rfl
      simp [HelperLoop.start, nothing, test, zero, positive]
    rw [opened]
    constructor
    · exact ⟨Int.le_refl 0, by simp only; omega, small⟩
    · rfl
    · rfl
    · intro _
      simp only
      omega
    · intro info returned
      cases returned
    · intro _
      exact ⟨rfl, rfl⟩
    · intro _
      exact ⟨rfl, rfl⟩

theorem Kept.request (kept : Kept call chunk numBytes buffer trace loop) (chunkPos : 0 < chunk)
    (open' : loop.returned = none) :
    0 < loop.request chunk ∧ loop.total + loop.request chunk ≤ loop.numBytes := by
  have nonneg := kept.proper.nonneg
  have below := kept.running open'
  rw [kept.proper.request_eq]
  have room : loop.transfer.total < loop.transfer.limit := by
    simp only [transfer]
    omega
  have within := Transfer.request_le chunk (Nat.le_of_lt room)
  have positive := Transfer.request_pos chunkPos room
  simp only [transfer] at within positive ⊢
  omega

theorem Kept.accounted (kept : Kept call chunk numBytes buffer trace loop) (chunkPos : 0 < chunk)
    (taken : loop.step call chunk answer = some next) :
    Accounted chunk answer (loop.fill answer) next ∧
      loop.total + answer.result.toNat ≤ loop.numBytes := by
  obtain ⟨open', fits, rfl⟩ := step_inv taken
  obtain ⟨_, within⟩ := kept.request chunkPos open'
  have short := (answer_length fits).1
  have room : loop.total + answer.result.toNat ≤ loop.numBytes := by omega
  obtain ⟨nonneg, inside, small⟩ := kept.proper
  have proper : Proper (loop.fill answer) := ⟨nonneg, inside, small⟩
  exact ⟨proper.account open' room, room⟩

theorem Kept.step (kept : Kept call chunk numBytes buffer trace loop) (chunkPos : 0 < chunk)
    (taken : loop.step call chunk answer = some next) :
    Kept call chunk numBytes buffer (trace ++ [(loop, answer)]) next := by
  obtain ⟨accounted, room⟩ := kept.accounted chunkPos taken
  have data := (answer_length (step_inv taken).2.1).2
  obtain ⟨nonneg, _, small⟩ := kept.proper
  have total : next.total = loop.total + answer.result.toNat := accounted.total
  have numBytes : next.numBytes = loop.numBytes := accounted.numBytes
  have reached : loop.total.toNat = moved trace := by
    rw [kept.total]
    rfl
  constructor
  · exact ⟨by omega, by omega, by omega⟩
  · rw [numBytes, kept.numBytes]
  · rw [total, kept.total, moved_step, Int.natCast_add]
  · intro running
    exact (accounted.running running).2
  · intro info returned
    obtain ⟨same, ended⟩ := accounted.returned info returned
    refine ⟨same, ended.imp_right fun stopped => ?_⟩
    exact ⟨(loop, answer), by simp, stopped⟩
  · intro reads
    obtain ⟨length, filled⟩ := kept.reads reads
    rw [if_pos reads] at data
    rw [accounted.buffer, moved_step, received_step]
    constructor
    · rw [List.length_append, length, data]
    · rw [fill, reached, filled, store, ← length, List.take_left, List.drop_append, data]
      simp
  · intro writes
    obtain ⟨before, same⟩ := kept.writes writes
    rw [if_neg (by simp [writes])] at data
    have empty : answer.data = [] := List.eq_nil_of_length_eq_zero data
    rw [accounted.buffer, moved_step, handed_step]
    constructor
    · rw [before, same, reached, List.take_add]
    · simp [fill, empty, store, same]

theorem kept_of_run (chunkPos : 0 < chunk) (small : numBytes < 9223372036854775808)
    (run : Run (machine call chunk) (HelperLoop.start chunk numBytes buffer) trace loop) :
    Kept call chunk numBytes buffer trace loop := by
  apply run.invariant (Kept call chunk numBytes buffer) (Kept.start small)
  intro _ _ _ _ _ kept taken
  exact kept.step chunkPos taken

theorem calls_of_run (chunkPos : 0 < chunk) (small : numBytes < 9223372036854775808)
    (run : Run (machine call chunk) (HelperLoop.start chunk numBytes buffer) trace loop) :
    Throughout (fun earlier before _ => before.total = moved earlier ∧
      0 < before.request chunk ∧ before.total + before.request chunk ≤ numBytes) trace := by
  induction run with
  | start => exact throughout_nil
  | step earlier taken ih =>
      rw [throughout_step]
      refine ⟨ih, ?_⟩
      have kept := kept_of_run chunkPos small earlier
      have requested := kept.request chunkPos (step_inv taken).1
      rw [kept.numBytes] at requested
      exact ⟨kept.total, requested⟩

theorem exact_of_run (chunkPos : 0 < chunk) (small : numBytes < 9223372036854775808)
    (run : Run (machine call chunk) (HelperLoop.start chunk numBytes buffer) trace loop) :
    Exact call chunk numBytes buffer trace loop := by
  have kept := kept_of_run chunkPos small run
  obtain ⟨nonneg, within, _⟩ := kept.proper
  have total := kept.total
  have limit := kept.numBytes
  constructor
  · exact calls_of_run chunkPos small run
  · intro info returned
    obtain ⟨rfl, ended⟩ := kept.returned info returned
    simp only [Transfer.metaData, transfer]
    refine ⟨by omega, by omega, ended.imp_left fun full => ?_⟩
    omega
  · intro info returned
    obtain ⟨rfl, _⟩ := kept.returned info returned
    exact ⟨Nat.div_add_mod' _ _, Nat.mod_lt _ chunkPos⟩
  · exact kept.reads
  · exact kept.writes

def remaining (loop : HelperLoop Byte) : Nat :=
  if loop.returned = none then (loop.numBytes - loop.total).toNat + 1 else 0

theorem Kept.lowers (kept : Kept call chunk numBytes buffer trace loop) (chunkPos : 0 < chunk)
    (taken : loop.step call chunk answer = some next) : next.remaining < loop.remaining := by
  obtain ⟨accounted, room⟩ := kept.accounted chunkPos taken
  have total : next.total = loop.total + answer.result.toNat := accounted.total
  have numBytes : next.numBytes = loop.numBytes := accounted.numBytes
  unfold remaining
  rw [if_pos (step_inv taken).1, numBytes, total]
  split
  · rename_i running
    have positive := (accounted.running running).1
    omega
  · omega

theorem step_error (open' : loop.returned = none) :
    ∃ next, loop.step call chunk .error = some next := by
  refine ⟨_, if_pos ⟨open', ?_⟩⟩
  rfl

theorem helper_ends (chunkPos : 0 < chunk) (small : numBytes < 9223372036854775808) :
    (machine call chunk).Ends (HelperLoop.start chunk numBytes buffer)
      fun loop => loop.returned.isSome = true := by
  apply ends_of_measure (fun loop => ∃ trace, Kept call chunk numBytes buffer trace loop) remaining
  · exact ⟨[], Kept.start small⟩
  · rintro loop answer next ⟨trace, kept⟩ taken
    exact ⟨⟨_, kept.step chunkPos taken⟩, kept.lowers chunkPos taken⟩
  · rintro loop _
    by_cases open' : loop.returned = none
    · exact Or.inr ⟨.error, step_error open'⟩
    · exact Or.inl (Option.isSome_iff_ne_none.mpr open')

end Step

end HelperLoop

open HelperLoop in
/-- Whatever the system calls return, a helper comes to its end and has moved the bytes that
it counts, each to or from its own place in the buffer. -/
theorem helper_exact {Byte : Type} (helper : Helper) (nonBlock : Bool) {chunk numBytes : Nat}
    (buffer : List Byte) (chunkPos : 0 < chunk) (small : numBytes < 9223372036854775808) :
    (machine (helper.call nonBlock) chunk).Ends (HelperLoop.start chunk numBytes buffer)
        (fun loop => loop.returned.isSome = true) ∧
      ∀ trace loop,
        Run (machine (helper.call nonBlock) chunk) (HelperLoop.start chunk numBytes buffer)
          trace loop → Exact (helper.call nonBlock) chunk numBytes buffer trace loop := by
  constructor
  · exact helper_ends chunkPos small
  · intro trace loop run
    exact exact_of_run chunkPos small run

open HelperLoop in
/-- Five bytes are read three at a time, the first call cut short after two. -/
theorem helper_exact_short :
    (machine (Helper.pipeRead.call true) 3).Ends (HelperLoop.start 3 5 ['v', 'w', 'x', 'y', 'z'])
        (fun loop => loop.returned.isSome = true) ∧
      ∃ trace loop,
        Run (machine (Helper.pipeRead.call true) 3)
          (HelperLoop.start 3 5 ['v', 'w', 'x', 'y', 'z']) trace loop ∧
        loop.returned = some ⟨1, 2, 5⟩ ∧ loop.buffer = ['a', 'b', 'c', 'd', 'e'] ∧
        Exact (Helper.pipeRead.call true) 3 5 ['v', 'w', 'x', 'y', 'z'] trace loop := by
  obtain ⟨ends, exact⟩ :=
    @helper_exact _ .pipeRead true 3 5 ['v', 'w', 'x', 'y', 'z'] (by decide) (by decide)
  obtain ⟨trace, loop, run, result⟩ := exists_run_of_execute
    (machine (Helper.pipeRead.call true) 3) (HelperLoop.start 3 5 ['v', 'w', 'x', 'y', 'z'])
    [.bytes ['a', 'b'], .bytes ['c', 'd', 'e']]
    (fun result => decide (result.2.returned = some ⟨1, 2, 5⟩ ∧
      result.2.buffer = ['a', 'b', 'c', 'd', 'e']))
    (by decide)
  obtain ⟨returned, filled⟩ := of_decide_eq_true result
  exact ⟨ends, trace, loop, run, returned, filled, exact trace loop run⟩

end IpcBench
