import IpcBench.ServerClock
import IpcBench.TcpCounters
import Mathlib.Data.List.DropRight
import Mathlib.Tactic.Linarith

/-!
The tcp processes with any three ints as arguments: the sizes that they compute, the numbers
they and their evaluation divide by, and the assertion of `evaluateClient`.
-/

namespace IpcBench

open Words Transition

namespace Arguments

/-- Three C ints; `parse_arguments` stores any that `atoi` returns. -/
structure Ints (args : Arguments) : Prop where
  size : -2147483648 ≤ args.size ∧ args.size < 2147483648
  count : -2147483648 ≤ args.count ∧ args.count < 2147483648
  rate : -2147483648 ≤ args.rate ∧ args.rate < 2147483648

variable {args : Arguments}

theorem product_bounds {left right : Int} (leftInt : -2147483648 ≤ left ∧ left < 2147483648)
    (rightInt : -2147483648 ≤ right ∧ right < 2147483648) :
    -4611686018427387904 ≤ left * right ∧ left * right ≤ 4611686018427387904 := by
  have leftUp : 0 ≤ 2147483648 - left := by omega
  have leftDown : 0 ≤ 2147483648 + left := by omega
  have rightUp : 0 ≤ 2147483648 - right := by omega
  have rightDown : 0 ≤ 2147483648 + right := by omega
  constructor
  · nlinarith [mul_nonneg leftUp rightUp, mul_nonneg leftDown rightDown]
  · nlinarith [mul_nonneg leftUp rightDown, mul_nonneg leftDown rightUp]

theorem sizeT_mul (left right : Int) : sizeT (sizeT left * sizeT right) = sizeT (left * right) := by
  have cast : ∀ value : Int, (sizeT value : Int) = value % 18446744073709551616 := by
    intro value
    unfold sizeT
    omega
  rw [cast, cast]
  unfold sizeT
  rw [← Int.mul_emod]

/-- The products are those of the integers exactly when these are not negative. -/
theorem sizeT_eq_iff {value : Int} (lower : -4611686018427387904 ≤ value)
    (upper : value ≤ 4611686018427387904) : (sizeT value : Int) = value ↔ 0 ≤ value := by
  unfold sizeT
  omega

theorem bufferSize_sizeT (args : Arguments) : args.bufferSize = sizeT (args.size * args.rate) :=
  sizeT_mul args.size args.rate

theorem maxOutstandingBytes_sizeT (args : Arguments) :
    args.maxOutstandingBytes = sizeT (args.size * args.rate) :=
  sizeT_mul args.size args.rate

theorem maxBytes_sizeT (args : Arguments) : args.maxBytes = sizeT (args.size * args.count) :=
  sizeT_mul args.size args.count

theorem ssizeT_sizeT {value : Int} (lower : -4611686018427387904 ≤ value)
    (upper : value ≤ 4611686018427387904) : ssizeT (sizeT value) = value := by
  unfold ssizeT sizeT
  omega

theorem reqSize_pos_iff (ints : args.Ints) : 0 < args.reqSize ↔ args.size ≠ 0 := by
  have bounds := ints.size
  unfold reqSize sizeT
  omega

theorem Ints.bufferSize_eq (ints : args.Ints) (window : 0 ≤ args.size * args.rate) :
    (args.bufferSize : Int) = args.size * args.rate := by
  have bounds := product_bounds ints.size ints.rate
  rw [bufferSize_sizeT]
  exact (sizeT_eq_iff bounds.1 bounds.2).mpr window

theorem Ints.maxOutstandingBytes_eq (ints : args.Ints) (window : 0 ≤ args.size * args.rate) :
    (args.maxOutstandingBytes : Int) = args.size * args.rate :=
  ints.bufferSize_eq window

theorem Ints.maxBytes_eq (ints : args.Ints) (total : 0 ≤ args.size * args.count) :
    (args.maxBytes : Int) = args.size * args.count := by
  have bounds := product_bounds ints.size ints.count
  rw [maxBytes_sizeT]
  exact (sizeT_eq_iff bounds.1 bounds.2).mpr total

/-- Arguments with products that are not negative: all three are positive, or there is nothing
to read, or no whole request fits into the window. -/
theorem Ints.cases (ints : args.Ints) (window : 0 ≤ args.size * args.rate)
    (total : 0 ≤ args.size * args.count) :
    args.maxBytes = 0 ∨ args.maxOutstandingBytes < args.reqSize ∨
      ∃ config : Config, config.arguments = args := by
  have size := ints.size
  have count := ints.count
  have rate := ints.rate
  rcases lt_trichotomy args.size 0 with negative | zero | positive
  · have upper := (product_bounds size rate).2
    refine Or.inr (Or.inl ?_)
    rw [maxOutstandingBytes_sizeT, reqSize]
    unfold sizeT
    omega
  · refine Or.inl ?_
    rw [maxBytes_sizeT, zero, Int.zero_mul]
    rfl
  · have countSign := (mul_nonneg_iff_of_pos_left positive).mp total
    have rateSign := (mul_nonneg_iff_of_pos_left positive).mp window
    rcases Int.lt_or_eq_of_le countSign with countPos | countZero
    · rcases Int.lt_or_eq_of_le rateSign with ratePos | rateZero
      · have sizeNat := Int.toNat_of_nonneg (Int.le_of_lt positive)
        have countNat := Int.toNat_of_nonneg countSign
        have rateNat := Int.toNat_of_nonneg rateSign
        refine Or.inr (Or.inr ⟨⟨args.size.toNat, args.count.toNat, args.rate.toNat, by omega,
          by omega, by omega, by omega, by omega, by omega⟩, ?_⟩)
        simp only [Config.arguments, sizeNat, countNat, rateNat]
      · refine Or.inr (Or.inl ?_)
        rw [maxOutstandingBytes_sizeT, ← rateZero, Int.mul_zero, reqSize]
        unfold sizeT
        omega
    · refine Or.inl ?_
      rw [maxBytes_sizeT, ← countZero, Int.mul_zero]
      rfl

end Arguments

structure ClientAllocation (Byte : Type) (args : Arguments) where
  writeBuffer : List Byte
  times : List Nat
  writeBuffer_length : writeBuffer.length = args.bufferSize
  times_length : times.length = sizeT (8 * sizeT args.count) / 8

def Action.continuesCall {Byte : Type} : Action Byte → Bool
  | .recv _ => true
  | .signal => true
  | _ => false

def lastCall {State Byte : Type} (trace : List (State × Action Byte)) : Nat :=
  bytesReceived (trace.rtakeWhile fun entry => entry.2.continuesCall)

namespace Client

variable {Byte : Type}

def fresh {args : Arguments} (allocation : ClientAllocation Byte args) : Client Byte where
  pc := .loop
  quit := false
  outstandingBytes := 0
  totalBytesRead := 0
  totalBytesWritten := 0
  numReqsRead := 0
  numReqsSent := 0
  outstandingReqs := 0
  times := allocation.times
  count := args.count
  writeBuffer := allocation.writeBuffer

def divisors (args : Arguments) (client : Client Byte) : List Nat :=
  match client.pc with
  | .readDone _ _ => [args.reqSize]
  | .writeDone _ => [args.reqSize]
  | .exit => [sizeT client.count, sizeT args.rate]
  | _ => []

/-- Exact products, no division by zero, and the assertion of `evaluateClient`. -/
structure Defined (args : Arguments) (client : Client Byte) : Prop where
  buffer : (args.bufferSize : Int) = args.size * args.rate
  window : (args.maxOutstandingBytes : Int) = args.size * args.rate
  total : (args.maxBytes : Int) = args.size * args.count
  divides : 0 ∉ client.divisors args
  assertion : client.pc = .exit → 0 < client.count

def GathersRequest (args : Arguments) : List (Client Byte × Action Byte) → Prop :=
  Occurs fun earlier _ action =>
    0 < action.received ∧ args.reqSize ≤ lastCall earlier + action.received

instance {Byte : Type} {args : Arguments} {trace : List (Client Byte × Action Byte)} :
    Decidable (GathersRequest args trace) :=
  decidable_of_iff' _ occurs_iff

end Client

namespace Server

variable {Byte : Type}

def fresh (readBuffer : List Byte) (revents : Bool) (startTime : Nat) : Server Byte where
  pc := .loop
  quit := false
  outstandingBytes := 0
  totalBytesRead := 0
  totalBytesWritten := 0
  pollsWrite := false
  firstRead := true
  revents := revents
  totalStart := some startTime
  endTime := 0
  readBuffer := readBuffer

def totalTime (server : Server Byte) : Nat :=
  sizeT (server.endTime - (server.totalStart.getD 0 : Nat))

def divisors (args : Arguments) (server : Server Byte) : List Nat :=
  match server.pc with
  | .readDone _ _ => [args.reqSize]
  | .writeDone _ => [args.reqSize]
  | .exit => [args.reqSize, server.totalTime]
  | _ => []

/-- Exact products, in the buffer and as values of type `ssize_t`, and no division by zero. -/
structure Defined (args : Arguments) (server : Server Byte) : Prop where
  buffer : (args.bufferSize : Int) = args.size * args.rate
  window : ssizeT args.maxOutstandingBytes = args.size * args.rate
  total : ssizeT args.maxBytes = args.size * args.count
  divides : 0 ∉ server.divisors args

def lastReading (args : Arguments) (trace : List (Server Byte × Action Byte)) : Nat :=
  (trace.filterMap fun entry =>
    match entry.2 with
    | .advance time => if entry.1.beginsIteration args then some time else none
    | _ => none).getLast?.getD 0

end Server

/-- Products that are not negative; a client that has come to its end has gathered a whole
request, and a server has requests to count and a clock that has moved since its start. -/
structure Evaluable {Byte : Type} (args : Arguments) (startTime : Nat)
    (clientTrace : List (Client Byte × Action Byte)) (client : Client Byte)
    (serverTrace : List (Server Byte × Action Byte)) (server : Server Byte) : Prop where
  window : 0 ≤ args.size * args.rate
  total : 0 ≤ args.size * args.count
  client : client.pc = .exit → Client.GathersRequest args clientTrace
  server : server.pc = .exit →
    args.size ≠ 0 ∧ sizeT (Server.lastReading args serverTrace) ≠ sizeT startTime

/-! A client. -/

namespace Client

variable {Byte : Type} {args : Arguments} {trace : List (Client Byte × Action Byte)}
  {client next : Client Byte} {action : Action Byte}

theorem lastCall_step : lastCall (trace ++ [(client, action)]) =
    if action.continuesCall then lastCall trace + action.received else 0 := by
  rw [lastCall, List.rtakeWhile_concat]
  split
  · rw [bytesReceived_step]
    rfl
  · rfl

theorem gathersRequest_step : GathersRequest args (trace ++ [(client, action)]) ↔
    GathersRequest args trace ∨
      0 < action.received ∧ args.reqSize ≤ lastCall trace + action.received :=
  occurs_step

theorem gathersRequest_quiet (quiet : action.received = 0) :
    GathersRequest args (trace ++ [(client, action)]) ↔ GathersRequest args trace := by
  rw [gathersRequest_step, quiet]
  simp

/-- With nothing to read in all a client leaves at once. -/
structure AtOnce (args : Arguments) (trace : List (Client Byte × Action Byte))
    (client : Client Byte) : Prop where
  pc : client.pc = .loop ∨ client.pc = .exit
  numReqsRead : client.numReqsRead = 0
  count : client.pc = .exit → client.count = 0
  gathered : ¬GathersRequest args trace

theorem AtOnce.step (atOnce : AtOnce args trace client) (nothing : args.maxBytes = 0)
    (taken : Step args client action next) : AtOnce args (trace ++ [(client, action)]) next := by
  obtain ⟨place, numReqsRead, count, gathered⟩ := atOnce
  cases taken with
  | signal => exact ⟨place, numReqsRead, count, (gathersRequest_quiet rfl).not.mpr gathered⟩
  | enter time pc more running => omega
  | finish time pc isOver =>
      refine ⟨Or.inr rfl, numReqsRead, fun _ => ?_, (gathersRequest_quiet rfl).not.mpr gathered⟩
      simp [leave, numReqsRead, intT]
  | _ => simp_all

def HelperSmall (args : Arguments) (outstandingBytes : Nat) : ClientPc → Prop
  | .reading _ transfer => transfer.limit = outstandingBytes
  | .readDone _ info => info.wholeReqs = 0
  | .writing transfer => transfer.limit + outstandingBytes = args.maxOutstandingBytes
  | _ => True

structure Small (args : Arguments) (client : Client Byte) : Prop where
  held : client.outstandingBytes + client.pc.pushed ≤ args.maxOutstandingBytes
  fetched : client.pc.fetched ≤ client.outstandingBytes
  helper : HelperSmall args client.outstandingBytes client.pc
  numReqsRead : client.numReqsRead = 0

theorem Small.goto (small : Small args client) (pc : ClientPc)
    (held : client.outstandingBytes + pc.pushed ≤ args.maxOutstandingBytes)
    (fetched : pc.fetched ≤ client.outstandingBytes)
    (helper : HelperSmall args client.outstandingBytes pc) : Small args (client.goto pc) :=
  ⟨held, fetched, helper, small.numReqsRead⟩

theorem Small.step (small : Small args client)
    (window : args.maxOutstandingBytes < args.reqSize) (taken : Step args client action next) :
    Small args next := by
  have held := small.held
  have fetched := small.fetched
  have helper := small.helper
  have fits : args.maxOutstandingBytes < 18446744073709551616 := by
    unfold Arguments.maxOutstandingBytes sizeT
    omega
  have none : ∀ total, total ≤ client.outstandingBytes → total / args.reqSize = 0 := by
    intro total within
    exact Nat.div_eq_of_lt (by omega)
  cases taken with
  | signal => exact ⟨held, fetched, helper, small.numReqsRead⟩
  | enter time pc more running =>
      exact small.goto _ (by simpa [pc, ClientPc.pushed] using held) (Nat.zero_le _) trivial
  | finish time pc isOver =>
      exact ⟨by simpa [leave, pc, ClientPc.pushed] using held, Nat.zero_le _, trivial,
        small.numReqsRead⟩
  | pollFailed ready pc failed =>
      exact ⟨by simpa [leave, pc, ClientPc.pushed] using held, Nat.zero_le _, trivial,
        small.numReqsRead⟩
  | polled canRead canWrite pc running =>
      exact small.goto _ (by simpa [pc, ClientPc.pushed] using held) (Nat.zero_le _) trivial
  | skipRead time canRead canWrite pc skipped =>
      exact small.goto _ (by simpa [pc, ClientPc.pushed] using held) (Nat.zero_le _) trivial
  | readNothing time canWrite pc running empty =>
      exact small.goto _ (by simpa [pc, ClientPc.pushed] using held) (Nat.zero_le _) rfl
  | startRead time canWrite pc running nonempty =>
      exact small.goto _ (by simpa [pc, ClientPc.pushed] using held) (Nat.zero_le _) rfl
  | recvSome data canWrite transfer pc nonempty fits more =>
      simp only [pc, ClientPc.pushed, HelperSmall] at held helper
      exact small.goto _ held (by simp only [ClientPc.fetched, Transfer.advance_total]; omega) helper
  | recvLast data canWrite transfer pc nonempty fits full =>
      simp only [pc, ClientPc.pushed, ClientPc.fetched, HelperSmall] at held fetched helper
      have within := transfer.request_le args.reqSize (by omega)
      have last : transfer.total + data.length ≤ client.outstandingBytes := by omega
      exact small.goto _ held last (none _ last)
  | recvStop canWrite transfer pc =>
      simp only [pc, ClientPc.pushed, ClientPc.fetched] at held fetched
      exact small.goto _ held fetched (none _ fetched)
  | accountRead time canWrite info pc =>
      simp only [pc, ClientPc.pushed, ClientPc.fetched, HelperSmall] at held fetched helper
      have outstanding : (client.accountRead time info).outstandingBytes =
          client.outstandingBytes - info.totalBytes :=
        sizeT_sub (by omega) fetched
      refine ⟨?_, Nat.zero_le _, trivial, ?_⟩
      · simp only [Client.goto, ClientPc.pushed, outstanding]
        omega
      · simp [Client.goto, Client.accountRead, Client.toUpdateRead_eq, helper, small.numReqsRead,
          sizeT]
  | stamp time canWrite pc =>
      refine ⟨?_, Nat.zero_le _, trivial, ?_⟩
      · simpa [Client.goto, pc, ClientPc.pushed] using held
      · simp [Client.goto, small.numReqsRead]
  | skipWrite time canWrite pc skipped =>
      exact small.goto _ (by simpa [pc, ClientPc.pushed] using held) (Nat.zero_le _) trivial
  | startWrite time pc room running =>
      refine small.goto _ ?_ (Nat.zero_le _) ?_
      · simpa [pc, ClientPc.pushed] using held
      · simp only [HelperSmall, Transfer.start_limit]
        omega
  | sendSome amount transfer pc nonempty fits more =>
      simp only [pc, HelperSmall] at helper
      refine small.goto _ ?_ (Nat.zero_le _) helper
      simp only [ClientPc.pushed, Transfer.advance_total]
      omega
  | sendLast amount transfer pc nonempty fits full =>
      simp only [pc, ClientPc.pushed, HelperSmall] at held helper
      have within := transfer.request_le args.reqSize (by omega)
      refine small.goto _ ?_ (Nat.zero_le _) trivial
      simp only [ClientPc.pushed, Transfer.metaData_totalBytes, Transfer.advance_total]
      omega
  | sendStop transfer pc =>
      exact small.goto _ (by simpa [pc, ClientPc.pushed] using held) (Nat.zero_le _) trivial
  | sendBroken transfer pc =>
      exact ⟨by simpa [Client.goto, pc, ClientPc.pushed] using held, Nat.zero_le _, trivial,
        small.numReqsRead⟩
  | accountWrite time info pc =>
      simp only [pc, ClientPc.pushed] at held
      have outstanding : (client.accountWrite info).outstandingBytes =
          client.outstandingBytes + info.totalBytes :=
        sizeT_add (by omega)
      refine ⟨?_, Nat.zero_le _, trivial, small.numReqsRead⟩
      simpa [Client.goto, ClientPc.pushed, outstanding] using held

structure Tallied (args : Arguments) (trace : List (Client Byte × Action Byte))
    (client : Client Byte) : Prop where
  call : ∀ canWrite transfer, client.pc = .reading canWrite transfer →
    lastCall trace = transfer.total
  gathered : GathersRequest args trace ↔
    0 < client.numReqsRead ∨ args.reqSize ≤ client.pc.fetched
  count : client.count = if client.pc = .exit then
    (if sizeT args.count < client.numReqsRead then args.count else intT client.numReqsRead)
    else args.count

theorem Tallied.quiet (tallied : Tallied args trace client) (quiet : action.received = 0)
    (call : ∀ canWrite transfer, next.pc = .reading canWrite transfer →
      lastCall (trace ++ [(client, action)]) = transfer.total)
    (numReqsRead : next.numReqsRead = client.numReqsRead)
    (fetched : next.pc.fetched = client.pc.fetched) (count : next.count = client.count)
    (before : client.pc ≠ .exit) (after : next.pc ≠ .exit) :
    Tallied args (trace ++ [(client, action)]) next where
  call := call
  gathered := by
    rw [gathersRequest_quiet quiet, numReqsRead, fetched]
    exact tallied.gathered
  count := by
    rw [if_neg after, count, tallied.count, if_neg before]

theorem Tallied.leave (tallied : Tallied args trace client) (quiet : action.received = 0)
    (before : client.pc ≠ .exit) (fetched : client.pc.fetched = 0) :
    Tallied args (trace ++ [(client, action)]) client.leave where
  call canWrite transfer pc := by cases pc
  gathered := by
    rw [gathersRequest_quiet quiet, tallied.gathered, fetched]
    rfl
  count := by
    have count := tallied.count
    rw [if_neg before] at count
    simp [Client.leave, count]

theorem Tallied.recv {data : List Byte} {canWrite : Bool} {transfer : Transfer} {pc' : ClientPc}
    (tallied : Tallied args trace client) (pc : client.pc = .reading canWrite transfer)
    (nonempty : 0 < data.length)
    (call : ∀ canWrite transfer', pc' = .reading canWrite transfer' →
      transfer'.total = transfer.total + data.length)
    (fetched : pc'.fetched = transfer.total + data.length) (after : pc' ≠ .exit) :
    Tallied args (trace ++ [(client, .recv data)]) (client.goto pc') where
  call canWrite' transfer' place := by
    rw [lastCall_step, tallied.call canWrite transfer pc, call canWrite' transfer' place]
    rfl
  gathered := by
    have old : client.pc.fetched = transfer.total := by rw [pc, ClientPc.fetched]
    have new : (client.goto pc').pc.fetched = transfer.total + data.length := fetched
    rw [gathersRequest_step, tallied.gathered, tallied.call canWrite transfer pc, old, new]
    simp only [Client.goto, Action.received]
    omega
  count := by
    have count := tallied.count
    rw [if_neg (by simp [pc])] at count
    exact count.trans (if_neg after).symm

theorem Tallied.step (tallied : Tallied args trace client) (positive : 0 < args.reqSize)
    (counts : ∀ time canWrite info, client.pc = .readDone canWrite info →
      (0 < (client.accountRead time info).numReqsRead ↔
        0 < client.numReqsRead ∨ args.reqSize ≤ info.totalBytes))
    (taken : Step args client action next) :
    Tallied args (trace ++ [(client, action)]) next := by
  cases taken with
  | signal =>
      refine ⟨?_, ?_, tallied.count⟩
      · intro canWrite transfer pc
        rw [lastCall_step]
        exact tallied.call canWrite transfer pc
      · rw [gathersRequest_quiet rfl]
        exact tallied.gathered
  | finish time pc isOver =>
      exact tallied.leave rfl (by simp [pc]) (by simp [pc, ClientPc.fetched])
  | pollFailed ready pc failed =>
      exact tallied.leave rfl (by simp [pc]) (by simp [pc, ClientPc.fetched])
  | startRead time canWrite pc running nonempty =>
      refine tallied.quiet rfl ?_ rfl (by simp [goto, pc, ClientPc.fetched]) rfl (by simp [pc])
        (by simp [goto])
      intro canWrite' transfer' place
      cases place
      rw [lastCall_step]
      rfl
  | recvSome data canWrite transfer pc nonempty fits more =>
      refine tallied.recv pc nonempty ?_ rfl (by simp)
      intro canWrite' transfer' place
      cases place
      rfl
  | recvLast data canWrite transfer pc nonempty fits full =>
      exact tallied.recv pc nonempty (by simp) rfl (by simp)
  | accountRead time canWrite info pc =>
      refine ⟨by simp [goto], ?_, ?_⟩
      · rw [gathersRequest_quiet rfl, tallied.gathered]
        have counted := counts time canWrite info pc
        simp only [goto, pc, ClientPc.fetched] at counted ⊢
        rw [counted]
        omega
      · have count := tallied.count
        rw [if_neg (by simp [pc])] at count
        simpa [goto, Client.accountRead] using count
  | stamp time canWrite pc =>
      exact tallied.quiet rfl (by simp [goto]) (stampWrites_numReqsRead args time client)
        (by simp [goto, pc, ClientPc.fetched]) (stampWrites_count args time client) (by simp [pc])
        (by simp [goto])
  | _ =>
      refine tallied.quiet rfl ?_ rfl ?_ rfl ?_ ?_ <;>
        simp_all [goto, ClientPc.fetched, MetaData.zero]

theorem Tallied.count_pos_iff (tallied : Tallied args trace client) (ints : args.Ints)
    (positive : 0 < args.reqSize) (exit : client.pc = .exit)
    (asked : 0 < client.numReqsRead → 0 < args.count) :
    0 < client.count ↔ GathersRequest args trace := by
  have bound := ints.count
  have ended : client.pc.fetched = 0 := by simp [exit, ClientPc.fetched]
  rw [tallied.gathered, tallied.count, if_pos exit, ended, or_iff_left (by omega)]
  rcases Nat.eq_zero_or_pos client.numReqsRead with none | some
  · simp [none, intT]
  · have count := asked some
    split
    · omega
    · rename_i within
      rw [sizeT_eq (by omega) (by omega)] at within
      rw [intT_eq (by omega) (by omega)]
      omega

section Runs

variable {allocation : ClientAllocation Byte args}

theorem AtOnce.run (nothing : args.maxBytes = 0)
    (run : Run (machine args) (fresh allocation) trace client) : AtOnce args trace client := by
  refine run.invariant (AtOnce args) ⟨Or.inl rfl, rfl, by simp [fresh], occurs_nil⟩ ?_
  intro trace client action next _ atOnce taken
  exact atOnce.step nothing (step_inv taken)

theorem Small.run (window : args.maxOutstandingBytes < args.reqSize)
    (run : Run (machine args) (fresh allocation) trace client) : Small args client := by
  refine run.stateInvariant (Small args) ⟨Nat.zero_le _, Nat.zero_le _, trivial, rfl⟩ ?_
  intro client action next small taken
  exact small.step window (step_inv taken)

theorem Tallied.run (positive : 0 < args.reqSize)
    (counts : ∀ trace client,
      Run (machine args) (fresh allocation) trace client → ∀ time canWrite info,
        client.pc = .readDone canWrite info →
          (0 < (client.accountRead time info).numReqsRead ↔
            0 < client.numReqsRead ∨ args.reqSize ≤ info.totalBytes))
    (run : Run (machine args) (fresh allocation) trace client) : Tallied args trace client := by
  refine run.invariant (Tallied args) ?_ ?_
  · refine ⟨by simp [fresh], ?_, by simp [fresh]⟩
    simp only [fresh, ClientPc.fetched]
    refine iff_of_false occurs_nil ?_
    omega
  · intro trace client action next before tallied taken
    exact tallied.step positive (counts trace client before) (step_inv taken)

theorem Small.counts (small : Small args client)
    (window : args.maxOutstandingBytes < args.reqSize) (time : Nat) (canWrite : Bool)
    (info : MetaData) (pc : client.pc = .readDone canWrite info) :
    0 < (client.accountRead time info).numReqsRead ↔
      0 < client.numReqsRead ∨ args.reqSize ≤ info.totalBytes := by
  obtain ⟨held, fetched, helper, numReqsRead⟩ := small
  simp only [pc, ClientPc.fetched, HelperSmall] at fetched helper
  have updated : (client.accountRead time info).numReqsRead = 0 := by
    simp [Client.accountRead, Client.toUpdateRead_eq, helper, numReqsRead, sizeT]
  rw [updated, numReqsRead]
  omega

theorem Tallied.count_lt (tallied : Tallied args trace client) (ints : args.Ints) :
    client.count < 2147483648 := by
  have bound := ints.count
  rw [tallied.count]
  unfold intT
  split
  · split <;> omega
  · omega

theorem Tallied.defined_iff (tallied : Tallied args trace client) (ints : args.Ints)
    (positive : 0 < args.reqSize) (window : 0 ≤ args.size * args.rate)
    (total : 0 ≤ args.size * args.count)
    (asked : 0 < client.numReqsRead → 0 < args.count ∧ 0 < args.rate) :
    client.Defined args ↔ (client.pc = .exit → GathersRequest args trace) := by
  have counted := tallied.count_pos_iff ints positive
  constructor
  · intro defined exit
    exact (counted exit fun some => (asked some).1).mp (defined.assertion exit)
  · intro gathers
    have assertion (exit : client.pc = .exit) : 0 < client.count :=
      (counted exit fun some => (asked some).1).mpr (gathers exit)
    refine ⟨ints.bufferSize_eq window, ints.maxOutstandingBytes_eq window, ints.maxBytes_eq total,
      ?_, assertion⟩
    unfold divisors
    split
    · simpa using positive.ne
    · simpa using positive.ne
    · rename_i exit
      have gathered := tallied.gathered.mp (gathers exit)
      have ended : client.pc.fetched = 0 := by simp [exit, ClientPc.fetched]
      have ratePos := (asked (by omega)).2
      have rateBound := ints.rate
      have countPos := assertion exit
      have countBound := tallied.count_lt ints
      rw [sizeT_eq (by omega) (by omega), sizeT_eq (by omega) (by omega)]
      simp only [List.mem_cons, List.not_mem_nil, or_false]
      omega
    · simp

theorem AtOnce.defined_iff (atOnce : AtOnce args trace client) (ints : args.Ints)
    (window : 0 ≤ args.size * args.rate) (total : 0 ≤ args.size * args.count) :
    client.Defined args ↔ (client.pc = .exit → GathersRequest args trace) := by
  obtain ⟨place, numReqsRead, count, gathered⟩ := atOnce
  rcases place with loop | exit
  · refine iff_of_true ⟨ints.bufferSize_eq window, ints.maxOutstandingBytes_eq window,
      ints.maxBytes_eq total, by simp [divisors, loop], by simp [loop]⟩ (by simp [loop])
  · refine iff_of_false (fun defined => ?_) (fun gathers => gathered (gathers exit))
    have positive := defined.assertion exit
    rw [count exit] at positive
    exact absurd positive (Int.lt_irrefl 0)

end Runs

/-! Positive arguments. -/

section Positive

variable {config : Config}

def memory (allocation : ClientAllocation Byte config.arguments) : ClientMemory Byte config where
  writeBuffer := allocation.writeBuffer
  times := allocation.times
  writeBuffer_length := by rw [allocation.writeBuffer_length, config.bufferSize_eq]
  times_length := by
    have bound := config.count_int
    have count : sizeT config.arguments.count = config.count := sizeT_natCast (by omega)
    rw [allocation.times_length, count, sizeT_eq (by omega) (by omega)]
    omega

theorem Counted.counts {allocation : ClientAllocation Byte config.arguments}
    (run : Run (machine config.arguments) (fresh allocation) trace client) (time : Nat)
    (canWrite : Bool) (info : MetaData) (pc : client.pc = .readDone canWrite info) :
    0 < (client.accountRead time info).numReqsRead ↔
      0 < client.numReqsRead ∨ config.arguments.reqSize ≤ info.totalBytes := by
  have initial : fresh allocation = Client.initial (memory allocation) := rfl
  rw [initial] at run
  have balanced := Balanced.run run
  have counted := Counted.run run
  have bound := balanced.bound
  have windowBound := config.window_lt
  have totalBound := config.total_lt
  have next : Counted config (trace ++ [(client, .advance time)])
      ((client.accountRead time info).goto (.stamp canWrite)) :=
    counted.accountRead balanced pc (by omega)
  have after := next.numReqsRead
  have calls : readCalls (trace ++ [(client, .advance time)]) =
      readCalls trace ++ [info.totalBytes] := by
    simp [readCalls, pc]
  rw [calls, wholeRequests_append, ← counted.numReqsRead] at after
  have whole : 0 < info.totalBytes / config.size ↔ config.size ≤ info.totalBytes :=
    Nat.div_pos_iff.trans (and_iff_right config.size_pos)
  simp only [goto] at after
  rw [after, config.reqSize_eq, ← whole]
  exact Nat.add_pos_iff_pos_or_pos

end Positive

theorem defined_iff {allocation : ClientAllocation Byte args} (ints : args.Ints)
    (window : 0 ≤ args.size * args.rate) (total : 0 ≤ args.size * args.count)
    (run : Run (machine args) (fresh allocation) trace client) :
    client.Defined args ↔ (client.pc = .exit → GathersRequest args trace) := by
  rcases ints.cases window total with nothing | short | ⟨config, rfl⟩
  · exact (AtOnce.run nothing run).defined_iff ints window total
  · have positive : 0 < args.reqSize := by omega
    have small := Small.run short run
    have tallied := Tallied.run positive
      (fun _ _ before => (Small.run short before).counts short) run
    refine tallied.defined_iff ints positive window total fun some => ?_
    rw [small.numReqsRead] at some
    omega
  · have positive : 0 < config.arguments.reqSize := by
      rw [config.reqSize_eq]
      exact config.size_pos
    have tallied := Tallied.run positive (fun _ _ before => Counted.counts before) run
    refine tallied.defined_iff ints positive window total fun _ => ?_
    exact ⟨Int.natCast_pos.mpr config.count_pos, Int.natCast_pos.mpr config.rate_pos⟩

end Client

/-! A server. -/

namespace Server

variable {Byte : Type} {args : Arguments} {trace : List (Server Byte × Action Byte)}
  {server next : Server Byte} {action : Action Byte}

theorem lastReading_step : lastReading args (trace ++ [(server, action)]) =
    match action with
    | .advance time => if server.beginsIteration args then time else lastReading args trace
    | _ => lastReading args trace := by
  rw [lastReading, List.filterMap_append]
  cases action with
  | advance time =>
      by_cases begins : server.beginsIteration args = true <;> simp [begins, lastReading]
  | _ => simp [lastReading]

structure Read (args : Arguments) (startTime : Nat) (trace : List (Server Byte × Action Byte))
    (server : Server Byte) : Prop where
  start : server.totalStart = some startTime
  last : server.endTime = lastReading args trace
  stays : args.size = 0 → (server.pc = .loop ∨ server.pc = .exit) ∧ server.totalBytesWritten = 0

theorem Read.step {startTime : Nat} (read : Read args startTime trace server)
    (taken : Step .tcp args server action next) :
    Read args startTime (trace ++ [(server, action)]) next := by
  have stays : args.size = 0 →
      (next.pc = .loop ∨ next.pc = .exit) ∧ next.totalBytesWritten = 0 := by
    intro zero
    obtain ⟨place, written⟩ := read.stays zero
    have nothing : ssizeT args.maxBytes = 0 := by
      rw [Arguments.maxBytes_sizeT, zero, Int.zero_mul]
      rfl
    cases taken with
    | signal => exact ⟨place, written⟩
    | enter time pc more running => omega
    | finish time pc isOver => exact ⟨Or.inr rfl, written⟩
    | _ => simp_all
  rcases taken.clock with ⟨time, rfl, begins, rfl⟩ | ⟨_, _, sets, _⟩ | ⟨none, start, _, last, _⟩
  · refine ⟨read.start, ?_, stays⟩
    rw [lastReading_step]
    simp [begins, goto]
  · simp [setsUp] at sets
  · refine ⟨start.trans read.start, ?_, stays⟩
    rw [last, read.last, lastReading_step]
    split
    · rename_i time
      simp [(none time rfl).1]
    · rfl

theorem Read.run {readBuffer : List Byte} {revents : Bool} {startTime : Nat}
    (run : Run (machine .tcp args) (fresh readBuffer revents startTime) trace server) :
    Read args startTime trace server := by
  refine run.invariant (Read args startTime) ⟨rfl, rfl, fun _ => ⟨Or.inl rfl, rfl⟩⟩ ?_
  intro trace server action next _ read taken
  exact read.step (step_inv taken)

theorem Read.totalTime_eq_zero {startTime : Nat} (read : Read args startTime trace server) :
    server.totalTime = 0 ↔ sizeT (lastReading args trace) = sizeT startTime := by
  rw [totalTime, read.start, read.last, Option.getD_some]
  unfold sizeT
  omega

theorem defined_iff {readBuffer : List Byte} {revents : Bool} {startTime : Nat}
    (ints : args.Ints) (window : 0 ≤ args.size * args.rate)
    (run : Run (machine .tcp args) (fresh readBuffer revents startTime) trace server) :
    server.Defined args ↔ (server.pc = .exit →
      args.size ≠ 0 ∧ sizeT (lastReading args trace) ≠ sizeT startTime) := by
  have read := Read.run run
  have divisor := Arguments.reqSize_pos_iff ints
  constructor
  · intro defined exit
    have divides := defined.divides
    simp only [divisors, exit, List.mem_cons, List.not_mem_nil, or_false, not_or] at divides
    refine ⟨divisor.mp (Nat.pos_of_ne_zero (Ne.symm divides.1)), fun same => divides.2 ?_⟩
    exact (read.totalTime_eq_zero.mpr same).symm
  · intro measures
    have windowBounds := Arguments.product_bounds ints.size ints.rate
    have totalBounds := Arguments.product_bounds ints.size ints.count
    refine ⟨ints.bufferSize_eq window, ?_, ?_, ?_⟩
    · rw [Arguments.maxOutstandingBytes_sizeT]
      exact Arguments.ssizeT_sizeT windowBounds.1 windowBounds.2
    · rw [Arguments.maxBytes_sizeT]
      exact Arguments.ssizeT_sizeT totalBounds.1 totalBounds.2
    · have inside (away : ¬(server.pc = .loop ∨ server.pc = .exit)) : 0 < args.reqSize :=
        divisor.mpr fun zero => away (read.stays zero).1
      unfold divisors
      split
      · rename_i pc
        simpa using (inside (by simp [pc])).ne
      · rename_i pc
        simpa using (inside (by simp [pc])).ne
      · rename_i exit
        obtain ⟨some, moved⟩ := measures exit
        have requests := divisor.mpr some
        have time := read.totalTime_eq_zero.not.mpr moved
        simp only [List.mem_cons, List.not_mem_nil, or_false]
        omega
      · simp

end Server

/-- Whatever ints a tcp client and a tcp server are given, and whatever their system calls
return, they are defined exactly when they are evaluable, at every point of their runs. -/
theorem defined_iff_evaluable {Byte : Type} {args : Arguments} (ints : args.Ints)
    {allocation : ClientAllocation Byte args} {readBuffer : List Byte} {revents : Bool}
    {startTime : Nat} {clientTrace : List (Client Byte × Action Byte)} {client : Client Byte}
    {serverTrace : List (Server Byte × Action Byte)} {server : Server Byte}
    (clientRun : Run (Client.machine args) (Client.fresh allocation) clientTrace client)
    (serverRun : Run (Server.machine .tcp args) (Server.fresh readBuffer revents startTime)
      serverTrace server) :
    client.Defined args ∧ server.Defined args ↔
      Evaluable args startTime clientTrace client serverTrace server := by
  constructor
  · rintro ⟨clientDefined, serverDefined⟩
    have window : 0 ≤ args.size * args.rate := by
      rw [← clientDefined.window]
      exact Int.natCast_nonneg _
    have total : 0 ≤ args.size * args.count := by
      rw [← clientDefined.total]
      exact Int.natCast_nonneg _
    exact ⟨window, total, (Client.defined_iff ints window total clientRun).mp clientDefined,
      (Server.defined_iff ints window serverRun).mp serverDefined⟩
  · rintro ⟨window, total, gathers, measures⟩
    exact ⟨(Client.defined_iff ints window total clientRun).mpr gathers,
      (Server.defined_iff ints window serverRun).mpr measures⟩

theorem Config.ints (config : Config) : config.arguments.Ints := by
  have size := config.size_int
  have count := config.count_int
  have rate := config.rate_int
  constructor <;> simp only [Config.arguments] <;> omega

def ClientAllocation.twoBytes : ClientAllocation Nat Config.twoBytes.arguments where
  writeBuffer := [0, 0]
  times := [0]
  writeBuffer_length := by decide
  times_length := by decide

/-- A request that is answered in one piece, while the clock of the server moves. -/
theorem defined_iff_evaluable_whole : ∃ clientTrace client serverTrace server,
    Run (Client.machine Config.twoBytes.arguments) (Client.fresh .twoBytes) clientTrace client ∧
    Run (Server.machine .tcp Config.twoBytes.arguments) (Server.fresh [0, 0] false 0) serverTrace
      server ∧
    client.pc = .exit ∧ server.pc = .exit ∧
    client.Defined Config.twoBytes.arguments ∧ server.Defined Config.twoBytes.arguments := by
  obtain ⟨clientTrace, client, clientRun, gathered⟩ := exists_run_of_execute
    (Client.machine Config.twoBytes.arguments) (Client.fresh .twoBytes)
    [.advance 0, .poll (some (false, true)), .advance 0, .advance 0, .advance 0, .send 2,
      .advance 0, .advance 1, .poll (some (true, false)), .advance 1, .recv [0, 0], .advance 1,
      .advance 1, .advance 1, .advance 1]
    (fun result => decide (result.2.pc = .exit ∧
      Client.GathersRequest Config.twoBytes.arguments result.1))
    (by decide)
  obtain ⟨serverTrace, server, serverRun, measured⟩ := exists_run_of_execute
    (Server.machine .tcp Config.twoBytes.arguments) (Server.fresh [0, 0] false 0)
    [.advance 1, .poll (some (true, false)), .advance 1, .recv [0, 0], .advance 1, .advance 1,
      .advance 2, .poll (some (false, true)), .advance 2, .advance 2, .send 2, .advance 2,
      .advance 3]
    (fun result => decide (result.2.pc = .exit ∧
      Server.lastReading Config.twoBytes.arguments result.1 = 2))
    (by decide)
  simp only [decide_eq_true_eq] at gathered measured
  refine ⟨clientTrace, client, serverTrace, server, clientRun, serverRun, gathered.1, measured.1,
    (defined_iff_evaluable Config.twoBytes.ints clientRun serverRun).mpr ?_⟩
  refine ⟨by decide, by decide, fun _ => gathered.2, fun _ => ⟨by decide, ?_⟩⟩
  rw [measured.2]
  decide

/-- A request of two bytes whose answer arrives one byte at a time is not counted. -/
theorem runs_undefined : ¬∀ (args : Arguments), args.Ints →
    ∀ (allocation : ClientAllocation Nat args) (readBuffer : List Nat) (revents : Bool)
      (startTime : Nat) (clientTrace : List (Client Nat × Action Nat)) (client : Client Nat)
      (serverTrace : List (Server Nat × Action Nat)) (server : Server Nat),
    Run (Client.machine args) (Client.fresh allocation) clientTrace client →
    Run (Server.machine .tcp args) (Server.fresh readBuffer revents startTime) serverTrace server →
    (∀ entry ∈ clientTrace, entry.2.undisturbed = true) →
    (∀ entry ∈ serverTrace, entry.2.undisturbed = true) →
    client.Defined args ∧ server.Defined args := by
  intro promise
  obtain ⟨trace, client, run, reached⟩ := exists_run_of_execute
    (Client.machine Config.twoBytes.arguments) (Client.fresh .twoBytes)
    [.advance 0, .poll (some (false, true)), .advance 0, .advance 0, .advance 0, .send 2,
      .advance 0, .advance 1, .poll (some (true, false)), .advance 1, .recv [0], .stop, .advance 1,
      .advance 1, .advance 1, .advance 2, .poll (some (true, false)), .advance 2, .recv [0],
      .advance 2, .advance 2, .advance 2, .advance 2]
    (fun result => decide (result.2.pc = .exit ∧ result.2.count = 0 ∧
      ∀ entry ∈ result.1, entry.2.undisturbed = true))
    (by decide)
  obtain ⟨exit, count, calm⟩ := of_decide_eq_true reached
  have defined := (promise _ Config.twoBytes.ints .twoBytes [0, 0] false 0 trace client []
    (Server.fresh [0, 0] false 0) run Run.start calm (by simp)).1
  have positive := defined.assertion exit
  rw [count] at positive
  exact absurd positive (Int.lt_irrefl 0)

end IpcBench
