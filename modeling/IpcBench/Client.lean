import IpcBench.Arguments
import IpcBench.Latency
import IpcBench.Process
import IpcBench.Transition

/-!
The `communicate` function of the tcp, domain and fifo clients. The three differ in
the descriptors they poll and in the flags of their transfers, not in this loop.
-/

namespace IpcBench

open Accesses Words Transition

inductive ClientPc
  | loop
  | poll
  | read (canRead canWrite : Bool)
  | reading (canWrite : Bool) (transfer : Transfer)
  | readDone (canWrite : Bool) (info : MetaData)
  | stamp (canWrite : Bool)
  | write (canWrite : Bool)
  | writing (transfer : Transfer)
  | writeDone (info : MetaData)
  | exit
deriving DecidableEq, Repr

/-- The variables of a client. `count` is `args->count`, which is written at exit. -/
structure Client (Byte : Type) where
  pc : ClientPc
  quit : Bool
  outstandingBytes : Nat
  totalBytesRead : Int
  totalBytesWritten : Int
  numReqsRead : Nat
  numReqsSent : Nat
  outstandingReqs : Nat
  times : List Nat
  count : Int
  writeBuffer : List Byte
deriving DecidableEq, Repr

namespace Client

variable {Byte : Type}

def readLimit (client : Client Byte) : Nat :=
  client.outstandingBytes

/-- The limit of the next `write_to_socket` or `write_to_pipe`, computed under the
test `outstandingBytes < maxOutstandingBytes`. -/
def writeLimit (args : Arguments) (client : Client Byte) : Nat :=
  args.maxOutstandingBytes - client.outstandingBytes

def leave (client : Client Byte) : Client Byte :=
  { client with
    pc := .exit
    count := if sizeT client.count < client.numReqsRead then client.count
      else intT client.numReqsRead }

def toUpdateRead (info : MetaData) : Nat :=
  if 0 < info.wholeReqs then info.wholeReqs else 0

theorem toUpdateRead_eq (info : MetaData) : toUpdateRead info = info.wholeReqs := by
  unfold toUpdateRead
  split <;> omega

def readTimes (time : Nat) (info : MetaData) (client : Client Byte) : Tracked Nat :=
  LatencyArray.updateReadWriteTimes time (sizeT client.count) client.numReqsRead
    (toUpdateRead info) (.fresh client.times)

def stampTimes (args : Arguments) (time : Nat) (client : Client Byte) : Tracked Nat :=
  LatencyArray.updateWriteTimes time (sizeT client.count) client.numReqsSent
    (args.maxOutstandingReqs - client.outstandingReqs) (.fresh client.times)

@[simp] theorem readTimes_length (time : Nat) (info : MetaData) (client : Client Byte) :
    (client.readTimes time info).values.length = client.times.length :=
  LatencyArray.updateReadWriteTimes_length

@[simp] theorem stampTimes_length (args : Arguments) (time : Nat) (client : Client Byte) :
    (client.stampTimes args time).values.length = client.times.length :=
  LatencyArray.updateWriteTimes_length

/-- What follows a read helper inside `if (canRead ...)`. -/
def accountRead (time : Nat) (info : MetaData) (client : Client Byte) : Client Byte :=
  { client with
    outstandingBytes := sizeT (client.outstandingBytes - info.totalBytes)
    totalBytesRead := ssizeT (client.totalBytesRead + info.totalBytes)
    outstandingReqs := if 0 < info.wholeReqs then
      sizeT (client.outstandingReqs - info.wholeReqs) else client.outstandingReqs
    times := (client.readTimes time info).values
    numReqsRead := sizeT (client.numReqsRead + toUpdateRead info) }

/-- `if (outstandingReqs < maxOutstandingReqs)`, before it is known what is written. -/
def stampWrites (args : Arguments) (time : Nat) (client : Client Byte) : Client Byte :=
  if client.outstandingReqs < args.maxOutstandingReqs then
    { client with
      times := (client.stampTimes args time).values
      numReqsSent := sizeT (client.numReqsSent +
        (args.maxOutstandingReqs - client.outstandingReqs : Nat)) }
  else client

section StampWrites

variable (args : Arguments) (time : Nat) (client : Client Byte)

@[simp] theorem stampWrites_pc : (client.stampWrites args time).pc = client.pc := by
  unfold stampWrites
  split <;> rfl

@[simp] theorem stampWrites_quit : (client.stampWrites args time).quit = client.quit := by
  unfold stampWrites
  split <;> rfl

@[simp] theorem stampWrites_outstandingBytes :
    (client.stampWrites args time).outstandingBytes = client.outstandingBytes := by
  unfold stampWrites
  split <;> rfl

@[simp] theorem stampWrites_totalBytesRead :
    (client.stampWrites args time).totalBytesRead = client.totalBytesRead := by
  unfold stampWrites
  split <;> rfl

@[simp] theorem stampWrites_numReqsRead :
    (client.stampWrites args time).numReqsRead = client.numReqsRead := by
  unfold stampWrites
  split <;> rfl

@[simp] theorem stampWrites_outstandingReqs :
    (client.stampWrites args time).outstandingReqs = client.outstandingReqs := by
  unfold stampWrites
  split <;> rfl

@[simp] theorem stampWrites_count : (client.stampWrites args time).count = client.count := by
  unfold stampWrites
  split <;> rfl

end StampWrites

def accountWrite (info : MetaData) (client : Client Byte) : Client Byte :=
  { client with
    outstandingBytes := sizeT (client.outstandingBytes + info.totalBytes)
    totalBytesWritten := ssizeT (client.totalBytesWritten + info.totalBytes)
    outstandingReqs := if 0 < info.wholeReqs then
      sizeT (client.outstandingReqs + info.wholeReqs) else client.outstandingReqs }

def goto (pc : ClientPc) (client : Client Byte) : Client Byte :=
  { client with pc := pc }

/-- The code from one system call to the next. -/
def advance (args : Arguments) (time : Nat) (client : Client Byte) : Option (Client Byte) :=
  match client.pc with
  | .loop =>
      if sizeT client.totalBytesRead < args.maxBytes ∧ client.quit = false then
        some (client.goto .poll)
      else some client.leave
  | .read canRead canWrite =>
      if canRead = true ∧ client.quit = false then
        if client.readLimit = 0 then some (client.goto (.readDone canWrite .zero))
        else some (client.goto (.reading canWrite (.start client.readLimit)))
      else some (client.goto (.stamp canWrite))
  | .readDone canWrite info => some ((client.accountRead time info).goto (.stamp canWrite))
  | .stamp canWrite => some ((client.stampWrites args time).goto (.write canWrite))
  | .write canWrite =>
      if canWrite = true ∧ client.outstandingBytes < args.maxOutstandingBytes ∧
          client.quit = false then
        some (client.goto (.writing (.start (client.writeLimit args))))
      else some (client.goto .loop)
  | .writeDone info => some ((client.accountWrite info).goto .loop)
  | _ => none

def polled (ready : Option (Bool × Bool)) (client : Client Byte) : Client Byte :=
  match ready with
  | none => client.leave
  | some (canRead, canWrite) =>
      if client.quit then client.leave else client.goto (.read canRead canWrite)

def readOn (args : Arguments) (canWrite : Bool) (transfer : Transfer) (client : Client Byte) :
    Client Byte :=
  if transfer.unfinished then client.goto (.reading canWrite transfer)
  else client.goto (.readDone canWrite (transfer.metaData args.reqSize))

def writeOn (args : Arguments) (transfer : Transfer) (client : Client Byte) : Client Byte :=
  if transfer.unfinished then client.goto (.writing transfer)
  else client.goto (.writeDone (transfer.metaData args.reqSize))

def step (args : Arguments) (client : Client Byte) : Action Byte → Option (Client Byte)
  | .signal => some { client with quit := true }
  | .advance time => client.advance args time
  | .poll ready => if client.pc = .poll then some (client.polled ready) else none
  | .recv data =>
      match client.pc with
      | .reading canWrite transfer =>
          if 0 < data.length ∧ data.length ≤ transfer.request args.reqSize then
            some (client.readOn args canWrite (transfer.advance data.length))
          else none
      | _ => none
  | .send amount =>
      match client.pc with
      | .writing transfer =>
          if 0 < amount ∧ amount ≤ transfer.request args.reqSize then
            some (client.writeOn args (transfer.advance amount))
          else none
      | _ => none
  | .stop =>
      match client.pc with
      | .reading canWrite transfer =>
          some (client.goto (.readDone canWrite (transfer.metaData args.reqSize)))
      | .writing transfer => some (client.goto (.writeDone (transfer.metaData args.reqSize)))
      | _ => none
  | .broken =>
      match client.pc with
      | .writing transfer =>
          some ({ client with quit := true }.goto (.writeDone (transfer.metaData args.reqSize)))
      | _ => none

def outgoing (client : Client Byte) (amount : Nat) : List Byte :=
  match client.pc with
  | .writing transfer => (client.writeBuffer.drop transfer.total).take amount
  | _ => []

def access (args : Arguments) (client : Client Byte) : Option (Nat × Nat) :=
  match client.pc with
  | .reading _ transfer => some (transfer.total, transfer.request args.reqSize)
  | .writing transfer => some (transfer.total, transfer.request args.reqSize)
  | _ => none

def machine (args : Arguments) : Machine (Client Byte) (Action Byte) where
  step := step args

inductive Step (args : Arguments) (client : Client Byte) : Action Byte → Client Byte → Prop
  | signal : Step args client .signal { client with quit := true }
  | enter (time : Nat) (pc : client.pc = .loop)
      (more : sizeT client.totalBytesRead < args.maxBytes) (running : client.quit = false) :
      Step args client (.advance time) (client.goto .poll)
  | finish (time : Nat) (pc : client.pc = .loop)
      (isOver : args.maxBytes ≤ sizeT client.totalBytesRead ∨ client.quit = true) :
      Step args client (.advance time) client.leave
  | pollFailed (ready : Option (Bool × Bool)) (pc : client.pc = .poll)
      (failed : ready = none ∨ client.quit = true) :
      Step args client (.poll ready) client.leave
  | polled (canRead canWrite : Bool) (pc : client.pc = .poll) (running : client.quit = false) :
      Step args client (.poll (some (canRead, canWrite))) (client.goto (.read canRead canWrite))
  | skipRead (time : Nat) (canRead canWrite : Bool) (pc : client.pc = .read canRead canWrite)
      (skipped : canRead = false ∨ client.quit = true) :
      Step args client (.advance time) (client.goto (.stamp canWrite))
  | readNothing (time : Nat) (canWrite : Bool) (pc : client.pc = .read true canWrite)
      (running : client.quit = false) (empty : client.outstandingBytes = 0) :
      Step args client (.advance time) (client.goto (.readDone canWrite .zero))
  | startRead (time : Nat) (canWrite : Bool) (pc : client.pc = .read true canWrite)
      (running : client.quit = false) (nonempty : 0 < client.outstandingBytes) :
      Step args client (.advance time)
        (client.goto (.reading canWrite (.start client.outstandingBytes)))
  | recvSome (data : List Byte) (canWrite : Bool) (transfer : Transfer)
      (pc : client.pc = .reading canWrite transfer) (nonempty : 0 < data.length)
      (fits : data.length ≤ transfer.request args.reqSize)
      (more : transfer.total + data.length < transfer.limit) :
      Step args client (.recv data)
        (client.goto (.reading canWrite (transfer.advance data.length)))
  | recvLast (data : List Byte) (canWrite : Bool) (transfer : Transfer)
      (pc : client.pc = .reading canWrite transfer) (nonempty : 0 < data.length)
      (fits : data.length ≤ transfer.request args.reqSize)
      (full : transfer.limit ≤ transfer.total + data.length) :
      Step args client (.recv data)
        (client.goto (.readDone canWrite ((transfer.advance data.length).metaData args.reqSize)))
  | recvStop (canWrite : Bool) (transfer : Transfer)
      (pc : client.pc = .reading canWrite transfer) :
      Step args client .stop
        (client.goto (.readDone canWrite (transfer.metaData args.reqSize)))
  | accountRead (time : Nat) (canWrite : Bool) (info : MetaData)
      (pc : client.pc = .readDone canWrite info) :
      Step args client (.advance time) ((client.accountRead time info).goto (.stamp canWrite))
  | stamp (time : Nat) (canWrite : Bool) (pc : client.pc = .stamp canWrite) :
      Step args client (.advance time) ((client.stampWrites args time).goto (.write canWrite))
  | skipWrite (time : Nat) (canWrite : Bool) (pc : client.pc = .write canWrite)
      (skipped : canWrite = false ∨ args.maxOutstandingBytes ≤ client.outstandingBytes ∨
        client.quit = true) :
      Step args client (.advance time) (client.goto .loop)
  | startWrite (time : Nat) (pc : client.pc = .write true)
      (room : client.outstandingBytes < args.maxOutstandingBytes)
      (running : client.quit = false) :
      Step args client (.advance time)
        (client.goto (.writing (.start (args.maxOutstandingBytes - client.outstandingBytes))))
  | sendSome (amount : Nat) (transfer : Transfer) (pc : client.pc = .writing transfer)
      (nonempty : 0 < amount) (fits : amount ≤ transfer.request args.reqSize)
      (more : transfer.total + amount < transfer.limit) :
      Step args client (.send amount) (client.goto (.writing (transfer.advance amount)))
  | sendLast (amount : Nat) (transfer : Transfer) (pc : client.pc = .writing transfer)
      (nonempty : 0 < amount) (fits : amount ≤ transfer.request args.reqSize)
      (full : transfer.limit ≤ transfer.total + amount) :
      Step args client (.send amount)
        (client.goto (.writeDone ((transfer.advance amount).metaData args.reqSize)))
  | sendStop (transfer : Transfer) (pc : client.pc = .writing transfer) :
      Step args client .stop (client.goto (.writeDone (transfer.metaData args.reqSize)))
  | sendBroken (transfer : Transfer) (pc : client.pc = .writing transfer) :
      Step args client .broken
        ({ client with quit := true }.goto (.writeDone (transfer.metaData args.reqSize)))
  | accountWrite (time : Nat) (info : MetaData) (pc : client.pc = .writeDone info) :
      Step args client (.advance time) ((client.accountWrite info).goto .loop)

variable {args : Arguments} {client next : Client Byte} {action : Action Byte}

theorem advance_inv {time : Nat} (taken : client.advance args time = some next) :
    Step args client (.advance time) next := by
  unfold advance at taken
  split at taken
  case h_1 pc =>
    split at taken <;> cases taken
    · rename_i both
      exact .enter time pc both.1 both.2
    · rename_i neither
      refine .finish time pc ?_
      by_cases quit : client.quit = true
      · exact Or.inr quit
      · exact Or.inl (by simpa [quit] using neither)
  case h_2 canRead canWrite pc =>
    split at taken
    · rename_i both
      obtain ⟨rfl, running⟩ := both
      split at taken <;> cases taken
      · rename_i empty
        exact .readNothing time canWrite pc running empty
      · rename_i nonempty
        exact .startRead time canWrite pc running (Nat.pos_of_ne_zero nonempty)
    · rename_i neither
      cases taken
      refine .skipRead time canRead canWrite pc ?_
      cases canRead <;> simp_all
  case h_3 canWrite info pc =>
    cases taken
    exact .accountRead time canWrite info pc
  case h_4 canWrite pc =>
    cases taken
    exact .stamp time canWrite pc
  case h_5 canWrite pc =>
    split at taken <;> cases taken
    · rename_i all
      obtain ⟨rfl, room, running⟩ := all
      exact .startWrite time pc room running
    · rename_i neither
      refine .skipWrite time canWrite pc ?_
      cases canWrite
      · exact Or.inl rfl
      · by_cases room : client.outstandingBytes < args.maxOutstandingBytes
        · exact Or.inr (Or.inr (by simpa [room] using neither))
        · exact Or.inr (Or.inl (by omega))
  case h_6 info pc =>
    cases taken
    exact .accountWrite time info pc
  case h_7 => cases taken

theorem step_inv (taken : client.step args action = some next) : Step args client action next := by
  cases action with
  | signal =>
      cases taken
      exact .signal
  | advance time => exact advance_inv taken
  | poll ready =>
      simp only [step] at taken
      split at taken
      · rename_i pc
        cases taken
        match ready with
        | none => exact .pollFailed none pc (Or.inl rfl)
        | some (canRead, canWrite) =>
            by_cases quit : client.quit = true
            · rw [Client.polled, if_pos quit]
              exact .pollFailed _ pc (Or.inr quit)
            · rw [Client.polled, if_neg quit]
              exact .polled canRead canWrite pc (by simpa using quit)
      · cases taken
  | recv data =>
      simp only [step] at taken
      split at taken
      · rename_i canWrite transfer pc
        split at taken
        · rename_i bounds
          cases taken
          by_cases more : transfer.total + data.length < transfer.limit
          · simpa [readOn, Transfer.unfinished, more] using
              Step.recvSome data canWrite transfer pc bounds.1 bounds.2 more
          · simpa [readOn, Transfer.unfinished, more] using
              Step.recvLast data canWrite transfer pc bounds.1 bounds.2 (by omega)
        · cases taken
      · cases taken
  | send amount =>
      simp only [step] at taken
      split at taken
      · rename_i transfer pc
        split at taken
        · rename_i bounds
          cases taken
          by_cases more : transfer.total + amount < transfer.limit
          · simpa [writeOn, Transfer.unfinished, more] using
              Step.sendSome amount transfer pc bounds.1 bounds.2 more
          · simpa [writeOn, Transfer.unfinished, more] using
              Step.sendLast amount transfer pc bounds.1 bounds.2 (by omega)
        · cases taken
      · cases taken
  | stop =>
      simp only [step] at taken
      split at taken
      · rename_i canWrite transfer pc
        cases taken
        exact .recvStop canWrite transfer pc
      · rename_i transfer pc
        cases taken
        exact .sendStop transfer pc
      · cases taken
  | broken =>
      simp only [step] at taken
      split at taken
      · rename_i transfer pc
        cases taken
        exact .sendBroken transfer pc
      · cases taken

theorem Step.taken (taken : Step args client action next) :
    client.step args action = some next := by
  cases taken with
  | signal => rfl
  | enter time pc more running => simp [step, advance, pc, more, running]
  | finish time pc isOver =>
      simp only [step, advance, pc]
      rw [if_neg]
      rintro ⟨more, running⟩
      rcases isOver with reached | quit
      · omega
      · simp [running] at quit
  | pollFailed ready pc failed =>
      rcases failed with rfl | quit
      · simp [step, Client.polled, pc]
      · cases ready <;> simp [step, Client.polled, pc, quit]
  | polled canRead canWrite pc running => simp [step, Client.polled, pc, running]
  | skipRead time canRead canWrite pc skipped =>
      rcases skipped with rfl | quit
      · simp [step, advance, pc]
      · simp [step, advance, pc, quit]
  | readNothing time canWrite pc running empty =>
      simp [step, advance, readLimit, pc, running, empty]
  | startRead time canWrite pc running nonempty =>
      simp [step, advance, readLimit, pc, running, Nat.ne_of_gt nonempty]
  | recvSome data canWrite transfer pc nonempty fits more =>
      simp [step, readOn, Transfer.unfinished, pc, nonempty, fits, more]
  | recvLast data canWrite transfer pc nonempty fits full =>
      simp [step, readOn, Transfer.unfinished, pc, nonempty, fits, Nat.not_lt.mpr full]
  | recvStop canWrite transfer pc => simp [step, pc]
  | accountRead time canWrite info pc => simp [step, advance, pc]
  | stamp time canWrite pc => simp [step, advance, pc]
  | skipWrite time canWrite pc skipped =>
      rcases skipped with rfl | full | quit
      · simp [step, advance, pc]
      · simp [step, advance, pc, Nat.not_lt.mpr full]
      · simp [step, advance, pc, quit]
  | startWrite time pc room running =>
      simp [step, advance, writeLimit, pc, room, running]
  | sendSome amount transfer pc nonempty fits more =>
      simp [step, writeOn, Transfer.unfinished, pc, nonempty, fits, more]
  | sendLast amount transfer pc nonempty fits full =>
      simp [step, writeOn, Transfer.unfinished, pc, nonempty, fits, Nat.not_lt.mpr full]
  | sendStop transfer pc => simp [step, pc]
  | sendBroken transfer pc => simp [step, pc]
  | accountWrite time info pc => simp [step, advance, pc]

theorem Step.quit_eq (taken : Step args client action next) (calm : action.undisturbed = true) :
    next.quit = client.quit := by
  cases taken with
  | signal => cases calm
  | sendBroken transfer pc => cases calm
  | stamp time canWrite pc => exact stampWrites_quit args time client
  | _ => rfl

end Client

structure ClientMemory (Byte : Type) (config : Config) where
  writeBuffer : List Byte
  times : List Nat
  writeBuffer_length : writeBuffer.length = config.window
  times_length : times.length = config.count

def Client.initial {Byte : Type} {config : Config} (memory : ClientMemory Byte config) :
    Client Byte where
  pc := .loop
  quit := false
  outstandingBytes := 0
  totalBytesRead := 0
  totalBytesWritten := 0
  numReqsRead := 0
  numReqsSent := 0
  outstandingReqs := 0
  times := memory.times
  count := config.count
  writeBuffer := memory.writeBuffer

end IpcBench
