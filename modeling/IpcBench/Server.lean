import IpcBench.Process
import IpcBench.Transition

/-!
The `communicate` function of the tcp, domain and fifo servers. The loop is the same
in all three; they differ in when the benchmark clock is started and in how the
write side is polled.
-/

namespace IpcBench

open Words Transition

inductive ServerPc
  | loop
  | poll
  | read (canRead canWrite : Bool)
  | reading (canWrite : Bool) (transfer : Transfer)
  | readDone (canWrite : Bool) (info : MetaData)
  | write (canWrite : Bool) (toWrite : Nat)
  | writing (transfer : Transfer)
  | writeDone (info : MetaData)
  | exit
deriving DecidableEq, Repr

/-- The variables of a server. `pollsWrite` says that POLLOUT is among the polled
events (tcp, domain) or that `sizeToPoll` is 2 (fifo); `revents` is the POLLOUT bit
that the last poll of the write side left; `totalStart` is `bench.total_start`. -/
structure Server (Byte : Type) where
  pc : ServerPc
  quit : Bool
  outstandingBytes : Int
  totalBytesRead : Int
  totalBytesWritten : Int
  pollsWrite : Bool
  firstRead : Bool
  revents : Bool
  totalStart : Option Nat
  endTime : Nat
  readBuffer : List Byte
deriving DecidableEq, Repr

def store {Byte : Type} (buffer : List Byte) (offset : Nat) (data : List Byte) : List Byte :=
  buffer.take offset ++ data ++ buffer.drop (offset + data.length)

theorem store_length {Byte : Type} {buffer data : List Byte} {offset : Nat}
    (fits : offset + data.length ≤ buffer.length) :
    (store buffer offset data).length = buffer.length := by
  simp only [store, List.length_append, List.length_take, List.length_drop]
  omega

theorem store_take {Byte : Type} {buffer data : List Byte} {offset : Nat}
    (fits : offset + data.length ≤ buffer.length) :
    (store buffer offset data).take (offset + data.length) = buffer.take offset ++ data := by
  have filled : (buffer.take offset ++ data).length = offset + data.length := by
    simp only [List.length_append, List.length_take]
    omega
  rw [store, ← filled, List.take_left]

namespace Server

variable {Byte : Type}

/-- `toRead`: a full window, or more if more is outstanding. -/
def toRead (args : Arguments) (server : Server Byte) : Nat :=
  if ssizeT args.maxOutstandingBytes < server.outstandingBytes then
    sizeT server.outstandingBytes
  else sizeT (ssizeT args.maxOutstandingBytes)

def leave (server : Server Byte) : Server Byte :=
  { server with pc := .exit }

def goto (pc : ServerPc) (server : Server Byte) : Server Byte :=
  { server with pc := pc }

/-- What a server does after a read that returned bytes: from then on it polls its
write side, and the domain and fifo servers start their clock the first time. -/
def noteRead (transport : Transport) (time : Nat) (server : Server Byte) : Server Byte :=
  match transport with
  | .tcp => { server with pollsWrite := true }
  | .domain =>
      if server.firstRead then
        { server with totalStart := some time, pollsWrite := true, firstRead := false }
      else server
  | .fifo =>
      if server.firstRead then
        { server with totalStart := some time, pollsWrite := true, firstRead := false }
      else server

/-- The POLLOUT bit after a poll: the single descriptor of tcp and domain reports
only what it polls, the second descriptor of fifo keeps its old value while it is
not polled. -/
def writeEvent (transport : Transport) (writable : Bool) (server : Server Byte) : Bool :=
  match transport with
  | .tcp => server.pollsWrite && writable
  | .domain => server.pollsWrite && writable
  | .fifo => if server.pollsWrite then writable else server.revents

def accountRead (transport : Transport) (time : Nat) (info : MetaData) (server : Server Byte) :
    Server Byte :=
  let counted := { server with
    totalBytesRead := ssizeT (server.totalBytesRead + info.totalBytes)
    outstandingBytes := ssizeT (server.outstandingBytes + info.totalBytes) }
  if info.totalBytes ≠ 0 then counted.noteRead transport time else counted

/-- The local `toWrite` after `if (canRead ...)`. -/
def toWriteAfter (info : MetaData) (server : Server Byte) : Nat :=
  if info.totalBytes ≠ 0 then sizeT (sizeT server.outstandingBytes + info.totalBytes)
  else sizeT server.outstandingBytes

def accountWrite (info : MetaData) (server : Server Byte) : Server Byte :=
  { server with
    totalBytesWritten := ssizeT (server.totalBytesWritten + info.totalBytes)
    outstandingBytes := ssizeT (server.outstandingBytes - info.totalBytes) }

/-- The code from one system call to the next. -/
def advance (transport : Transport) (args : Arguments) (time : Nat) (server : Server Byte) :
    Option (Server Byte) :=
  match server.pc with
  | .loop =>
      if server.totalBytesWritten < ssizeT args.maxBytes ∧ server.quit = false then
        some ({ server with endTime := time }.goto .poll)
      else some server.leave
  | .read canRead canWrite =>
      if canRead = true ∧ server.quit = false then
        if server.toRead args = 0 then some (server.goto (.readDone canWrite .zero))
        else some (server.goto (.reading canWrite (.start (server.toRead args))))
      else some (server.goto (.write canWrite (sizeT server.outstandingBytes)))
  | .readDone canWrite info =>
      some ((server.accountRead transport time info).goto
        (.write canWrite (server.toWriteAfter info)))
  | .write canWrite toWrite =>
      if canWrite = true ∧ server.quit = false then
        if toWrite = 0 then some (server.goto (.writeDone .zero))
        else some (server.goto (.writing (.start toWrite)))
      else some (server.goto .loop)
  | .writeDone info => some ((server.accountWrite info).goto .loop)
  | _ => none

def polled (transport : Transport) (ready : Option (Bool × Bool)) (server : Server Byte) :
    Server Byte :=
  match ready with
  | none => server.leave
  | some (canRead, writable) =>
      if server.quit then server.leave
      else { server with revents := server.writeEvent transport writable }.goto
        (.read canRead (server.writeEvent transport writable))

def readOn (args : Arguments) (canWrite : Bool) (transfer : Transfer) (server : Server Byte) :
    Server Byte :=
  if transfer.unfinished then server.goto (.reading canWrite transfer)
  else server.goto (.readDone canWrite (transfer.metaData args.reqSize))

def writeOn (args : Arguments) (transfer : Transfer) (server : Server Byte) : Server Byte :=
  if transfer.unfinished then server.goto (.writing transfer)
  else server.goto (.writeDone (transfer.metaData args.reqSize))

def fill (offset : Nat) (data : List Byte) (server : Server Byte) : Server Byte :=
  { server with readBuffer := store server.readBuffer offset data }

def step (transport : Transport) (args : Arguments) (server : Server Byte) :
    Action Byte → Option (Server Byte)
  | .signal => some { server with quit := true }
  | .advance time => server.advance transport args time
  | .poll ready => if server.pc = .poll then some (server.polled transport ready) else none
  | .recv data =>
      match server.pc with
      | .reading canWrite transfer =>
          if 0 < data.length ∧ data.length ≤ transfer.request args.reqSize then
            some ((server.fill transfer.total data).readOn args canWrite
              (transfer.advance data.length))
          else none
      | _ => none
  | .send amount =>
      match server.pc with
      | .writing transfer =>
          if 0 < amount ∧ amount ≤ transfer.request args.reqSize then
            some (server.writeOn args (transfer.advance amount))
          else none
      | _ => none
  | .stop =>
      match server.pc with
      | .reading canWrite transfer =>
          some (server.goto (.readDone canWrite (transfer.metaData args.reqSize)))
      | .writing transfer => some (server.goto (.writeDone (transfer.metaData args.reqSize)))
      | _ => none
  | .broken =>
      match server.pc with
      | .writing transfer =>
          some ({ server with quit := true }.goto (.writeDone (transfer.metaData args.reqSize)))
      | _ => none

def outgoing (server : Server Byte) (amount : Nat) : List Byte :=
  match server.pc with
  | .writing transfer => (server.readBuffer.drop transfer.total).take amount
  | _ => []

def access (args : Arguments) (server : Server Byte) : Option (Nat × Nat) :=
  match server.pc with
  | .reading _ transfer => some (transfer.total, transfer.request args.reqSize)
  | .writing transfer => some (transfer.total, transfer.request args.reqSize)
  | _ => none

def machine (transport : Transport) (args : Arguments) : Machine (Server Byte) (Action Byte) where
  step := step transport args

inductive Step (transport : Transport) (args : Arguments) (server : Server Byte) :
    Action Byte → Server Byte → Prop
  | signal : Step transport args server .signal { server with quit := true }
  | enter (time : Nat) (pc : server.pc = .loop)
      (more : server.totalBytesWritten < ssizeT args.maxBytes) (running : server.quit = false) :
      Step transport args server (.advance time) ({ server with endTime := time }.goto .poll)
  | finish (time : Nat) (pc : server.pc = .loop)
      (isOver : ssizeT args.maxBytes ≤ server.totalBytesWritten ∨ server.quit = true) :
      Step transport args server (.advance time) server.leave
  | pollFailed (ready : Option (Bool × Bool)) (pc : server.pc = .poll)
      (failed : ready = none ∨ server.quit = true) :
      Step transport args server (.poll ready) server.leave
  | polled (canRead writable : Bool) (pc : server.pc = .poll) (running : server.quit = false) :
      Step transport args server (.poll (some (canRead, writable)))
        ({ server with revents := server.writeEvent transport writable }.goto
          (.read canRead (server.writeEvent transport writable)))
  | skipRead (time : Nat) (canRead canWrite : Bool) (pc : server.pc = .read canRead canWrite)
      (skipped : canRead = false ∨ server.quit = true) :
      Step transport args server (.advance time)
        (server.goto (.write canWrite (sizeT server.outstandingBytes)))
  | readNothing (time : Nat) (canWrite : Bool) (pc : server.pc = .read true canWrite)
      (running : server.quit = false) (empty : server.toRead args = 0) :
      Step transport args server (.advance time) (server.goto (.readDone canWrite .zero))
  | startRead (time : Nat) (canWrite : Bool) (pc : server.pc = .read true canWrite)
      (running : server.quit = false) (nonempty : 0 < server.toRead args) :
      Step transport args server (.advance time)
        (server.goto (.reading canWrite (.start (server.toRead args))))
  | recvSome (data : List Byte) (canWrite : Bool) (transfer : Transfer)
      (pc : server.pc = .reading canWrite transfer) (nonempty : 0 < data.length)
      (fits : data.length ≤ transfer.request args.reqSize)
      (more : transfer.total + data.length < transfer.limit) :
      Step transport args server (.recv data)
        ((server.fill transfer.total data).goto
          (.reading canWrite (transfer.advance data.length)))
  | recvLast (data : List Byte) (canWrite : Bool) (transfer : Transfer)
      (pc : server.pc = .reading canWrite transfer) (nonempty : 0 < data.length)
      (fits : data.length ≤ transfer.request args.reqSize)
      (full : transfer.limit ≤ transfer.total + data.length) :
      Step transport args server (.recv data)
        ((server.fill transfer.total data).goto
          (.readDone canWrite ((transfer.advance data.length).metaData args.reqSize)))
  | recvStop (canWrite : Bool) (transfer : Transfer)
      (pc : server.pc = .reading canWrite transfer) :
      Step transport args server .stop
        (server.goto (.readDone canWrite (transfer.metaData args.reqSize)))
  | accountRead (time : Nat) (canWrite : Bool) (info : MetaData)
      (pc : server.pc = .readDone canWrite info) :
      Step transport args server (.advance time)
        ((server.accountRead transport time info).goto
          (.write canWrite (server.toWriteAfter info)))
  | skipWrite (time : Nat) (canWrite : Bool) (toWrite : Nat)
      (pc : server.pc = .write canWrite toWrite)
      (skipped : canWrite = false ∨ server.quit = true) :
      Step transport args server (.advance time) (server.goto .loop)
  | writeNothing (time : Nat) (pc : server.pc = .write true 0) (running : server.quit = false) :
      Step transport args server (.advance time) (server.goto (.writeDone .zero))
  | startWrite (time : Nat) (toWrite : Nat) (pc : server.pc = .write true toWrite)
      (running : server.quit = false) (nonempty : 0 < toWrite) :
      Step transport args server (.advance time) (server.goto (.writing (.start toWrite)))
  | sendSome (amount : Nat) (transfer : Transfer) (pc : server.pc = .writing transfer)
      (nonempty : 0 < amount) (fits : amount ≤ transfer.request args.reqSize)
      (more : transfer.total + amount < transfer.limit) :
      Step transport args server (.send amount)
        (server.goto (.writing (transfer.advance amount)))
  | sendLast (amount : Nat) (transfer : Transfer) (pc : server.pc = .writing transfer)
      (nonempty : 0 < amount) (fits : amount ≤ transfer.request args.reqSize)
      (full : transfer.limit ≤ transfer.total + amount) :
      Step transport args server (.send amount)
        (server.goto (.writeDone ((transfer.advance amount).metaData args.reqSize)))
  | sendStop (transfer : Transfer) (pc : server.pc = .writing transfer) :
      Step transport args server .stop
        (server.goto (.writeDone (transfer.metaData args.reqSize)))
  | sendBroken (transfer : Transfer) (pc : server.pc = .writing transfer) :
      Step transport args server .broken
        ({ server with quit := true }.goto (.writeDone (transfer.metaData args.reqSize)))
  | accountWrite (time : Nat) (info : MetaData) (pc : server.pc = .writeDone info) :
      Step transport args server (.advance time) ((server.accountWrite info).goto .loop)

variable {transport : Transport} {args : Arguments} {server next : Server Byte}
  {action : Action Byte}

theorem advance_inv {time : Nat} (taken : server.advance transport args time = some next) :
    Step transport args server (.advance time) next := by
  unfold advance at taken
  split at taken
  case h_1 pc =>
    split at taken <;> cases taken
    · rename_i both
      exact .enter time pc both.1 both.2
    · rename_i neither
      refine .finish time pc ?_
      by_cases quit : server.quit = true
      · exact Or.inr quit
      · exact Or.inl (by simpa [quit] using neither)
  case h_2 canRead canWrite pc =>
    split at taken
    · rename_i both
      obtain ⟨rfl, running⟩ := both
      split at taken <;> cases taken
      · rename_i empty
        exact .readNothing time canWrite pc running empty
      · rename_i nonempty
        exact .startRead time canWrite pc running (Nat.pos_of_ne_zero nonempty)
    · rename_i neither
      cases taken
      refine .skipRead time canRead canWrite pc ?_
      cases canRead <;> simp_all
  case h_3 canWrite info pc =>
    cases taken
    exact .accountRead time canWrite info pc
  case h_4 canWrite toWrite pc =>
    split at taken
    · rename_i both
      obtain ⟨rfl, running⟩ := both
      split at taken <;> cases taken
      · rename_i empty
        subst empty
        exact .writeNothing time pc running
      · rename_i nonempty
        exact .startWrite time toWrite pc running (Nat.pos_of_ne_zero nonempty)
    · rename_i neither
      cases taken
      refine .skipWrite time canWrite toWrite pc ?_
      cases canWrite <;> simp_all
  case h_5 info pc =>
    cases taken
    exact .accountWrite time info pc
  case h_6 => cases taken

theorem step_inv (taken : server.step transport args action = some next) :
    Step transport args server action next := by
  cases action with
  | signal =>
      cases taken
      exact .signal
  | advance time => exact advance_inv taken
  | poll ready =>
      simp only [step] at taken
      split at taken
      · rename_i pc
        cases taken
        match ready with
        | none => exact .pollFailed none pc (Or.inl rfl)
        | some (canRead, writable) =>
            by_cases quit : server.quit = true
            · rw [Server.polled, if_pos quit]
              exact .pollFailed _ pc (Or.inr quit)
            · rw [Server.polled, if_neg quit]
              exact .polled canRead writable pc (by simpa using quit)
      · cases taken
  | recv data =>
      simp only [step] at taken
      split at taken
      · rename_i canWrite transfer pc
        split at taken
        · rename_i bounds
          cases taken
          by_cases more : transfer.total + data.length < transfer.limit
          · simpa [readOn, Transfer.unfinished, more] using
              Step.recvSome data canWrite transfer pc bounds.1 bounds.2 more
          · simpa [readOn, Transfer.unfinished, more] using
              Step.recvLast data canWrite transfer pc bounds.1 bounds.2 (by omega)
        · cases taken
      · cases taken
  | send amount =>
      simp only [step] at taken
      split at taken
      · rename_i transfer pc
        split at taken
        · rename_i bounds
          cases taken
          by_cases more : transfer.total + amount < transfer.limit
          · simpa [writeOn, Transfer.unfinished, more] using
              Step.sendSome amount transfer pc bounds.1 bounds.2 more
          · simpa [writeOn, Transfer.unfinished, more] using
              Step.sendLast amount transfer pc bounds.1 bounds.2 (by omega)
        · cases taken
      · cases taken
  | stop =>
      simp only [step] at taken
      split at taken
      · rename_i canWrite transfer pc
        cases taken
        exact .recvStop canWrite transfer pc
      · rename_i transfer pc
        cases taken
        exact .sendStop transfer pc
      · cases taken
  | broken =>
      simp only [step] at taken
      split at taken
      · rename_i transfer pc
        cases taken
        exact .sendBroken transfer pc
      · cases taken

theorem Step.taken (taken : Step transport args server action next) :
    server.step transport args action = some next := by
  cases taken with
  | signal => rfl
  | enter time pc more running => simp [step, advance, pc, more, running]
  | finish time pc isOver =>
      simp only [step, advance, pc]
      rw [if_neg]
      rintro ⟨more, running⟩
      rcases isOver with reached | quit
      · omega
      · simp [running] at quit
  | pollFailed ready pc failed =>
      rcases failed with rfl | quit
      · simp [step, Server.polled, pc]
      · cases ready <;> simp [step, Server.polled, pc, quit]
  | polled canRead canWrite pc running => simp [step, Server.polled, pc, running]
  | skipRead time canRead canWrite pc skipped =>
      rcases skipped with rfl | quit
      · simp [step, advance, pc]
      · simp [step, advance, pc, quit]
  | readNothing time canWrite pc running empty =>
      simp [step, advance, pc, running, empty]
  | startRead time canWrite pc running nonempty =>
      simp [step, advance, pc, running, Nat.ne_of_gt nonempty]
  | recvSome data canWrite transfer pc nonempty fits more =>
      simp [step, readOn, Transfer.unfinished, pc, nonempty, fits, more]
  | recvLast data canWrite transfer pc nonempty fits full =>
      simp [step, readOn, Transfer.unfinished, pc, nonempty, fits, Nat.not_lt.mpr full]
  | recvStop canWrite transfer pc => simp [step, pc]
  | accountRead time canWrite info pc => simp [step, advance, pc]
  | skipWrite time canWrite toWrite pc skipped =>
      rcases skipped with rfl | quit
      · simp [step, advance, pc]
      · simp [step, advance, pc, quit]
  | writeNothing time pc running => simp [step, advance, pc, running]
  | startWrite time toWrite pc running nonempty =>
      simp [step, advance, pc, running, Nat.ne_of_gt nonempty]
  | sendSome amount transfer pc nonempty fits more =>
      simp [step, writeOn, Transfer.unfinished, pc, nonempty, fits, more]
  | sendLast amount transfer pc nonempty fits full =>
      simp [step, writeOn, Transfer.unfinished, pc, nonempty, fits, Nat.not_lt.mpr full]
  | sendStop transfer pc => simp [step, pc]
  | sendBroken transfer pc => simp [step, pc]
  | accountWrite time info pc => simp [step, advance, pc]

theorem accountRead_quit (transport : Transport) (time : Nat) (info : MetaData)
    (server : Server Byte) : (server.accountRead transport time info).quit = server.quit := by
  by_cases moved : info.totalBytes = 0
  · simp [Server.accountRead, moved]
  · cases fresh : server.firstRead <;> cases transport <;>
      simp [Server.accountRead, noteRead, moved, fresh]

theorem Step.quit_eq (taken : Step transport args server action next)
    (calm : action.undisturbed = true) : next.quit = server.quit := by
  cases taken with
  | signal => cases calm
  | sendBroken transfer pc => cases calm
  | accountRead time canWrite info pc => exact accountRead_quit transport time info server
  | _ => rfl

theorem Step.exit_inv (taken : Step transport args server action next)
    (calm : action.undisturbed = true) (running : server.quit = false) (exit : next.pc = .exit) :
    (server.pc = .exit ∨ ssizeT args.maxBytes ≤ server.totalBytesWritten) ∧
      next.totalBytesWritten = server.totalBytesWritten := by
  cases taken with
  | signal => cases calm
  | finish time pc isOver =>
      simp only [running, Bool.false_eq_true, or_false] at isOver
      exact ⟨Or.inr isOver, rfl⟩
  | pollFailed ready pc failed =>
      simp only [running, Bool.false_eq_true, or_false] at failed
      subst failed
      cases calm
  | _ => simp [goto] at exit

end Server

/-- What a server finds when it reaches its loop: a buffer of the size asked for, the
`revents` that no poll has written yet, and the reading of the clock that
`setup_benchmarks` took. -/
structure ServerMemory (Byte : Type) (config : Config) where
  readBuffer : List Byte
  revents : Bool
  startTime : Nat
  readBuffer_length : readBuffer.length = config.window

/-- The server when it reaches its loop. Only the tcp server has started its clock. -/
def Server.initial {Byte : Type} {config : Config} (transport : Transport)
    (memory : ServerMemory Byte config) : Server Byte where
  pc := .loop
  quit := false
  outstandingBytes := 0
  totalBytesRead := 0
  totalBytesWritten := 0
  pollsWrite := false
  firstRead := true
  revents := memory.revents
  totalStart := if transport = .tcp then some memory.startTime else none
  endTime := 0
  readBuffer := memory.readBuffer

end IpcBench
