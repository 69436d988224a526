import IpcBench.Alone
import IpcBench.Echo
import IpcBench.TcpWindow

/-!
The blocking transports. A helper that never returns early moves a whole window of
bytes or none, so both processes run in windows, the server echoes what it reads and
the two never wait for each other.
-/

namespace IpcBench

open Words Transition

variable {Byte : Type} {config : Config} {transport : Transport}

def Config.windows (config : Config) : Nat :=
  (config.count + config.rate - 1) / config.rate

def Config.covered (config : Config) : Nat :=
  config.windows * config.window

namespace Config

variable (config : Config)

theorem windows_bounds : config.count ≤ config.windows * config.rate ∧
    config.windows * config.rate < config.count + config.rate := by
  have rate := config.rate_pos
  have division := Nat.div_add_mod (config.count + config.rate - 1) config.rate
  have remainder := Nat.mod_lt (config.count + config.rate - 1) rate
  have product : config.rate * config.windows = config.windows * config.rate := Nat.mul_comm _ _
  unfold windows at *
  omega

theorem covered_eq : config.covered = config.size * (config.windows * config.rate) := by
  rw [covered, window, Nat.mul_left_comm]

theorem total_le_covered : config.total ≤ config.covered := by
  rw [covered_eq]
  exact Nat.mul_le_mul_left _ config.windows_bounds.1

theorem covered_lt : config.covered < config.total + config.window := by
  rw [covered_eq, total, window, ← Nat.mul_add]
  exact Nat.mul_lt_mul_of_pos_left config.windows_bounds.2 config.size_pos

end Config

theorem add_le_of_dvd {step left right : Int} (leftWhole : step ∣ left) (rightWhole : step ∣ right)
    (below : left < right) : left + step ≤ right := by
  have difference : step ∣ right - left := Int.dvd_sub rightWhole leftWhole
  have least := Int.le_of_dvd (by omega) difference
  omega

theorem Config.dvd_covered (config : Config) : (config.window : Int) ∣ config.covered :=
  Int.natCast_dvd_natCast.mpr (Nat.dvd_mul_left _ _)

theorem Config.eq_covered {bytes : Int} (whole : (config.window : Int) ∣ bytes)
    (reached : config.total ≤ bytes) (begun : bytes < config.total + config.window) :
    bytes = config.covered := by
  have lower := config.total_le_covered
  have upper := config.covered_lt
  rcases Int.lt_trichotomy bytes config.covered with below | same | above
  · have := add_le_of_dvd whole config.dvd_covered below
    omega
  · exact same
  · have := add_le_of_dvd config.dvd_covered whole above
    omega

def Action.cutsShort : Action Byte → Bool
  | .stop => true
  | .broken => true
  | _ => false

namespace Client

/-- The client moves whole windows, except that its last write may be cut short when
it has read all it wants and the server has left. -/
structure InWindows (config : Config) (left : Bool) (client : Client Byte) : Prop where
  read : (config.window : Int) ∣ client.totalBytesRead
  outstanding : (left = true → client.totalBytesRead < config.total) →
    client.outstandingBytes = 0 ∨ client.outstandingBytes = config.window
  readAll : ∀ canWrite info, client.pc = .readDone canWrite info →
    info.totalBytes = client.outstandingBytes
  wroteAll : (left = true → client.totalBytesRead < config.total) → ∀ info,
    client.pc = .writeDone info → client.outstandingBytes = 0 ∧ info.totalBytes = config.window

variable {received sent : Nat} {client next : Client Byte} {action : Action Byte} {left : Bool}

theorem InWindows.initial (memory : ClientMemory Byte config) :
    InWindows config false (Client.initial memory) where
  read := Int.dvd_zero _
  outstanding := fun _ => Or.inl rfl
  readAll := by simp [Client.initial]
  wroteAll := by simp [Client.initial]

theorem InWindows.leave (windows : InWindows config false client) :
    InWindows config left client where
  read := windows.read
  outstanding := fun _ => windows.outstanding (by simp)
  readAll := windows.readAll
  wroteAll := fun _ => windows.wroteAll (by simp)

theorem InWindows.goto (windows : InWindows config left client) (pc : ClientPc)
    (readAll : ∀ canWrite info, pc = .readDone canWrite info →
      info.totalBytes = client.outstandingBytes)
    (wroteAll : (left = true → client.totalBytesRead < config.total) → ∀ info,
      pc = .writeDone info → client.outstandingBytes = 0 ∧ info.totalBytes = config.window) :
    InWindows config left (client.goto pc) where
  read := windows.read
  outstanding := windows.outstanding
  readAll := readAll
  wroteAll := wroteAll

theorem InWindows.accountRead (windows : InWindows config left client)
    (before : Balanced config received sent client) {canWrite : Bool} {info : MetaData}
    {time : Nat} (after : Balanced config received sent
      ((client.accountRead time info).goto (.stamp canWrite)))
    (pc : client.pc = .readDone canWrite info) :
    InWindows config left ((client.accountRead time info).goto (.stamp canWrite)) := by
  have all := windows.readAll canWrite info pc
  have read := before.read
  have balance := before.balance
  have laterRead := after.read
  have laterBalance := after.balance
  simp only [pc, ClientPc.fetched, ClientPc.pushed] at read balance
  simp only [Client.goto, ClientPc.fetched, ClientPc.pushed] at laterRead laterBalance
  have total : (client.accountRead time info).totalBytesRead =
      client.totalBytesRead + client.outstandingBytes := by omega
  have empty : (client.accountRead time info).outstandingBytes = 0 := by omega
  refine ⟨?_, fun _ => Or.inl empty, by simp [Client.goto], by simp [Client.goto]⟩
  change (config.window : Int) ∣ (client.accountRead time info).totalBytesRead
  rw [total]
  by_cases unfinished : left = true → client.totalBytesRead < config.total
  · rcases windows.outstanding unfinished with none | full
    · simpa [none] using windows.read
    · rw [full]
      exact Int.dvd_add windows.read (Int.dvd_refl _)
  · have running := before.running (by simp [pc, ClientPc.beforeRead])
    exact absurd (fun _ => running) unfinished

theorem InWindows.accountWrite (windows : InWindows config left client)
    (before : Balanced config received sent client) {info : MetaData}
    (after : Balanced config received sent ((client.accountWrite info).goto .loop))
    (pc : client.pc = .writeDone info) :
    InWindows config left ((client.accountWrite info).goto .loop) := by
  have balance := before.balance
  have laterBalance := after.balance
  simp only [pc, ClientPc.fetched, ClientPc.pushed] at balance
  simp only [Client.goto, ClientPc.fetched, ClientPc.pushed] at laterBalance
  refine ⟨windows.read, fun unfinished => Or.inr ?_, by simp [Client.goto], by simp [Client.goto]⟩
  have whole := windows.wroteAll unfinished info pc
  change (client.accountWrite info).outstandingBytes = config.window
  omega

/-- A client step keeps to whole windows, provided that no read is cut short and a write
only after the last response to a server that has left. -/
theorem InWindows.step (windows : InWindows config left client)
    (before : Balanced config received sent client)
    (after : Balanced config (received + action.received) (sent + action.sent) next)
    (taken : Step config.arguments client action next)
    (cut : action.cutsShort = true → left = true ∧ config.total ≤ client.totalBytesRead) :
    InWindows config left next := by
  have helper := before.helper
  have running := before.running
  cases taken with
  | signal => exact ⟨windows.read, windows.outstanding, windows.readAll, windows.wroteAll⟩
  | finish time pc isOver =>
      exact ⟨windows.read, windows.outstanding, by simp [Client.leave], by simp [Client.leave]⟩
  | pollFailed ready pc failed =>
      exact ⟨windows.read, windows.outstanding, by simp [Client.leave], by simp [Client.leave]⟩
  | readNothing time canWrite pc quit empty =>
      refine windows.goto _ ?_ (by simp)
      intro other info same
      cases same
      exact empty.symm
  | recvLast data canWrite transfer pc nonempty fits full =>
      simp only [pc, ClientPc.HelperOk] at helper
      have within := transfer.request_le config.arguments.reqSize (Nat.le_of_lt helper.2)
      refine windows.goto _ ?_ (by simp)
      intro other info same
      cases same
      simp only [Transfer.metaData_totalBytes, Transfer.advance_total]
      omega
  | recvStop canWrite transfer pc =>
      have finished := (cut rfl).2
      simp only [pc, ClientPc.beforeRead, forall_const] at running
      omega
  | accountRead time canWrite info pc => exact windows.accountRead before after pc
  | stamp time canWrite pc =>
      unfold stampWrites
      split
      · exact ⟨windows.read, windows.outstanding, by simp [Client.goto], by simp [Client.goto]⟩
      · exact windows.goto _ (by simp) (by simp)
  | sendLast amount transfer pc nonempty fits full =>
      simp only [pc, ClientPc.HelperOk] at helper
      have within := transfer.request_le config.arguments.reqSize (Nat.le_of_lt helper.2)
      refine windows.goto _ (by simp) ?_
      intro unfinished info same
      cases same
      have outstanding := windows.outstanding unfinished
      simp only [Transfer.metaData_totalBytes, Transfer.advance_total]
      omega
  | sendStop transfer pc =>
      refine windows.goto _ (by simp) ?_
      intro unfinished
      have short := cut rfl
      have more := unfinished short.1
      omega
  | sendBroken transfer pc =>
      refine ⟨windows.read, windows.outstanding, by simp [Client.goto], ?_⟩
      intro unfinished
      have short := cut rfl
      have more := unfinished short.1
      simp only [Client.goto] at more
      omega
  | accountWrite time info pc => exact windows.accountWrite before after pc
  | enter time pc | polled canRead canWrite pc | skipRead time canRead canWrite pc
  | startRead time canWrite pc | recvSome data canWrite transfer pc
  | skipWrite time canWrite pc | startWrite time pc | sendSome amount transfer pc =>
      exact windows.goto _ (by simp) (by simp)

theorem Step.totalBytesRead_le (taken : Step config.arguments client action next)
    (before : Balanced config received sent client)
    (after : Balanced config (received + action.received) (sent + action.sent) next) :
    client.totalBytesRead ≤ next.totalBytesRead := by
  have read := before.read
  have laterRead := after.read
  cases taken with
  | accountRead time canWrite info pc =>
      simp only [pc, Client.goto, ClientPc.fetched, Action.received] at read laterRead ⊢
      omega
  | stamp time canWrite pc => simp [Client.goto]
  | _ => exact Int.le_refl _

theorem Step.quit_inv (taken : Step config.arguments client action next)
    (quit : next.quit = true) :
    client.quit = true ∨ action = .signal ∨ action.cutsShort = true := by
  cases taken with
  | signal => exact Or.inr (Or.inl rfl)
  | sendBroken transfer pc => exact Or.inr (Or.inr rfl)
  | stamp time canWrite pc =>
      exact Or.inl (by simpa [Client.goto] using quit)
  | _ => exact Or.inl quit

end Client

namespace Server

/-- The server moves whole windows: it reads when it holds nothing and then writes all. -/
structure InWindows (config : Config) (server : Server Byte) : Prop where
  written : (config.window : Int) ∣ server.totalBytesWritten
  outstanding : server.outstandingBytes = 0 ∨ server.outstandingBytes = config.window
  pending : 0 < server.outstandingBytes → server.totalBytesWritten < config.total
  aboutToRead : ∀ canWrite, server.pc = .read true canWrite → server.outstandingBytes = 0
  reading : ∀ canWrite transfer, server.pc = .reading canWrite transfer →
    server.outstandingBytes = 0
  readAll : ∀ canWrite info, server.pc = .readDone canWrite info →
    server.outstandingBytes = 0 ∧ info.totalBytes = config.window
  wroteAll : ∀ info, server.pc = .writeDone info →
    (info.totalBytes : Int) = server.outstandingBytes
  running : server.pc ≠ .exit → server.quit = false
  finished : server.pc = .exit → config.total ≤ server.totalBytesWritten

variable {received sent : Nat} {server next : Server Byte} {action : Action Byte}

theorem InWindows.initial (memory : ServerMemory Byte config) :
    InWindows config (Server.initial transport memory) where
  written := Int.dvd_zero _
  outstanding := Or.inl rfl
  pending := by simp [Server.initial]
  aboutToRead := by simp [Server.initial]
  reading := by simp [Server.initial]
  readAll := by simp [Server.initial]
  wroteAll := by simp [Server.initial]
  running := fun _ => rfl
  finished := by simp [Server.initial]

theorem InWindows.goto (windows : InWindows config server) (pc : ServerPc)
    (aboutToRead : ∀ canWrite, pc = .read true canWrite → server.outstandingBytes = 0)
    (reading : ∀ canWrite transfer, pc = .reading canWrite transfer → server.outstandingBytes = 0)
    (readAll : ∀ canWrite info, pc = .readDone canWrite info →
      server.outstandingBytes = 0 ∧ info.totalBytes = config.window)
    (wroteAll : ∀ info, pc = .writeDone info →
      (info.totalBytes : Int) = server.outstandingBytes)
    (running : server.quit = false)
    (finished : pc = .exit → config.total ≤ server.totalBytesWritten) :
    InWindows config (server.goto pc) :=
  ⟨windows.written, windows.outstanding, windows.pending, aboutToRead, reading, readAll, wroteAll,
    fun _ => running, finished⟩

theorem InWindows.move (windows : InWindows config server) (pc : ServerPc)
    (running : server.quit = false) (exit : pc ≠ .exit)
    (reading : ∀ canWrite transfer, pc ≠ .reading canWrite transfer)
    (aboutToRead : ∀ canWrite, pc ≠ .read true canWrite)
    (readDone : ∀ canWrite info, pc ≠ .readDone canWrite info)
    (writeDone : ∀ info, pc ≠ .writeDone info) : InWindows config (server.goto pc) :=
  windows.goto pc (fun canWrite same => absurd same (aboutToRead canWrite))
    (fun canWrite transfer same => absurd same (reading canWrite transfer))
    (fun canWrite info same => absurd same (readDone canWrite info))
    (fun info same => absurd same (writeDone info)) running (fun same => absurd same exit)

theorem InWindows.accountRead (windows : InWindows config server)
    (before : Balanced config transport received sent server) {canWrite : Bool} {info : MetaData}
    {time : Nat} (after : Balanced config transport received sent
      ((server.accountRead transport time info).goto (.write canWrite (server.toWriteAfter info))))
    (pc : server.pc = .readDone canWrite info) :
    InWindows config
      ((server.accountRead transport time info).goto
        (.write canWrite (server.toWriteAfter info))) := by
  obtain ⟨empty, all⟩ := windows.readAll canWrite info pc
  have holding := before.holding
  have laterHolding := after.holding
  have laterPushed := after.pushed
  have running := before.running (by simp [pc, ServerPc.inBody])
  have quit := windows.running (by simp [pc])
  obtain ⟨pollsWrite, firstRead, totalStart, same, _⟩ := accountRead_eq before.first time info
  rw [same] at laterHolding laterPushed ⊢
  simp only [pc, ServerPc.fetched, ServerPc.pushed] at holding
  simp only [Server.goto, ServerPc.fetched, ServerPc.pushed] at laterHolding laterPushed
  refine ⟨windows.written, Or.inr ?_, fun _ => running, by simp [Server.goto],
    by simp [Server.goto], by simp [Server.goto], by simp [Server.goto], fun _ => quit,
    by simp [Server.goto]⟩
  simp only [Server.goto]
  omega

theorem InWindows.accountWrite (windows : InWindows config server)
    (before : Balanced config transport received sent server) {info : MetaData}
    (after : Balanced config transport received sent ((server.accountWrite info).goto .loop))
    (pc : server.pc = .writeDone info) :
    InWindows config ((server.accountWrite info).goto .loop) := by
  have all := windows.wroteAll info pc
  have quit := windows.running (by simp [pc])
  have holding := before.holding
  have laterHolding := after.holding
  have laterPushed := after.pushed
  have written := before.written
  have laterWritten := after.written
  simp only [pc, ServerPc.fetched, ServerPc.pushed] at holding written
  simp only [Server.goto, ServerPc.fetched, ServerPc.pushed] at laterHolding laterPushed laterWritten
  have empty : (server.accountWrite info).outstandingBytes = 0 := by omega
  have total : (server.accountWrite info).totalBytesWritten =
      server.totalBytesWritten + server.outstandingBytes := by omega
  refine ⟨?_, Or.inl empty, ?_, by simp [Server.goto], by simp [Server.goto],
    by simp [Server.goto], by simp [Server.goto], fun _ => quit, by simp [Server.goto]⟩
  · change (config.window : Int) ∣ (server.accountWrite info).totalBytesWritten
    rw [total]
    rcases windows.outstanding with none | full
    · simpa [none] using windows.written
    · rw [full]
      exact Int.dvd_add windows.written (Int.dvd_refl _)
  · simp [Server.goto, empty]

/-- A server step keeps to whole windows, provided that no helper call is cut short, that
only its exit is followed by a signal and that it finds input only when it holds none. -/
theorem InWindows.step (windows : InWindows config server)
    (before : Balanced config transport received sent server)
    (after : Balanced config transport (received + action.received) (sent + action.sent) next)
    (taken : Step transport config.arguments server action next)
    (cut : action.cutsShort = false) (signalled : action = .signal → server.pc = .exit)
    (failed : action ≠ .poll none)
    (ready : ∀ writable, action = .poll (some (true, writable)) → server.outstandingBytes = 0) :
    InWindows config next := by
  have helper := before.helper
  cases taken with
  | signal =>
      have exited := signalled rfl
      exact ⟨windows.written, windows.outstanding, windows.pending, windows.aboutToRead,
        windows.reading, windows.readAll, windows.wroteAll, fun stays => absurd exited stays,
        windows.finished⟩
  | enter time pc more running =>
      exact ⟨windows.written, windows.outstanding, windows.pending, by simp [Server.goto],
        by simp [Server.goto], by simp [Server.goto], by simp [Server.goto], fun _ => running,
        by simp [Server.goto]⟩
  | finish time pc isOver =>
      have quit := windows.running (by simp [pc])
      refine windows.goto .exit (by simp) (by simp) (by simp) (by simp) quit ?_
      intro _
      rw [Config.maxBytes_eq, Config.ssizeT_total] at isOver
      simpa [quit] using isOver
  | pollFailed ready pc stopped =>
      have quit := windows.running (by simp [pc])
      rcases stopped with none | quitting
      · exact absurd (congrArg Action.poll none) failed
      · simp [quit] at quitting
  | polled canRead writable pc running =>
      refine ⟨windows.written, windows.outstanding, windows.pending, ?_, by simp [Server.goto],
        by simp [Server.goto], by simp [Server.goto], fun _ => running, by simp [Server.goto]⟩
      intro canWrite same
      simp only [Server.goto, ServerPc.read.injEq] at same
      exact ready writable (by rw [same.1])
  | skipRead time canRead canWrite pc skipped =>
      have quit := windows.running (by simp [pc])
      exact windows.move _ quit (by simp) (by simp) (by simp) (by simp) (by simp)
  | readNothing time canWrite pc running empty =>
      have limit := before.toRead_eq
      have windowPos := config.window_pos
      omega
  | startRead time canWrite pc running nonempty =>
      have empty := windows.aboutToRead canWrite pc
      exact windows.goto _ (by simp) (fun _ _ _ => empty) (by simp) (by simp) running (by simp)
  | recvSome data canWrite transfer pc nonempty fits more =>
      have empty := windows.reading canWrite transfer pc
      have quit := windows.running (by simp [pc])
      exact ⟨windows.written, windows.outstanding, windows.pending, by simp [Server.goto],
        fun _ _ _ => empty, by simp [Server.goto], by simp [Server.goto], fun _ => quit,
        by simp [Server.goto]⟩
  | recvLast data canWrite transfer pc nonempty fits full =>
      have empty := windows.reading canWrite transfer pc
      have quit := windows.running (by simp [pc])
      simp only [pc, ServerPc.HelperOk] at helper
      have within := transfer.request_le config.arguments.reqSize (Nat.le_of_lt helper.2)
      refine ⟨windows.written, windows.outstanding, windows.pending, by simp [Server.goto],
        by simp [Server.goto], ?_, by simp [Server.goto], fun _ => quit, by simp [Server.goto]⟩
      intro other info same
      cases same
      refine ⟨empty, ?_⟩
      simp only [Transfer.metaData_totalBytes, Transfer.advance_total]
      omega
  | recvStop canWrite transfer pc => simp [Action.cutsShort] at cut
  | accountRead time canWrite info pc => exact windows.accountRead before after pc
  | skipWrite time canWrite toWrite pc skipped =>
      have quit := windows.running (by simp [pc])
      exact windows.move _ quit (by simp) (by simp) (by simp) (by simp) (by simp)
  | writeNothing time pc running =>
      refine windows.goto _ (by simp) (by simp) (by simp) ?_ running (by simp)
      intro info same
      cases same
      simpa [pc, ServerPc.HelperOk, MetaData.zero] using helper
  | startWrite time toWrite pc running nonempty =>
      exact windows.move _ running (by simp) (by simp) (by simp) (by simp) (by simp)
  | sendSome amount transfer pc nonempty fits more =>
      have quit := windows.running (by simp [pc])
      exact windows.move _ quit (by simp) (by simp) (by simp) (by simp) (by simp)
  | sendLast amount transfer pc nonempty fits full =>
      have quit := windows.running (by simp [pc])
      simp only [pc, ServerPc.HelperOk] at helper
      have within := transfer.request_le config.arguments.reqSize (Nat.le_of_lt helper.2)
      refine windows.goto _ (by simp) (by simp) (by simp) ?_ quit (by simp)
      intro info same
      cases same
      simp only [Transfer.metaData_totalBytes, Transfer.advance_total]
      omega
  | sendStop transfer pc => simp [Action.cutsShort] at cut
  | sendBroken transfer pc => simp [Action.cutsShort] at cut
  | accountWrite time info pc => exact windows.accountWrite before after pc

theorem Step.stays (taken : Step transport config.arguments server action next)
    (exited : server.pc = .exit) : next.pc = .exit := by
  cases taken with
  | signal => exact exited
  | enter time pc | finish time pc | pollFailed ready pc | polled canRead writable pc
  | skipRead time canRead canWrite pc | readNothing time canWrite pc
  | startRead time canWrite pc | recvSome data canWrite transfer pc
  | recvLast data canWrite transfer pc | recvStop canWrite transfer pc
  | accountRead time canWrite info pc | skipWrite time canWrite toWrite pc
  | writeNothing time pc | startWrite time toWrite pc | sendSome amount transfer pc
  | sendLast amount transfer pc | sendStop transfer pc | sendBroken transfer pc
  | accountWrite time info pc => simp [exited] at pc

theorem Step.reading (taken : Step transport config.arguments server action next)
    (some : 0 < action.received) : ∃ canWrite transfer, server.pc = .reading canWrite transfer := by
  cases taken with
  | recvSome data canWrite transfer pc => exact ⟨canWrite, transfer, pc⟩
  | recvLast data canWrite transfer pc => exact ⟨canWrite, transfer, pc⟩
  | _ => simp [Action.received] at some

end Server

/-- What a poll may report: input only where there is some, and room for output at
least when the channel is empty. -/
def truthful (input output : Channel Byte) (readable writable : Bool) : Bool :=
  (!readable || !input.content.isEmpty) && (writable || !output.content.isEmpty)

theorem truthful_of_exact {input output : Channel Byte} {readable writable : Bool}
    (told : Pair.exact input output readable writable = true) :
    truthful input output readable writable = true := by
  simp only [Pair.exact, Bool.and_eq_true, beq_iff_eq] at told
  obtain ⟨rfl, rfl⟩ := told
  simp [truthful]

namespace Pair

def atEnd (pair : Pair Byte) : Bool :=
  match pair.client.pc with
  | .reading _ _ => pair.responses.content.isEmpty
  | _ => true

/-- The environment of blocking transfers: as long as the server is in its loop there is no
signal, no error and no end of file, and the polls tell the truth. -/
def blocking (pair : Pair Byte) : PairAction Byte → Bool
  | .client (.poll (some (readable, writable))) =>
      truthful pair.responses pair.requests readable writable
  | .client (.poll none) => pair.left
  | .client .signal => pair.left
  | .client .stop => pair.left && pair.atEnd
  | .client .broken => pair.left
  | .server (.poll (some (readable, writable))) =>
      truthful pair.requests pair.responses readable writable
  | .server (.poll none) => false
  | .server .signal => pair.left
  | .server .stop => false
  | .server .broken => false
  | _ => true

end Pair

def PairAction.interrupts : PairAction Byte → Bool
  | .client .signal => true
  | .client (.poll none) => true
  | _ => false

def Interrupted (trace : List (Pair Byte × PairAction Byte)) : Prop :=
  ∃ entry ∈ trace, entry.2.interrupts = true

namespace Pair

variable {setup : Setup Byte config} {trace : List (Pair Byte × PairAction Byte)}
  {pair next : Pair Byte}

/-- A pair on a blocking transport, with its history. -/
structure InWindows (config : Config) (transport : Transport)
    (trace : List (Pair Byte × PairAction Byte)) (pair : Pair Byte) : Prop where
  linked : Linked config transport trace pair
  client : Client.InWindows config pair.left pair.client
  server : Server.InWindows config pair.server
  holds : Server.Holds (bytesIn (serverTrace trace)) (bytesOut Server.outgoing (serverTrace trace))
    pair.server
  ended : pair.client.pc = .exit → config.total ≤ pair.client.totalBytesRead ∨ Interrupted trace
  quits : pair.client.quit = true → config.total ≤ pair.client.totalBytesRead ∨ Interrupted trace
  interrupted : Interrupted trace → pair.left = true

theorem InWindows.initial : InWindows config transport [] (Pair.initial transport setup) where
  linked := Linked.initial
  client := (Client.InWindows.initial setup.clientMemory).leave
  server := Server.InWindows.initial setup.serverMemory
  holds := Server.Holds.initial setup.serverMemory
  ended := by simp [Pair.initial, Client.initial]
  quits := by simp [Pair.initial, Client.initial]
  interrupted := by simp [Interrupted]

theorem InWindows.left_eq (windows : InWindows config transport trace pair)
    (left : pair.left = true) :
    pair.server.totalBytesWritten = config.covered ∧ pair.server.outstandingBytes = 0 ∧
      bytesReceived (serverTrace trace) = config.covered ∧
      bytesSent (serverTrace trace) = config.covered := by
  have exit : pair.server.pc = .exit := by simpa [Pair.left] using left
  have finished := windows.server.finished exit
  have pending := windows.server.pending
  have read := windows.linked.server.read
  have written := windows.linked.server.written
  have balance := windows.linked.server.balance
  have pushed := windows.linked.server.pushed
  have bound := windows.linked.server.receivedBound
  simp only [exit, ServerPc.fetched, ServerPc.pushed] at read written pushed
  have empty : pair.server.outstandingBytes = 0 := by omega
  have total := Config.eq_covered windows.server.written finished (by omega)
  omega

theorem InWindows.clientAhead (windows : InWindows config transport trace pair) :
    pair.client.totalBytesRead + pair.client.outstandingBytes + pair.client.pc.pushed =
      bytesReceived (serverTrace trace) + pair.requests.content.length := by
  have underway := windows.linked.underway
  have read := windows.linked.client.read
  have balance := windows.linked.client.balance
  omega

theorem InWindows.total_le (windows : InWindows config transport trace pair)
    (near : (config.covered : Int) < pair.client.totalBytesRead + config.window) :
    config.total ≤ pair.client.totalBytesRead := by
  have covered := config.total_le_covered
  rcases Int.lt_or_le pair.client.totalBytesRead config.covered with below | above
  · have := add_le_of_dvd windows.client.read config.dvd_covered below
    omega
  · omega

theorem InWindows.total_le_of_cut (windows : InWindows config transport trace pair)
    {action : Action Byte} (cut : action.cutsShort = true) {after : Client Byte}
    (taken : Client.Step config.arguments pair.client action after)
    (allowed : pair.blocking (.client action) = true) :
    pair.left = true ∧ config.total ≤ pair.client.totalBytesRead := by
  have helper := windows.linked.client.helper
  have ahead := windows.clientAhead
  have underway := windows.linked.underway
  have windowBound := windows.linked.client.window
  have read := windows.linked.client.read
  cases taken with
  | recvStop canWrite transfer pc =>
      simp only [blocking, atEnd, pc, Bool.and_eq_true, List.isEmpty_iff] at allowed
      obtain ⟨_, _, _, sent⟩ := windows.left_eq allowed.1
      simp only [pc, ClientPc.HelperOk, ClientPc.fetched] at helper read
      simp only [allowed.2, List.length_nil] at underway
      exact ⟨allowed.1, windows.total_le (by omega)⟩
  | sendStop transfer pc =>
      simp only [blocking, atEnd, pc, Bool.and_true] at allowed
      obtain ⟨_, _, received, _⟩ := windows.left_eq allowed
      simp only [pc, ClientPc.HelperOk, ClientPc.pushed] at helper ahead
      exact ⟨allowed, windows.total_le (by omega)⟩
  | sendBroken transfer pc =>
      simp only [blocking] at allowed
      obtain ⟨_, _, received, _⟩ := windows.left_eq allowed
      simp only [pc, ClientPc.HelperOk, ClientPc.pushed] at helper ahead
      exact ⟨allowed, windows.total_le (by omega)⟩
  | _ => simp [Action.cutsShort] at cut

theorem InWindows.holdsNothing (windows : InWindows config transport trace pair)
    (between : pair.server.pc.betweenCalls = true) (input : pair.requests.content ≠ []) :
    pair.server.outstandingBytes = 0 := by
  have law := windows.linked.conserved.law
  have windowBound := windows.linked.client.window
  have idle := ServerPc.betweenCalls_eq between
  have nonempty := List.length_pos_iff.mpr input
  rcases windows.server.outstanding with none | full
  · exact none
  · omega

theorem interrupted_step {action : PairAction Byte} :
    Interrupted (trace ++ [(pair, action)]) ↔ Interrupted trace ∨ action.interrupts = true := by
  simp [Interrupted, or_and_right, exists_or]

variable [DecidableEq Byte]

theorem InWindows.stepClient (windows : InWindows config transport trace pair)
    {action : Action Byte} (taken : pair.step transport config.arguments (.client action) = some next)
    (allowed : pair.blocking (.client action) = true) :
    InWindows config transport (trace ++ [(pair, .client action)]) next := by
  have linked := windows.linked.step taken
  have before := windows.linked.client
  have after := linked.client
  rw [clientTrace_client, bytesReceived_step, bytesSent_step] at after
  obtain ⟨_, stepped, kept⟩ := step_client taken
  have own := Client.step_inv stepped
  have left : next.left = pair.left := by rw [Pair.left, Pair.left, kept]
  have more := own.totalBytesRead_le before after
  have cut : ∀ short : action.cutsShort = true, pair.left = true ∧
      config.total ≤ pair.client.totalBytesRead :=
    fun short => windows.total_le_of_cut short own allowed
  have quits : next.client.quit = true →
      config.total ≤ next.client.totalBytesRead ∨
        Interrupted (trace ++ [(pair, .client action)]) := by
    intro quit
    rw [interrupted_step]
    rcases own.quit_inv quit with old | signalled | short
    · rcases windows.quits old with reached | interrupted
      · exact Or.inl (by omega)
      · exact Or.inr (Or.inl interrupted)
    · exact Or.inr (Or.inr (by rw [signalled]; rfl))
    · exact Or.inl (by have := (cut short).2; omega)
  refine {
    linked := linked
    client := by rw [left]; exact windows.client.step before after own cut
    server := by rw [kept]; exact windows.server
    holds := by simpa [kept] using windows.holds
    ended := ?_
    quits := quits
    interrupted := ?_
  }
  · intro exit
    rw [interrupted_step]
    rcases own.exit_inv before exit with already | reached | quit | failed
    · rcases windows.ended already with reached | interrupted
      · exact Or.inl (by omega)
      · exact Or.inr (Or.inl interrupted)
    · exact Or.inl (by omega)
    · rcases windows.quits quit with reached | interrupted
      · exact Or.inl (by omega)
      · exact Or.inr (Or.inl interrupted)
    · exact Or.inr (Or.inr (by rw [failed]; rfl))
  · intro interrupted
    rw [left]
    rcases interrupted_step.mp interrupted with old | now
    · exact windows.interrupted old
    · match action, now with
      | .signal, _ => exact allowed
      | .poll none, _ => exact allowed

theorem InWindows.stepServer (windows : InWindows config transport trace pair)
    {action : Action Byte} (taken : pair.step transport config.arguments (.server action) = some next)
    (allowed : pair.blocking (.server action) = true) :
    InWindows config transport (trace ++ [(pair, .server action)]) next := by
  have linked := windows.linked.step taken
  have before := windows.linked.server
  have after := linked.server
  rw [serverTrace_server, bytesReceived_step, bytesSent_step] at after
  obtain ⟨_, stepped, kept⟩ := step_server taken
  have own := Server.step_inv stepped
  have server : Server.InWindows config next.server := by
    refine windows.server.step before after own ?_ ?_ ?_ ?_
    · cases action <;> simp_all [Action.cutsShort, blocking]
    · intro signalled
      subst signalled
      simpa [blocking, Pair.left] using allowed
    · intro failed
      subst failed
      simp [blocking] at allowed
    · intro writable ready
      subst ready
      simp only [blocking, truthful, Bool.and_eq_true, Bool.not_true, Bool.false_or,
        Bool.not_eq_true', List.isEmpty_eq_false_iff] at allowed
      have pc : pair.server.pc = .poll := by
        simp only [Server.step] at stepped
        split at stepped
        · assumption
        · cases stepped
      exact windows.holdsNothing (by simp [pc, ServerPc.betweenCalls]) allowed.1
  have stays : pair.left = true → next.left = true := by
    intro exited
    simp only [Pair.left, decide_eq_true_eq] at exited ⊢
    exact own.stays exited
  refine {
    linked := linked
    client := ?_
    server := server
    holds := ?_
    ended := ?_
    quits := ?_
    interrupted := ?_
  }
  · rw [kept]
    cases leaving : pair.left with
    | true =>
        rw [stays leaving]
        simpa [leaving] using windows.client
    | false =>
        have client := windows.client
        rw [leaving] at client
        exact client.leave
  · rw [serverTrace_server, bytesIn_step, bytesOut_step]
    refine windows.holds.step before after own ?_ ?_
    · intro some
      obtain ⟨canWrite, transfer, pc⟩ := own.reading some
      exact windows.server.reading canWrite transfer pc
    · intro info pc
      exact Or.inr (windows.server.wroteAll info pc)
  · intro exit
    rw [kept] at exit ⊢
    rw [interrupted_step]
    rcases windows.ended exit with reached | interrupted
    · exact Or.inl reached
    · exact Or.inr (Or.inl interrupted)
  · intro quit
    rw [kept] at quit ⊢
    rw [interrupted_step]
    rcases windows.quits quit with reached | interrupted
    · exact Or.inl reached
    · exact Or.inr (Or.inl interrupted)
  · intro interrupted
    rcases interrupted_step.mp interrupted with old | now
    · exact stays (windows.interrupted old)
    · simp [PairAction.interrupts] at now

theorem InWindows.run
    (run : Run ((machine transport config.arguments).restrict blocking)
      (Pair.initial transport setup) trace pair) :
    InWindows config transport trace pair := by
  refine run.invariant (fun trace pair => InWindows config transport trace pair)
    InWindows.initial ?_
  intro trace pair action next _ windows taken
  obtain ⟨allowed, taken⟩ := restrict_step.mp taken
  cases action with
  | client action => exact windows.stepClient taken allowed
  | server action => exact windows.stepServer taken allowed

end Pair

end IpcBench
