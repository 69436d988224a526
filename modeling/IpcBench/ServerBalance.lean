import IpcBench.Server

/-!
The byte counters of a server agree with the bytes it has moved, as long as its
client keeps within the window of outstanding bytes.
-/

namespace IpcBench

open Words Transition

namespace ServerPc

def fetched : ServerPc → Nat
  | .reading _ transfer => transfer.total
  | .readDone _ info => info.totalBytes
  | _ => 0

def pushed : ServerPc → Nat
  | .writing transfer => transfer.total
  | .writeDone info => info.totalBytes
  | _ => 0

def inBody : ServerPc → Bool
  | .loop => false
  | .exit => false
  | _ => true

def HelperOk (config : Config) (outstandingBytes : Int) : ServerPc → Prop
  | .reading _ transfer => transfer.limit = config.window ∧ transfer.total < transfer.limit
  | .readDone _ info => info.Consistent config.size
  | .write _ toWrite => (toWrite : Int) = outstandingBytes
  | .writing transfer =>
      (transfer.limit : Int) = outstandingBytes ∧ transfer.total < transfer.limit
  | .writeDone info => info.Consistent config.size
  | _ => True

end ServerPc

namespace Server

variable {Byte : Type} {config : Config} {transport : Transport}

structure Balanced (config : Config) (transport : Transport) (received sent : Nat)
    (server : Server Byte) : Prop where
  read : server.totalBytesRead + server.pc.fetched = received
  written : server.totalBytesWritten + server.pc.pushed = sent
  writtenNonneg : 0 ≤ server.totalBytesWritten
  balance : server.outstandingBytes = server.totalBytesRead - server.totalBytesWritten
  pushed : server.pc.pushed ≤ server.outstandingBytes
  window : server.outstandingBytes + server.pc.fetched ≤ config.window
  receivedBound : received < config.total + config.window
  running : server.pc.inBody = true → server.totalBytesWritten < config.total
  helper : server.pc.HelperOk config server.outstandingBytes
  registered : 0 < server.totalBytesRead → server.pollsWrite = true
  first : transport ≠ .tcp → server.firstRead = !server.pollsWrite
  buffer : server.readBuffer.length = config.window

theorem Balanced.initial (memory : ServerMemory Byte config) :
    Balanced config transport 0 0 (Server.initial transport memory) where
  read := rfl
  written := rfl
  writtenNonneg := Int.le_refl _
  balance := rfl
  pushed := Int.le_refl _
  window := Int.natCast_nonneg _
  receivedBound := by have := config.total_pos; omega
  running := by simp [Server.initial, ServerPc.inBody]
  helper := trivial
  registered := by simp [Server.initial]
  first := fun _ => rfl
  buffer := memory.readBuffer_length

variable {received sent : Nat} {server next : Server Byte} {action : Action Byte}

theorem Balanced.sent_le (balanced : Balanced config transport received sent server) :
    sent ≤ received := by
  have := balanced.read
  have := balanced.written
  have := balanced.balance
  have := balanced.pushed
  omega

theorem Balanced.holding (balanced : Balanced config transport received sent server) :
    server.outstandingBytes.toNat + server.pc.fetched + sent = received + server.pc.pushed := by
  have read := balanced.read
  have written := balanced.written
  have balance := balanced.balance
  have pushed := balanced.pushed
  omega

theorem Balanced.received_le (balanced : Balanced config transport received sent server) :
    received ≤ sent + config.window := by
  have window := balanced.window
  have holding := balanced.holding
  have pushed := balanced.pushed
  omega

theorem Balanced.toRead_eq (balanced : Balanced config transport received sent server) :
    server.toRead config.arguments = config.window := by
  have windowBound := config.window_lt
  have window := balanced.window
  unfold toRead
  rw [Config.maxOutstandingBytes_eq, Config.ssizeT_window, if_neg (by omega)]
  exact sizeT_natCast (by omega)

theorem Balanced.goto (balanced : Balanced config transport received sent server) (pc : ServerPc)
    (sameFetched : pc.fetched = server.pc.fetched) (samePushed : pc.pushed = server.pc.pushed)
    (running : pc.inBody = true → server.totalBytesWritten < config.total)
    (helper : pc.HelperOk config server.outstandingBytes) :
    Balanced config transport received sent (server.goto pc) where
  read := by simpa [Server.goto, sameFetched] using balanced.read
  written := by simpa [Server.goto, samePushed] using balanced.written
  writtenNonneg := balanced.writtenNonneg
  balance := balanced.balance
  pushed := by simpa [Server.goto, samePushed] using balanced.pushed
  window := by simpa [Server.goto, sameFetched] using balanced.window
  receivedBound := balanced.receivedBound
  running := running
  helper := helper
  registered := balanced.registered
  first := balanced.first
  buffer := balanced.buffer

theorem Balanced.congr (balanced : Balanced config transport received sent server)
    (quit revents : Bool) (totalStart : Option Nat) (endTime : Nat) :
    Balanced config transport received sent
      { server with quit := quit, revents := revents, totalStart := totalStart,
                    endTime := endTime } :=
  ⟨balanced.read, balanced.written, balanced.writtenNonneg, balanced.balance, balanced.pushed, balanced.window,
    balanced.receivedBound, balanced.running, balanced.helper, balanced.registered,
    balanced.first, balanced.buffer⟩

theorem Balanced.recv {data : List Byte} {canWrite : Bool} {transfer : Transfer}
    (balanced : Balanced config transport received sent server)
    (pc : server.pc = .reading canWrite transfer)
    (fits : transfer.total + data.length ≤ transfer.limit)
    (window : received + data.length ≤ sent + config.window) (next : ServerPc)
    (fetched : next.fetched = transfer.total + data.length) (pushed : next.pushed = 0)
    (helper : next.HelperOk config server.outstandingBytes) :
    Balanced config transport (received + data.length) sent
      ((server.fill transfer.total data).goto next) := by
  obtain ⟨read, written, writtenNonneg, balance, oldPushed, _, _, running, oldHelper, registered, first,
    buffer⟩ := balanced
  simp only [pc, ServerPc.fetched, ServerPc.pushed, ServerPc.inBody, ServerPc.HelperOk,
    forall_const] at read written oldPushed running oldHelper
  exact {
    read := by simp only [Server.goto, fill, fetched]; omega
    written := by simpa [Server.goto, fill, pushed] using written
    writtenNonneg := writtenNonneg
    balance := balance
    pushed := by simpa [Server.goto, fill, pushed] using oldPushed
    window := by simp only [Server.goto, fill, fetched]; omega
    receivedBound := by omega
    running := fun _ => running
    helper := helper
    registered := registered
    first := first
    buffer := (store_length (by omega)).trans buffer
  }

theorem Balanced.send {amount : Nat} {transfer : Transfer}
    (balanced : Balanced config transport received sent server)
    (pc : server.pc = .writing transfer)
    (fits : transfer.total + amount ≤ transfer.limit) (next : ServerPc)
    (fetched : next.fetched = 0) (pushed : next.pushed = transfer.total + amount)
    (helper : next.HelperOk config server.outstandingBytes) :
    Balanced config transport received (sent + amount) (server.goto next) := by
  obtain ⟨read, written, writtenNonneg, balance, _, window, bound, running, oldHelper, registered, first,
    buffer⟩ := balanced
  simp only [pc, ServerPc.fetched, ServerPc.pushed, ServerPc.inBody, ServerPc.HelperOk,
    forall_const] at read written window running oldHelper
  exact {
    read := by simpa [Server.goto, fetched] using read
    written := by simp only [Server.goto, pushed]; omega
    writtenNonneg := writtenNonneg
    balance := balance
    pushed := by simp only [Server.goto, pushed]; omega
    window := by simpa [Server.goto, fetched] using window
    receivedBound := bound
    running := fun _ => running
    helper := helper
    registered := registered
    first := first
    buffer := buffer
  }

theorem noteRead_eq (server : Server Byte) (first : transport ≠ .tcp → server.firstRead = !server.pollsWrite)
    (time : Nat) :
    ∃ firstRead totalStart, server.noteRead transport time =
        { server with pollsWrite := true, firstRead := firstRead, totalStart := totalStart } ∧
      (transport ≠ .tcp → firstRead = false) := by
  cases transport with
  | tcp => exact ⟨server.firstRead, server.totalStart, rfl, by simp⟩
  | domain | fifo =>
      have negated := first (by simp)
      cases fresh : server.firstRead with
      | true => exact ⟨false, some time, by simp [noteRead, fresh], by simp⟩
      | false =>
          have polls : server.pollsWrite = true := by simpa [fresh] using negated
          refine ⟨server.firstRead, server.totalStart, ?_, fun _ => fresh⟩
          simp only [noteRead, fresh, Bool.false_eq_true, if_false]
          rw [← fresh, ← polls]

theorem accountRead_eq (first : transport ≠ .tcp → server.firstRead = !server.pollsWrite)
    (time : Nat) (info : MetaData) :
    ∃ pollsWrite firstRead totalStart,
      server.accountRead transport time info = { server with
        totalBytesRead := ssizeT (server.totalBytesRead + info.totalBytes)
        outstandingBytes := ssizeT (server.outstandingBytes + info.totalBytes)
        pollsWrite := pollsWrite, firstRead := firstRead, totalStart := totalStart } ∧
      (pollsWrite = true ↔ info.totalBytes ≠ 0 ∨ server.pollsWrite = true) ∧
      (transport ≠ .tcp → firstRead = !pollsWrite) := by
  by_cases moved : info.totalBytes = 0
  · exact ⟨server.pollsWrite, server.firstRead, server.totalStart, by simp [accountRead, moved],
      by simp [moved], first⟩
  · obtain ⟨firstRead, totalStart, noted, done⟩ := noteRead_eq { server with
      totalBytesRead := ssizeT (server.totalBytesRead + info.totalBytes)
      outstandingBytes := ssizeT (server.outstandingBytes + info.totalBytes) } first time
    refine ⟨true, firstRead, totalStart, ?_, by simp [moved], done⟩
    rw [← noted]
    simp only [accountRead, ne_eq, moved, not_false_eq_true, if_true]

theorem Balanced.accountRead {canWrite : Bool} {info : MetaData}
    (balanced : Balanced config transport received sent server)
    (pc : server.pc = .readDone canWrite info) (time : Nat) :
    Balanced config transport received sent
      ((server.accountRead transport time info).goto
        (.write canWrite (server.toWriteAfter info))) := by
  have ordered := balanced.sent_le
  obtain ⟨read, written, writtenNonneg, balance, _, window, bound, running, _, registered, first,
    buffer⟩ := balanced
  simp only [pc, ServerPc.fetched, ServerPc.pushed, ServerPc.inBody, forall_const]
    at read written window running
  have windowBound := config.window_lt
  have totalBound := config.total_lt
  have total : ssizeT (server.totalBytesRead + info.totalBytes) = received := by
    rw [read]
    exact ssizeT_eq (by omega) (by omega)
  have outstanding : ssizeT (server.outstandingBytes + info.totalBytes) =
      (received : Int) - sent := by
    rw [ssizeT_eq (by omega) (by omega)]
    omega
  have toWrite : (server.toWriteAfter info : Int) = (received : Int) - sent := by
    unfold toWriteAfter
    split
    · rw [sizeT_sizeT_add, sizeT_eq (by omega) (by omega)]
      omega
    · rw [sizeT_eq (by omega) (by omega)]
      omega
  obtain ⟨pollsWrite, firstRead, totalStart, same, polls, done⟩ := accountRead_eq first time info
  rw [same, total, outstanding]
  exact {
    read := by simp [Server.goto, ServerPc.fetched]
    written := by simpa [Server.goto, ServerPc.pushed] using written
    writtenNonneg := writtenNonneg
    balance := by simp only [Server.goto]; omega
    pushed := by simp only [Server.goto, ServerPc.pushed]; omega
    window := by simp only [Server.goto, ServerPc.fetched]; omega
    receivedBound := bound
    running := fun _ => running
    helper := toWrite
    registered := by
      intro some
      simp only [Server.goto] at some ⊢
      by_cases moved : info.totalBytes = 0
      · exact polls.mpr (Or.inr (registered (by omega)))
      · exact polls.mpr (Or.inl moved)
    first := done
    buffer := buffer
  }

theorem Balanced.accountWrite {info : MetaData}
    (balanced : Balanced config transport received sent server)
    (pc : server.pc = .writeDone info) :
    Balanced config transport received sent ((server.accountWrite info).goto .loop) := by
  have ordered := balanced.sent_le
  obtain ⟨read, written, writtenNonneg, balance, pushed, window, bound, running, _, registered, first,
    buffer⟩ := balanced
  simp only [pc, ServerPc.fetched, ServerPc.pushed] at read written pushed window
  have windowBound := config.window_lt
  have totalBound := config.total_lt
  have total : (server.accountWrite info).totalBytesWritten = sent := by
    simp only [Server.accountWrite, written]
    exact ssizeT_eq (by omega) (by omega)
  have outstanding : (server.accountWrite info).outstandingBytes = (received : Int) - sent := by
    simp only [Server.accountWrite]
    rw [ssizeT_eq (by omega) (by omega)]
    omega
  have same : (server.accountWrite info).totalBytesRead = server.totalBytesRead := rfl
  exact {
    read := by simpa [Server.goto, ServerPc.fetched, same] using read
    written := by simp [Server.goto, ServerPc.pushed, total]
    writtenNonneg := by simp only [Server.goto, total]; omega
    balance := by simp only [Server.goto, total, outstanding, same]; omega
    pushed := by simp only [Server.goto, outstanding, ServerPc.pushed]; omega
    window := by simp only [Server.goto, outstanding, ServerPc.fetched]; omega
    receivedBound := bound
    running := by simp [Server.goto, ServerPc.inBody]
    helper := trivial
    registered := registered
    first := first
    buffer := buffer
  }

theorem Balanced.step (balanced : Balanced config transport received sent server)
    (taken : Step transport config.arguments server action next)
    (window : received + action.received ≤ sent + config.window) :
    Balanced config transport (received + action.received) (sent + action.sent) next := by
  have windowBound := config.window_lt
  have totalBound := config.total_lt
  have running := balanced.running
  have helper := balanced.helper
  cases taken with
  | signal => exact balanced.congr true _ _ _
  | enter time pc more quit =>
      rw [Config.maxBytes_eq, Config.ssizeT_total] at more
      exact (balanced.congr _ _ _ time).goto .poll (by simp [pc, ServerPc.fetched])
        (by simp [pc, ServerPc.pushed]) (fun _ => more) trivial
  | finish time pc isOver =>
      exact balanced.goto .exit (by simp [pc, ServerPc.fetched]) (by simp [pc, ServerPc.pushed])
        (by simp [ServerPc.inBody]) trivial
  | pollFailed ready pc failed =>
      exact balanced.goto .exit (by simp [pc, ServerPc.fetched]) (by simp [pc, ServerPc.pushed])
        (by simp [ServerPc.inBody]) trivial
  | polled canRead writable pc quit =>
      simp only [pc, ServerPc.inBody, forall_const] at running
      exact (balanced.congr _ _ _ _).goto _ (by simp [pc, ServerPc.fetched])
        (by simp [pc, ServerPc.pushed]) (fun _ => running) trivial
  | skipRead time canRead canWrite pc skipped =>
      simp only [pc, ServerPc.inBody, forall_const] at running
      have read := balanced.read
      have written := balanced.written
      have balance := balanced.balance
      have ordered := balanced.sent_le
      have bound := balanced.window
      simp only [pc, ServerPc.fetched, ServerPc.pushed] at read written bound
      refine balanced.goto _ (by simp [pc, ServerPc.fetched]) (by simp [pc, ServerPc.pushed])
        (fun _ => running) ?_
      simp only [ServerPc.HelperOk]
      rw [sizeT_eq (by omega) (by omega)]
      omega
  | readNothing time canWrite pc quit empty =>
      simp only [pc, ServerPc.inBody, forall_const] at running
      exact balanced.goto _ (by simp [pc, ServerPc.fetched, MetaData.zero])
        (by simp [pc, ServerPc.pushed]) (fun _ => running) (MetaData.consistent_zero _)
  | startRead time canWrite pc quit nonempty =>
      simp only [pc, ServerPc.inBody, forall_const] at running
      have limit := balanced.toRead_eq
      exact balanced.goto _ (by simp [pc, ServerPc.fetched]) (by simp [pc, ServerPc.pushed])
        (fun _ => running) ⟨limit, nonempty⟩
  | recvSome data canWrite transfer pc nonempty fits more =>
      simp only [pc, ServerPc.HelperOk] at helper
      exact balanced.recv pc (Nat.le_of_lt more) window _ rfl rfl ⟨helper.1, more⟩
  | recvLast data canWrite transfer pc nonempty fits full =>
      simp only [pc, ServerPc.HelperOk] at helper
      have within := transfer.request_le config.arguments.reqSize (Nat.le_of_lt helper.2)
      have last : transfer.total + data.length ≤ transfer.limit := by omega
      exact balanced.recv pc last window _ rfl rfl (config.metaData_consistent _)
  | recvStop canWrite transfer pc =>
      simp only [pc, ServerPc.inBody, forall_const] at running
      exact balanced.goto _ (by simp [pc, ServerPc.fetched]) (by simp [pc, ServerPc.pushed])
        (fun _ => running) (config.metaData_consistent _)
  | accountRead time canWrite info pc => exact balanced.accountRead pc time
  | skipWrite time canWrite toWrite pc skipped =>
      exact balanced.goto _ (by simp [pc, ServerPc.fetched]) (by simp [pc, ServerPc.pushed])
        (by simp [ServerPc.inBody]) trivial
  | writeNothing time pc quit =>
      simp only [pc, ServerPc.inBody, forall_const] at running
      exact balanced.goto _ (by simp [pc, ServerPc.fetched])
        (by simp [pc, ServerPc.pushed, MetaData.zero]) (fun _ => running)
        (MetaData.consistent_zero _)
  | startWrite time toWrite pc quit nonempty =>
      simp only [pc, ServerPc.inBody, ServerPc.HelperOk, forall_const] at running helper
      exact balanced.goto _ (by simp [pc, ServerPc.fetched]) (by simp [pc, ServerPc.pushed])
        (fun _ => running) ⟨helper, nonempty⟩
  | sendSome amount transfer pc nonempty fits more =>
      simp only [pc, ServerPc.HelperOk] at helper
      exact balanced.send pc (Nat.le_of_lt more) _ rfl rfl ⟨helper.1, more⟩
  | sendLast amount transfer pc nonempty fits full =>
      simp only [pc, ServerPc.HelperOk] at helper
      have within := transfer.request_le config.arguments.reqSize (Nat.le_of_lt helper.2)
      have last : transfer.total + amount ≤ transfer.limit := by omega
      exact balanced.send pc last _ rfl rfl (config.metaData_consistent _)
  | sendStop transfer pc =>
      simp only [pc, ServerPc.inBody, forall_const] at running
      exact balanced.goto _ (by simp [pc, ServerPc.fetched]) (by simp [pc, ServerPc.pushed])
        (fun _ => running) (config.metaData_consistent _)
  | sendBroken transfer pc =>
      simp only [pc, ServerPc.inBody, forall_const] at running
      exact (balanced.congr true _ _ _).goto _ (by simp [pc, ServerPc.fetched])
        (by simp [pc, ServerPc.pushed]) (fun _ => running) (config.metaData_consistent _)
  | accountWrite time info pc => exact balanced.accountWrite pc

theorem Balanced.outgoing_length (balanced : Balanced config transport received sent server)
    (taken : Step transport config.arguments server action next) :
    (action.outgoing server.outgoing).length = action.sent := by
  have helper := balanced.helper
  have window := balanced.window
  have buffer := balanced.buffer
  have enough : ∀ amount transfer, server.pc = .writing transfer →
      amount ≤ transfer.request config.arguments.reqSize →
      (server.outgoing amount).length = amount := by
    intro amount transfer pc fits
    simp only [pc, ServerPc.HelperOk, ServerPc.fetched] at helper window
    have within := transfer.request_le config.arguments.reqSize (Nat.le_of_lt helper.2)
    simp only [Server.outgoing, pc, List.length_take, List.length_drop]
    omega
  cases taken with
  | sendSome amount transfer pc nonempty fits more => exact enough amount transfer pc fits
  | sendLast amount transfer pc nonempty fits full => exact enough amount transfer pc fits
  | _ => rfl

theorem Balanced.access_le (balanced : Balanced config transport received sent server)
    {offset length : Nat} (accessed : server.access config.arguments = some (offset, length)) :
    offset + length ≤ config.window := by
  have helper := balanced.helper
  have window := balanced.window
  unfold access at accessed
  split at accessed
  · rename_i canWrite transfer pc
    cases accessed
    simp only [pc, ServerPc.HelperOk] at helper
    have within := transfer.request_le config.arguments.reqSize (Nat.le_of_lt helper.2)
    omega
  · rename_i transfer pc
    cases accessed
    simp only [pc, ServerPc.HelperOk, ServerPc.fetched] at helper window
    have within := transfer.request_le config.arguments.reqSize (Nat.le_of_lt helper.2)
    omega
  · cases accessed

end Server

end IpcBench
