import IpcBench.Client

/-!
The byte counters of a client agree with the bytes it has moved, at every point of
its loop, whatever its environment answers.
-/

namespace IpcBench

open Words Transition

namespace ClientPc

def fetched : ClientPc → Nat
  | .reading _ transfer => transfer.total
  | .readDone _ info => info.totalBytes
  | _ => 0

def pushed : ClientPc → Nat
  | .writing transfer => transfer.total
  | .writeDone info => info.totalBytes
  | _ => 0

def beforeRead : ClientPc → Bool
  | .poll => true
  | .read _ _ => true
  | .reading _ _ => true
  | .readDone _ _ => true
  | _ => false

def HelperOk (config : Config) (outstandingBytes : Nat) : ClientPc → Prop
  | .reading _ transfer => transfer.limit = outstandingBytes ∧ transfer.total < transfer.limit
  | .readDone _ info => info.Consistent config.size
  | .writing transfer =>
      transfer.limit + outstandingBytes = config.window ∧ transfer.total < transfer.limit
  | .writeDone info => info.Consistent config.size
  | _ => True

end ClientPc

namespace Client

variable {Byte : Type} {config : Config}

structure Balanced (config : Config) (received sent : Nat) (client : Client Byte) : Prop where
  read : client.totalBytesRead + client.pc.fetched = received
  written : client.totalBytesWritten = ssizeT ((sent : Int) - client.pc.pushed)
  balance : client.outstandingBytes + client.pc.pushed + received = sent + client.pc.fetched
  window : client.outstandingBytes + client.pc.pushed ≤ config.window
  fetched : client.pc.fetched ≤ client.outstandingBytes
  bound : received < config.total + config.window
  running : client.pc.beforeRead = true → client.totalBytesRead < config.total
  helper : client.pc.HelperOk config client.outstandingBytes
  buffer : client.writeBuffer.length = config.window

theorem Balanced.initial (memory : ClientMemory Byte config) :
    Balanced config 0 0 (Client.initial memory) := by
  have totalPos := config.total_pos
  exact {
    read := rfl
    written := rfl
    balance := rfl
    window := Nat.zero_le _
    fetched := Nat.le_refl _
    bound := by omega
    running := by simp [Client.initial, ClientPc.beforeRead]
    helper := trivial
    buffer := memory.writeBuffer_length
  }

variable {received sent : Nat} {client next : Client Byte} {action : Action Byte}

theorem Balanced.goto (balanced : Balanced config received sent client) (pc : ClientPc)
    (sameFetched : pc.fetched = client.pc.fetched) (samePushed : pc.pushed = client.pc.pushed)
    (running : pc.beforeRead = true → client.totalBytesRead < config.total)
    (helper : pc.HelperOk config client.outstandingBytes) :
    Balanced config received sent (client.goto pc) where
  read := by simpa [Client.goto, sameFetched] using balanced.read
  written := by simpa [Client.goto, samePushed] using balanced.written
  balance := by simpa [Client.goto, sameFetched, samePushed] using balanced.balance
  window := by simpa [Client.goto, samePushed] using balanced.window
  fetched := by simpa [Client.goto, sameFetched] using balanced.fetched
  bound := balanced.bound
  running := running
  helper := helper
  buffer := balanced.buffer

theorem Balanced.recv {amount : Nat} {canWrite : Bool} {transfer : Transfer}
    (balanced : Balanced config received sent client)
    (pc : client.pc = .reading canWrite transfer)
    (fits : transfer.total + amount ≤ transfer.limit) (next : ClientPc)
    (fetched : next.fetched = transfer.total + amount) (pushed : next.pushed = 0)
    (helper : next.HelperOk config client.outstandingBytes) :
    Balanced config (received + amount) sent (client.goto next) := by
  obtain ⟨read, written, balance, window, oldFetched, bound, running, oldHelper, buffer⟩ := balanced
  simp only [pc, ClientPc.fetched, ClientPc.pushed, ClientPc.HelperOk, ClientPc.beforeRead,
    forall_const] at read written balance window oldFetched running oldHelper
  exact {
    read := by simp only [Client.goto, fetched]; omega
    written := by simpa [Client.goto, pushed] using written
    balance := by simp only [Client.goto, fetched, pushed]; omega
    window := by simp only [Client.goto, pushed]; omega
    fetched := by simp only [Client.goto, fetched]; omega
    bound := by omega
    running := fun _ => running
    helper := helper
    buffer := buffer
  }

theorem Balanced.send {amount : Nat} {transfer : Transfer}
    (balanced : Balanced config received sent client) (pc : client.pc = .writing transfer)
    (fits : transfer.total + amount ≤ transfer.limit) (next : ClientPc)
    (fetched : next.fetched = 0) (pushed : next.pushed = transfer.total + amount)
    (before : next.beforeRead = false) (helper : next.HelperOk config client.outstandingBytes) :
    Balanced config received (sent + amount) (client.goto next) := by
  obtain ⟨read, written, balance, window, _, bound, _, oldHelper, buffer⟩ := balanced
  simp only [pc, ClientPc.fetched, ClientPc.pushed, ClientPc.HelperOk]
    at read written balance window oldHelper
  have total : (sent : Int) - transfer.total =
      (sent + amount : Nat) - (transfer.total + amount : Nat) := by
    omega
  exact {
    read := by simpa [Client.goto, fetched] using read
    written := by simp only [Client.goto, pushed]; rw [← total]; exact written
    balance := by simp only [Client.goto, fetched, pushed]; omega
    window := by simp only [Client.goto, pushed]; omega
    fetched := by simp [Client.goto, fetched]
    bound := bound
    running := by simp [Client.goto, before]
    helper := helper
    buffer := buffer
  }

theorem Balanced.accountRead {canWrite : Bool} {info : MetaData}
    (balanced : Balanced config received sent client)
    (pc : client.pc = .readDone canWrite info) (time : Nat) :
    Balanced config received sent ((client.accountRead time info).goto (.stamp canWrite)) := by
  obtain ⟨read, written, balance, window, fetched, bound, _, _, buffer⟩ := balanced
  simp only [pc, ClientPc.fetched, ClientPc.pushed] at read written balance window fetched
  have windowBound := config.window_lt
  have totalBound := config.total_lt
  have outstanding : (client.accountRead time info).outstandingBytes =
      client.outstandingBytes - info.totalBytes :=
    sizeT_sub (by omega) fetched
  have total : (client.accountRead time info).totalBytesRead =
      client.totalBytesRead + info.totalBytes :=
    ssizeT_eq (by omega) (by omega)
  exact {
    read := by simp only [Client.goto, total, ClientPc.fetched]; omega
    written := written
    balance := by
      simp only [Client.goto, outstanding, ClientPc.fetched, ClientPc.pushed]
      omega
    window := by simp only [Client.goto, outstanding, ClientPc.pushed]; omega
    fetched := Nat.zero_le _
    bound := bound
    running := by simp [Client.goto, ClientPc.beforeRead]
    helper := trivial
    buffer := buffer
  }

theorem Balanced.accountWrite {info : MetaData}
    (balanced : Balanced config received sent client) (pc : client.pc = .writeDone info) :
    Balanced config received sent ((client.accountWrite info).goto .loop) := by
  obtain ⟨read, written, balance, window, fetched, bound, _, _, buffer⟩ := balanced
  simp only [pc, ClientPc.fetched, ClientPc.pushed] at read written balance window fetched
  have windowBound := config.window_lt
  have outstanding : (client.accountWrite info).outstandingBytes =
      client.outstandingBytes + info.totalBytes :=
    sizeT_add (by omega)
  have total : (client.accountWrite info).totalBytesWritten = ssizeT sent := by
    simp only [Client.accountWrite, written, ssizeT_ssizeT_add]
    congr 1
    omega
  exact {
    read := read
    written := by simpa [Client.goto, ClientPc.pushed] using total
    balance := by
      simp only [Client.goto, outstanding, ClientPc.fetched, ClientPc.pushed]
      omega
    window := by simp only [Client.goto, outstanding, ClientPc.pushed]; omega
    fetched := Nat.zero_le _
    bound := bound
    running := by simp [Client.goto, ClientPc.beforeRead]
    helper := trivial
    buffer := buffer
  }

theorem Balanced.stampWrites (balanced : Balanced config received sent client) (time : Nat) :
    Balanced config received sent (client.stampWrites config.arguments time) := by
  unfold Client.stampWrites
  split
  · exact ⟨balanced.read, balanced.written, balanced.balance, balanced.window, balanced.fetched,
      balanced.bound, balanced.running, balanced.helper, balanced.buffer⟩
  · exact balanced

theorem Balanced.leave (balanced : Balanced config received sent client)
    (fetched : client.pc.fetched = 0) (pushed : client.pc.pushed = 0) :
    Balanced config received sent client.leave := by
  have moved := balanced.goto .exit fetched.symm pushed.symm (by simp [ClientPc.beforeRead])
    trivial
  exact ⟨moved.read, moved.written, moved.balance, moved.window, moved.fetched, moved.bound,
    moved.running, moved.helper, moved.buffer⟩

theorem Balanced.step (balanced : Balanced config received sent client)
    (taken : Step config.arguments client action next) :
    Balanced config (received + action.received) (sent + action.sent) next := by
  have windowBound := config.window_lt
  have totalBound := config.total_lt
  have running := balanced.running
  have helper := balanced.helper
  cases taken with
  | signal =>
      exact ⟨balanced.read, balanced.written, balanced.balance, balanced.window,
        balanced.fetched, balanced.bound, running, helper, balanced.buffer⟩
  | enter time pc more quit =>
      have read := balanced.read
      have bound := balanced.bound
      simp only [pc, ClientPc.fetched] at read
      rw [Config.maxBytes_eq, sizeT_eq (by omega) (by omega)] at more
      exact balanced.goto .poll (by simp [pc, ClientPc.fetched]) (by simp [pc, ClientPc.pushed])
        (fun _ => by omega) trivial
  | finish time pc isOver =>
      exact balanced.leave (by simp [pc, ClientPc.fetched]) (by simp [pc, ClientPc.pushed])
  | pollFailed ready pc failed =>
      exact balanced.leave (by simp [pc, ClientPc.fetched]) (by simp [pc, ClientPc.pushed])
  | polled canRead canWrite pc quit =>
      simp only [pc, ClientPc.beforeRead, forall_const] at running
      exact balanced.goto _ (by simp [pc, ClientPc.fetched]) (by simp [pc, ClientPc.pushed])
        (fun _ => running) trivial
  | skipRead time canRead canWrite pc skipped =>
      exact balanced.goto _ (by simp [pc, ClientPc.fetched]) (by simp [pc, ClientPc.pushed])
        (by simp [ClientPc.beforeRead]) trivial
  | readNothing time canWrite pc quit empty =>
      simp only [pc, ClientPc.beforeRead, forall_const] at running
      exact balanced.goto _ (by simp [pc, ClientPc.fetched, MetaData.zero])
        (by simp [pc, ClientPc.pushed]) (fun _ => running) (MetaData.consistent_zero _)
  | startRead time canWrite pc quit nonempty =>
      simp only [pc, ClientPc.beforeRead, forall_const] at running
      exact balanced.goto _ (by simp [pc, ClientPc.fetched])
        (by simp [pc, ClientPc.pushed]) (fun _ => running) ⟨rfl, nonempty⟩
  | recvSome data canWrite transfer pc nonempty fits more =>
      simp only [pc, ClientPc.HelperOk] at helper
      exact balanced.recv pc (Nat.le_of_lt more) _ rfl rfl ⟨helper.1, more⟩
  | recvLast data canWrite transfer pc nonempty fits full =>
      simp only [pc, ClientPc.HelperOk] at helper
      have within := transfer.request_le config.arguments.reqSize (Nat.le_of_lt helper.2)
      have last : transfer.total + data.length ≤ transfer.limit := by omega
      exact balanced.recv pc last _ rfl rfl (config.metaData_consistent _)
  | recvStop canWrite transfer pc =>
      simp only [pc, ClientPc.beforeRead, forall_const] at running
      exact balanced.goto _ (by simp [pc, ClientPc.fetched]) (by simp [pc, ClientPc.pushed])
        (fun _ => running) (config.metaData_consistent _)
  | accountRead time canWrite info pc => exact balanced.accountRead pc time
  | stamp time canWrite pc =>
      exact (balanced.stampWrites time).goto _ (by simp [pc, ClientPc.fetched])
        (by simp [pc, ClientPc.pushed]) (by simp [ClientPc.beforeRead]) trivial
  | skipWrite time canWrite pc skipped =>
      exact balanced.goto _ (by simp [pc, ClientPc.fetched]) (by simp [pc, ClientPc.pushed])
        (by simp [ClientPc.beforeRead]) trivial
  | startWrite time pc room quit =>
      rw [Config.maxOutstandingBytes_eq] at room ⊢
      refine balanced.goto _ (by simp [pc, ClientPc.fetched]) (by simp [pc, ClientPc.pushed])
        (by simp [ClientPc.beforeRead]) ?_
      simp only [ClientPc.HelperOk, Transfer.start_limit, Transfer.start_total]
      omega
  | sendSome amount transfer pc nonempty fits more =>
      simp only [pc, ClientPc.HelperOk] at helper
      exact balanced.send pc (Nat.le_of_lt more) _ rfl rfl rfl ⟨helper.1, more⟩
  | sendLast amount transfer pc nonempty fits full =>
      simp only [pc, ClientPc.HelperOk] at helper
      have within := transfer.request_le config.arguments.reqSize (Nat.le_of_lt helper.2)
      have last : transfer.total + amount ≤ transfer.limit := by omega
      exact balanced.send pc last _ rfl rfl rfl (config.metaData_consistent _)
  | sendStop transfer pc =>
      exact balanced.goto _ (by simp [pc, ClientPc.fetched]) (by simp [pc, ClientPc.pushed])
        (by simp [ClientPc.beforeRead]) (config.metaData_consistent _)
  | sendBroken transfer pc =>
      have quitting : Balanced config received sent { client with quit := true } :=
        ⟨balanced.read, balanced.written, balanced.balance, balanced.window, balanced.fetched,
          balanced.bound, running, helper, balanced.buffer⟩
      exact quitting.goto _ (by simp [pc, ClientPc.fetched]) (by simp [pc, ClientPc.pushed])
        (by simp [ClientPc.beforeRead]) (config.metaData_consistent _)
  | accountWrite time info pc => exact balanced.accountWrite pc

theorem Balanced.outgoing_length (balanced : Balanced config received sent client)
    (taken : Step config.arguments client action next) :
    (action.outgoing client.outgoing).length = action.sent := by
  have helper := balanced.helper
  have buffer := balanced.buffer
  have enough : ∀ amount transfer, client.pc = .writing transfer →
      amount ≤ transfer.request config.arguments.reqSize →
      (client.outgoing amount).length = amount := by
    intro amount transfer pc fits
    simp only [pc, ClientPc.HelperOk] at helper
    have within := transfer.request_le config.arguments.reqSize (Nat.le_of_lt helper.2)
    simp only [Client.outgoing, pc, List.length_take, List.length_drop]
    omega
  cases taken with
  | sendSome amount transfer pc nonempty fits more => exact enough amount transfer pc fits
  | sendLast amount transfer pc nonempty fits full => exact enough amount transfer pc fits
  | _ => rfl

theorem Balanced.access_le (balanced : Balanced config received sent client) {offset length : Nat}
    (accessed : client.access config.arguments = some (offset, length)) :
    offset + length ≤ config.window := by
  have helper := balanced.helper
  have window := balanced.window
  unfold access at accessed
  split at accessed
  · rename_i canWrite transfer pc
    cases accessed
    simp only [pc, ClientPc.HelperOk] at helper
    have within := transfer.request_le config.arguments.reqSize (Nat.le_of_lt helper.2)
    omega
  · rename_i transfer pc
    cases accessed
    simp only [pc, ClientPc.HelperOk] at helper
    have within := transfer.request_le config.arguments.reqSize (Nat.le_of_lt helper.2)
    omega
  · cases accessed

theorem Step.exit_inv (taken : Step config.arguments client action next)
    (before : Balanced config received sent client) (exit : next.pc = .exit) :
    client.pc = .exit ∨ config.total ≤ client.totalBytesRead ∨ client.quit = true ∨
      action = .poll none := by
  cases taken with
  | signal => exact Or.inl exit
  | finish time pc isOver =>
      rcases isOver with reached | quit
      · have read := before.read
        have bound := before.bound
        have totalBound := config.total_lt
        have windowBound := config.window_lt
        simp only [pc, ClientPc.fetched] at read
        rw [Config.maxBytes_eq, sizeT_eq (by omega) (by omega)] at reached
        exact Or.inr (Or.inl (by omega))
      · exact Or.inr (Or.inr (Or.inl quit))
  | pollFailed ready pc failed =>
      rcases failed with none | quit
      · exact Or.inr (Or.inr (Or.inr (congrArg Action.poll none)))
      · exact Or.inr (Or.inr (Or.inl quit))
  | _ => simp [Client.goto] at exit

theorem Balanced.run {memory : ClientMemory Byte config} {trace : List (Client Byte × Action Byte)}
    (run : Run (machine config.arguments) (Client.initial memory) trace client) :
    Balanced config (bytesReceived trace) (bytesSent trace) client := by
  refine run.invariant
    (fun trace client => Balanced config (bytesReceived trace) (bytesSent trace) client)
    (Balanced.initial memory) ?_
  intro trace client action next _ balanced taken
  rw [bytesReceived_step, bytesSent_step]
  exact balanced.step (step_inv taken)

end Client

end IpcBench
