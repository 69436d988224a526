import IpcBench.ServerBalance

/-!
What a server writes against what it has read. Both helpers start at offset 0 of the
one buffer, so the buffer holds the bytes that are outstanding as long as a read
finds nothing outstanding and a write leaves nothing outstanding.
-/

namespace IpcBench

open Words Transition

namespace Server

variable {Byte : Type} {config : Config} {transport : Transport} {received sent : Nat}
  {server next : Server Byte} {action : Action Byte} {input output : List Byte}

def Holds (input output : List Byte) (server : Server Byte) : Prop :=
  ∃ echoed, input = echoed ++
      server.readBuffer.take (server.outstandingBytes.toNat + server.pc.fetched) ∧
    output = echoed ++ server.readBuffer.take server.pc.pushed

theorem Holds.initial (memory : ServerMemory Byte config) :
    Holds [] [] (Server.initial transport memory) :=
  ⟨[], rfl, rfl⟩

theorem Holds.echoes (holds : Holds input output server)
    (balanced : Balanced config transport received sent server) : output <+: input := by
  obtain ⟨echoed, rfl, rfl⟩ := holds
  have pushed := balanced.pushed
  refine (List.prefix_append_right_inj echoed).mpr ?_
  exact List.take_prefix_take_left (by omega)

theorem Holds.keep (holds : Holds input output server)
    (before : Balanced config transport received sent server)
    (after : Balanced config transport received sent next)
    (buffer : next.readBuffer = server.readBuffer) (pushed : next.pc.pushed = server.pc.pushed) :
    Holds input output next := by
  obtain ⟨echoed, read, written⟩ := holds
  have holding := before.holding
  have same : next.outstandingBytes.toNat + next.pc.fetched =
      server.outstandingBytes.toNat + server.pc.fetched := by
    have later := after.holding
    omega
  refine ⟨echoed, ?_, ?_⟩
  · rw [buffer, same]
    exact read
  · rw [buffer, pushed]
    exact written

theorem Holds.recv (holds : Holds input output server)
    (balanced : Balanced config transport received sent server)
    (empty : server.outstandingBytes = 0) {data : List Byte} {canWrite : Bool}
    {transfer : Transfer} (pc : server.pc = .reading canWrite transfer)
    (fits : data.length ≤ transfer.request config.arguments.reqSize) (after : ServerPc)
    (fetched : after.fetched = transfer.total + data.length) (pushed : after.pushed = 0) :
    Holds (input ++ data) output ((server.fill transfer.total data).goto after) := by
  obtain ⟨echoed, read, written⟩ := holds
  have helper := balanced.helper
  have buffer := balanced.buffer
  simp only [pc, empty, ServerPc.HelperOk, ServerPc.fetched, ServerPc.pushed, Int.toNat_zero,
    Nat.zero_add] at read written helper
  have within := transfer.request_le config.arguments.reqSize (Nat.le_of_lt helper.2)
  have stored : (store server.readBuffer transfer.total data).take
      (transfer.total + data.length) = server.readBuffer.take transfer.total ++ data :=
    store_take (by omega)
  refine ⟨echoed, ?_, ?_⟩
  · change input ++ data = echoed ++ (store server.readBuffer transfer.total data).take
      (server.outstandingBytes.toNat + after.fetched)
    rw [fetched, empty, Int.toNat_zero, Nat.zero_add, stored, read, List.append_assoc]
  · change output = echoed ++ (store server.readBuffer transfer.total data).take after.pushed
    rw [pushed]
    exact written

theorem Holds.send (holds : Holds input output server) {amount : Nat} {transfer : Transfer}
    (pc : server.pc = .writing transfer) (after : ServerPc) (fetched : after.fetched = 0)
    (pushed : after.pushed = transfer.total + amount) :
    Holds input (output ++ server.outgoing amount) (server.goto after) := by
  obtain ⟨echoed, read, written⟩ := holds
  simp only [pc, ServerPc.fetched, ServerPc.pushed] at read written
  refine ⟨echoed, ?_, ?_⟩
  · simpa [Server.goto, fetched] using read
  · simp only [Server.goto, Server.outgoing, pc, pushed]
    rw [written, List.take_add, List.append_assoc]

theorem Holds.accountWrite (holds : Holds input output server) {info : MetaData}
    (before : Balanced config transport received sent server)
    (after : Balanced config transport received sent ((server.accountWrite info).goto .loop))
    (pc : server.pc = .writeDone info)
    (whole : info.totalBytes = 0 ∨ (info.totalBytes : Int) = server.outstandingBytes) :
    Holds input output ((server.accountWrite info).goto .loop) := by
  rcases whole with nothing | all
  · exact holds.keep before after rfl (by simp [Server.goto, pc, ServerPc.pushed, nothing])
  · obtain ⟨echoed, read, written⟩ := holds
    have holding := before.holding
    have left := after.holding
    simp only [pc, ServerPc.fetched, ServerPc.pushed] at read written holding
    have empty : ((server.accountWrite info).goto .loop).outstandingBytes.toNat = 0 := by
      simp only [Server.goto, ServerPc.fetched, ServerPc.pushed] at left ⊢
      omega
    have held : server.outstandingBytes.toNat = info.totalBytes := by omega
    refine ⟨output, ?_, ?_⟩
    · rw [empty, read, written, held]
      simp [Server.goto, ServerPc.fetched]
    · simp [Server.goto, ServerPc.pushed]

/-- The buffer goes on holding the outstanding bytes if bytes are read only when none are
outstanding and a write that moved some has moved them all. -/
theorem Holds.step (holds : Holds input output server)
    (before : Balanced config transport received sent server)
    (after : Balanced config transport (received + action.received) (sent + action.sent) next)
    (taken : Step transport config.arguments server action next)
    (fresh : 0 < action.received → server.outstandingBytes = 0)
    (whole : ∀ info, server.pc = .writeDone info →
      info.totalBytes = 0 ∨ (info.totalBytes : Int) = server.outstandingBytes) :
    Holds (input ++ action.incoming) (output ++ action.outgoing server.outgoing) next := by
  cases taken with
  | recvSome data canWrite transfer pc nonempty fits more =>
      simp only [Action.incoming, Action.outgoing, List.append_nil]
      exact holds.recv before (fresh nonempty) pc fits _ rfl rfl
  | recvLast data canWrite transfer pc nonempty fits full =>
      simp only [Action.incoming, Action.outgoing, List.append_nil]
      exact holds.recv before (fresh nonempty) pc fits _ rfl rfl
  | sendSome amount transfer pc nonempty fits more =>
      simp only [Action.incoming, Action.outgoing, List.append_nil]
      exact holds.send pc _ rfl rfl
  | sendLast amount transfer pc nonempty fits full =>
      simp only [Action.incoming, Action.outgoing, List.append_nil]
      exact holds.send pc _ rfl rfl
  | accountWrite time info pc =>
      simp only [Action.incoming, Action.outgoing, List.append_nil]
      exact holds.accountWrite before after pc (whole info pc)
  | signal =>
      simp only [Action.incoming, Action.outgoing, List.append_nil]
      exact holds.keep before after rfl rfl
  | accountRead time canWrite info pc =>
      have buffer : (server.accountRead transport time info).readBuffer = server.readBuffer := by
        obtain ⟨_, _, _, same, _⟩ := accountRead_eq before.first time info
        rw [same]
      simp only [Action.incoming, Action.outgoing, List.append_nil]
      exact holds.keep before after buffer (by simp [Server.goto, pc, ServerPc.pushed])
  | enter time pc | finish time pc | pollFailed ready pc | polled canRead writable pc
  | skipRead time canRead canWrite pc | readNothing time canWrite pc | startRead time canWrite pc
  | recvStop canWrite transfer pc | skipWrite time canWrite toWrite pc | writeNothing time pc
  | startWrite time toWrite pc | sendStop transfer pc | sendBroken transfer pc =>
      simp only [Action.incoming, Action.outgoing, List.append_nil]
      exact holds.keep before after rfl
        (by simp [Server.goto, Server.leave, pc, ServerPc.pushed, MetaData.zero])

end Server

end IpcBench
