import IpcBench.Pair

/-!
What the tcp server sends against what it has received. Its read helper stores every
call at offset 0, over bytes that may not have been sent, and its write helper starts
every call at offset 0, also after a call that sent only some of them.
-/

namespace IpcBench

open Words Transition

variable {Byte : Type} {config : Config}

def latestRead (trace : List (Server Byte × Action Byte)) : Nat :=
  trace.foldl (fun latest entry =>
    match entry.2, entry.1.pc with
    | .recv data, .reading _ transfer => transfer.total + data.length
    | _, _ => latest) 0

/-- The client that sends these bytes has no more than a window of them unanswered. -/
def WithinWindow (config : Config) : List (Server Byte × Action Byte) → Prop :=
  Throughout fun earlier _ action =>
    bytesReceived earlier + action.received ≤ bytesSent earlier + config.window

def SendsLatest : List (Server Byte × Action Byte) → Prop :=
  Throughout fun earlier server action =>
    0 < action.sent → server.outstandingBytes = latestRead earlier

namespace Server

variable {trace : List (Server Byte × Action Byte)} {server next : Server Byte}
  {action : Action Byte}

theorem latestRead_recv {canWrite : Bool} {transfer : Transfer} {data : List Byte}
    (pc : server.pc = .reading canWrite transfer) :
    latestRead (trace ++ [(server, .recv data)]) = transfer.total + data.length := by
  simp [latestRead, pc]

theorem latestRead_other (other : ∀ data, action ≠ .recv data) :
    latestRead (trace ++ [(server, action)]) = latestRead trace := by
  cases action with
  | recv data => exact absurd rfl (other data)
  | _ => simp [latestRead]

structure Fronts (config : Config) (trace : List (Server Byte × Action Byte))
    (server : Server Byte) : Prop where
  balanced : Balanced config .tcp (bytesReceived trace) (bytesSent trace) server
  latest_le : latestRead trace ≤ bytesReceived trace
  latest_pos : 0 < bytesReceived trace → 0 < latestRead trace
  front : server.readBuffer.take (latestRead trace) =
    (bytesIn trace).drop (bytesReceived trace - latestRead trace)
  reading : ∀ canWrite transfer, server.pc = .reading canWrite transfer →
    0 < transfer.total → latestRead trace = transfer.total
  writing : SendsLatest trace → ∀ transfer, server.pc = .writing transfer →
    0 < transfer.total → server.outstandingBytes = latestRead trace

theorem Fronts.initial (memory : ServerMemory Byte config) :
    Fronts config [] (Server.initial .tcp memory) where
  balanced := Balanced.initial memory
  latest_le := Nat.le_refl _
  latest_pos := by simp
  front := rfl
  reading := by simp [Server.initial]
  writing := by simp [Server.initial]

theorem Fronts.recv {data : List Byte} {canWrite : Bool} {transfer : Transfer}
    (fronts : Fronts config trace server) (pc : server.pc = .reading canWrite transfer)
    (nonempty : 0 < data.length) (fits : data.length ≤ transfer.request config.arguments.reqSize)
    {after : ServerPc} (writing : ∀ transfer, after ≠ .writing transfer)
    (reading : ∀ canWrite later, after = .reading canWrite later →
      later.total = transfer.total + data.length)
    (balanced : Balanced config .tcp (bytesReceived (trace ++ [(server, .recv data)]))
      (bytesSent (trace ++ [(server, .recv data)]))
      ((server.fill transfer.total data).goto after)) :
    Fronts config (trace ++ [(server, .recv data)])
      ((server.fill transfer.total data).goto after) := by
  have latest : latestRead (trace ++ [(server, .recv data)]) = transfer.total + data.length :=
    latestRead_recv pc
  have received : bytesReceived (trace ++ [(server, .recv data)]) =
      bytesReceived trace + data.length :=
    bytesReceived_step trace server (.recv data)
  have length := bytesIn_length trace
  have holding := fronts.balanced.holding
  have helper := fronts.balanced.helper
  have buffer := fronts.balanced.buffer
  simp only [pc, ServerPc.fetched, ServerPc.pushed, ServerPc.HelperOk] at holding helper
  have within := transfer.request_le config.arguments.reqSize (Nat.le_of_lt helper.2)
  have front : server.readBuffer.take transfer.total =
      (bytesIn trace).drop (bytesReceived trace - transfer.total) := by
    rcases Nat.eq_zero_or_pos transfer.total with none | some
    · rw [none, List.take_zero, Nat.sub_zero, ← length, List.drop_length]
    · rw [← fronts.reading canWrite transfer pc some]
      exact fronts.front
  refine ⟨balanced, ?_, ?_, ?_, ?_, ?_⟩
  · omega
  · omega
  · have stored : (store server.readBuffer transfer.total data).take
        (transfer.total + data.length) = server.readBuffer.take transfer.total ++ data :=
      store_take (by omega)
    have offset : bytesReceived trace + data.length - (transfer.total + data.length) =
        bytesReceived trace - transfer.total := by omega
    change (store server.readBuffer transfer.total data).take _ = _
    rw [latest, received, stored, front, bytesIn_step, offset, Action.incoming]
    exact (List.drop_append_of_le_length (by omega)).symm
  · intro other later same some
    rw [latest, reading other later same]
  · intro _ later same
    exact absurd same (writing later)

theorem Fronts.keep (fronts : Fronts config trace server)
    (balanced : Balanced config .tcp (bytesReceived (trace ++ [(server, action)]))
      (bytesSent (trace ++ [(server, action)])) next)
    (other : ∀ data, action ≠ .recv data) (buffer : next.readBuffer = server.readBuffer)
    (reading : ∀ canWrite transfer, next.pc = .reading canWrite transfer → 0 < transfer.total →
      server.pc = next.pc)
    (writing : SendsLatest (trace ++ [(server, action)]) → ∀ transfer,
      next.pc = .writing transfer → 0 < transfer.total →
      next.outstandingBytes = latestRead trace) :
    Fronts config (trace ++ [(server, action)]) next := by
  have latest : latestRead (trace ++ [(server, action)]) = latestRead trace :=
    latestRead_other other
  have received : action.received = 0 := by
    cases action with
    | recv data => exact absurd rfl (other data)
    | _ => rfl
  have incoming : action.incoming = [] := by
    cases action with
    | recv data => exact absurd rfl (other data)
    | _ => rfl
  refine ⟨balanced, ?_, ?_, ?_, ?_, ?_⟩
  · rw [latest, bytesReceived_step, received]
    exact fronts.latest_le
  · rw [latest, bytesReceived_step, received]
    exact fronts.latest_pos
  · rw [latest, bytesReceived_step, received, bytesIn_step, incoming, buffer, List.append_nil]
    exact fronts.front
  · intro canWrite transfer pc some
    rw [latest]
    exact fronts.reading canWrite transfer ((reading canWrite transfer pc some).trans pc) some
  · intro sends transfer pc some
    rw [latest]
    exact writing sends transfer pc some

theorem Fronts.step (fronts : Fronts config trace server)
    (taken : Step .tcp config.arguments server action next)
    (window : bytesReceived trace + action.received ≤ bytesSent trace + config.window) :
    Fronts config (trace ++ [(server, action)]) next := by
  have balanced : Balanced config .tcp (bytesReceived (trace ++ [(server, action)]))
      (bytesSent (trace ++ [(server, action)])) next := by
    rw [bytesReceived_step, bytesSent_step]
    exact fronts.balanced.step taken window
  cases taken with
  | signal =>
      refine fronts.keep balanced (by simp) rfl (fun _ _ _ _ => rfl) ?_
      intro sends transfer pc some
      exact fronts.writing (throughout_step.mp sends).1 transfer pc some
  | recvSome data canWrite transfer pc nonempty fits more =>
      refine fronts.recv pc nonempty fits (by simp) ?_ balanced
      intro other later same
      cases same
      rfl
  | recvLast data canWrite transfer pc nonempty fits full =>
      exact fronts.recv pc nonempty fits (by simp) (by simp) balanced
  | sendSome amount transfer pc nonempty fits more =>
      refine fronts.keep balanced (by simp) rfl (by simp [Server.goto]) ?_
      intro sends _ _ _
      exact (throughout_step.mp sends).2 nonempty
  | startRead time canWrite pc running nonempty =>
      refine fronts.keep balanced (by simp) rfl ?_ (by simp [Server.goto])
      intro other transfer same some
      simp only [Server.goto, ServerPc.reading.injEq] at same
      simp [← same.2] at some
  | startWrite time toWrite pc running nonempty =>
      refine fronts.keep balanced (by simp) rfl (by simp [Server.goto]) ?_
      intro _ transfer same some
      simp only [Server.goto, ServerPc.writing.injEq] at same
      simp [← same] at some
  | accountRead time canWrite info pc =>
      refine fronts.keep balanced (by simp) ?_ (by simp [Server.goto]) (by simp [Server.goto])
      obtain ⟨_, _, _, same, _⟩ := accountRead_eq fronts.balanced.first time info
      rw [same]
      rfl
  | _ =>
      exact fronts.keep balanced (by simp) rfl (by simp [Server.goto, Server.leave])
        (by simp [Server.goto, Server.leave])

theorem Fronts.run {memory : ServerMemory Byte config}
    (run : Run (machine .tcp config.arguments) (Server.initial .tcp memory) trace server)
    (window : WithinWindow config trace) : Fronts config trace server := by
  refine run.invariant
    (fun trace server => WithinWindow config trace → Fronts config trace server)
    (fun _ => Fronts.initial memory) ?_ window
  intro trace server action next _ fronts taken window
  obtain ⟨before, now⟩ := throughout_step.mp window
  exact (fronts before).step (step_inv taken) now

theorem Fronts.outgoing (fronts : Fronts config trace server) {transfer : Transfer}
    (pc : server.pc = .writing transfer) {amount : Nat}
    (within : transfer.total + amount ≤ latestRead trace) :
    server.outgoing amount =
      ((bytesIn trace).drop (bytesReceived trace - latestRead trace + transfer.total)).take
        amount := by
  simp only [Server.outgoing, pc]
  calc (server.readBuffer.drop transfer.total).take amount
      = ((server.readBuffer.drop transfer.total).take
          (latestRead trace - transfer.total)).take amount := by
        rw [List.take_take, Nat.min_eq_left (by omega)]
    _ = ((server.readBuffer.take (latestRead trace)).drop transfer.total).take amount := by
        rw [List.drop_take]
    _ = ((bytesIn trace).drop (bytesReceived trace - latestRead trace + transfer.total)).take
          amount := by
        rw [fronts.front, List.drop_drop]

theorem Fronts.echo (fronts : Fronts config trace server)
    (taken : Step .tcp config.arguments server action next)
    (latest : 0 < action.sent → server.outstandingBytes = latestRead trace)
    (echoed : bytesOut Server.outgoing trace = (bytesIn trace).take (bytesSent trace)) :
    bytesOut Server.outgoing (trace ++ [(server, action)]) =
      (bytesIn (trace ++ [(server, action)])).take (bytesSent (trace ++ [(server, action)])) := by
  have ordered := fronts.balanced.sent_le
  have holding := fronts.balanced.holding
  have helper := fronts.balanced.helper
  have length := bytesIn_length trace
  rw [bytesOut_step, bytesIn_step, bytesSent_step, echoed]
  have send : ∀ amount transfer, server.pc = .writing transfer →
      amount ≤ transfer.request config.arguments.reqSize →
      server.outstandingBytes = latestRead trace →
      (bytesIn trace).take (bytesSent trace) ++ server.outgoing amount =
        (bytesIn trace).take (bytesSent trace + amount) := by
    intro amount transfer pc fits same
    simp only [pc, ServerPc.fetched, ServerPc.pushed, ServerPc.HelperOk] at holding helper
    have within := transfer.request_le config.arguments.reqSize (Nat.le_of_lt helper.2)
    have bound := fronts.latest_le
    have place : bytesReceived trace - latestRead trace + transfer.total = bytesSent trace := by
      omega
    rw [fronts.outgoing pc (by omega), place, List.take_add]
  cases taken with
  | recvSome data canWrite transfer pc | recvLast data canWrite transfer pc =>
      simp only [Action.incoming, Action.outgoing, Action.sent, List.append_nil, Nat.add_zero]
      exact (List.take_append_of_le_length (by omega)).symm
  | sendSome amount transfer pc nonempty fits more =>
      simp only [Action.incoming, Action.outgoing, Action.sent, List.append_nil]
      exact send amount transfer pc fits (latest nonempty)
  | sendLast amount transfer pc nonempty fits full =>
      simp only [Action.incoming, Action.outgoing, Action.sent, List.append_nil]
      exact send amount transfer pc fits (latest nonempty)
  | _ => simp only [Action.incoming, Action.outgoing, Action.sent, List.append_nil, Nat.add_zero]

theorem Fronts.latest (fronts : Fronts config trace server)
    (taken : Step .tcp config.arguments server action next) (earlier : SendsLatest trace)
    (distinct : (bytesIn trace).Nodup)
    (echoes : bytesOut Server.outgoing trace ++ action.outgoing server.outgoing <+: bytesIn trace)
    (length : (bytesOut Server.outgoing trace).length = bytesSent trace)
    (some : 0 < action.sent) : server.outstandingBytes = latestRead trace := by
  have holding := fronts.balanced.holding
  have helper := fronts.balanced.helper
  have bound := fronts.latest_le
  have send : ∀ amount transfer, server.pc = .writing transfer → 0 < amount →
      bytesOut Server.outgoing trace ++ server.outgoing amount <+: bytesIn trace →
      server.outstandingBytes = latestRead trace := by
    intro amount transfer pc nonempty echoes
    rcases Nat.eq_zero_or_pos transfer.total with first | later
    · simp only [pc, first, ServerPc.fetched, ServerPc.pushed, ServerPc.HelperOk] at holding helper
      have latestPos := fronts.latest_pos (by omega)
      have size := bytesIn_length trace
      have one : server.outgoing 1 <+: server.outgoing amount := by
        simp only [Server.outgoing, pc]
        exact List.take_prefix_take_left nonempty
      have next : server.outgoing 1 = _ := fronts.outgoing pc (by omega)
      obtain ⟨rest, whole⟩ := ((List.prefix_append_right_inj _).mpr one).trans echoes
      rw [next, first, Nat.add_zero, List.drop_eq_getElem_cons (by omega), List.take_succ_cons,
        List.take_zero] at whole
      have here : ∀ byte,
          (bytesOut Server.outgoing trace ++ [byte] ++ rest)[bytesSent trace]? = Option.some byte := by
        intro byte
        rw [← length]
        simp
      have there := here (bytesIn trace)[bytesReceived trace - latestRead trace]
      rw [whole, ← List.getElem?_eq_getElem (by omega)] at there
      have place := (List.getElem?_inj (by omega) distinct).mp there.symm
      omega
    · exact fronts.writing earlier transfer pc later
  cases taken with
  | sendSome amount transfer pc nonempty => exact send amount transfer pc nonempty echoes
  | sendLast amount transfer pc nonempty => exact send amount transfer pc nonempty echoes
  | _ => simp [Action.sent] at some

section Runs

variable {memory : ServerMemory Byte config}

theorem bytesOut_length
    (run : Run (machine .tcp config.arguments) (Server.initial .tcp memory) trace server)
    (window : WithinWindow config trace) :
    (bytesOut Server.outgoing trace).length = bytesSent trace := by
  refine run.invariant (fun trace _ => WithinWindow config trace →
    (bytesOut Server.outgoing trace).length = bytesSent trace) (fun _ => rfl) ?_ window
  intro trace server action next before length taken window
  have fronts := Fronts.run before (throughout_step.mp window).1
  rw [bytesOut_step, bytesSent_step, List.length_append, length (throughout_step.mp window).1,
    fronts.balanced.outgoing_length (step_inv taken)]

theorem echoes_of_sendsLatest
    (run : Run (machine .tcp config.arguments) (Server.initial .tcp memory) trace server)
    (window : WithinWindow config trace) (sends : SendsLatest trace) :
    bytesOut Server.outgoing trace = (bytesIn trace).take (bytesSent trace) := by
  refine run.invariant (fun trace _ => WithinWindow config trace → SendsLatest trace →
    bytesOut Server.outgoing trace = (bytesIn trace).take (bytesSent trace)) (fun _ _ => rfl) ?_
    window sends
  intro trace server action next before echoed taken window sends
  obtain ⟨earlierWindow, _⟩ := throughout_step.mp window
  obtain ⟨earlier, latest⟩ := throughout_step.mp sends
  exact (Fronts.run before earlierWindow).echo (step_inv taken) latest
    (echoed earlierWindow earlier)

theorem sendsLatest_of_echoes
    (run : Run (machine .tcp config.arguments) (Server.initial .tcp memory) trace server)
    (window : WithinWindow config trace) (distinct : (bytesIn trace).Nodup)
    (echoes : bytesOut Server.outgoing trace <+: bytesIn trace) : SendsLatest trace := by
  refine run.invariant (fun trace _ => WithinWindow config trace → (bytesIn trace).Nodup →
    bytesOut Server.outgoing trace <+: bytesIn trace → SendsLatest trace)
    (fun _ _ _ => throughout_nil) ?_ window distinct echoes
  intro trace server action next before latest taken window distinct echoes
  obtain ⟨earlierWindow, _⟩ := throughout_step.mp window
  rw [bytesIn_step] at distinct
  rw [bytesOut_step, bytesIn_step] at echoes
  have fronts := Fronts.run before earlierWindow
  have length := bytesOut_length before earlierWindow
  have ordered := fronts.balanced.sent_le
  have earlierDistinct := distinct.sublist (List.sublist_append_left _ _)
  have earlierEchoes : bytesOut Server.outgoing trace <+: bytesIn trace := by
    refine List.prefix_of_prefix_length_le ((List.prefix_append _ _).trans echoes)
      (List.prefix_append _ _) ?_
    rw [length, bytesIn_length]
    exact ordered
  have earlier := latest earlierWindow earlierDistinct earlierEchoes
  refine throughout_step.mpr ⟨earlier, ?_⟩
  intro some
  have quiet : action.incoming = [] := by
    cases action with
    | recv data => simp [Action.sent] at some
    | _ => rfl
  rw [quiet, List.append_nil] at echoes
  exact fronts.latest (step_inv taken) earlier earlierDistinct echoes length some

end Runs

end Server

/-- A tcp server whose client keeps within the window echoes its input if it sends bytes
only while it holds just those of its latest read; and when the bytes of the input are
pairwise different, in no other case. -/
theorem tcp_echoes {memory : ServerMemory Byte config} {trace : List (Server Byte × Action Byte)}
    {server : Server Byte}
    (run : Run (Server.machine .tcp config.arguments) (Server.initial .tcp memory) trace server)
    (window : WithinWindow config trace) :
    (SendsLatest trace → bytesOut Server.outgoing trace <+: bytesIn trace) ∧
      ((bytesIn trace).Nodup → bytesOut Server.outgoing trace <+: bytesIn trace →
        SendsLatest trace) := by
  constructor
  · intro sends
    rw [Server.echoes_of_sendsLatest run window sends]
    exact List.take_prefix _ _
  · intro distinct echoes
    exact Server.sendsLatest_of_echoes run window distinct echoes

theorem Pair.withinWindow [DecidableEq Byte] {transport : Transport} {setup : Setup Byte config}
    {trace : List (Pair Byte × PairAction Byte)} {pair : Pair Byte}
    (run : Run (Pair.machine transport config.arguments) (Pair.initial transport setup) trace
      pair) : WithinWindow config (serverTrace trace) := by
  refine run.invariant (fun trace _ => WithinWindow config (serverTrace trace)) throughout_nil ?_
  intro trace pair action next before within taken
  have linked := Pair.Linked.run before
  cases action with
  | client action =>
      rw [serverTrace_client]
      exact within
  | server action =>
      have available := Action.transfer_received (Pair.step_server taken).1
      have underway := linked.underway
      have sent := linked.sent_le
      rw [serverTrace_server]
      exact throughout_step.mpr ⟨within, by omega⟩

theorem Config.zeroTimes_length (config : Config) :
    (List.replicate config.count 0).length = config.count :=
  List.length_replicate

def Setup.ascending (config : Config) (capacity : Nat) : Setup Nat config where
  clientMemory := {
    writeBuffer := List.range config.window
    times := List.replicate config.count 0
    writeBuffer_length := List.length_range
    times_length := config.zeroTimes_length
  }
  serverMemory := (Setup.uniform config 0 capacity).serverMemory
  requestCapacity := capacity
  responseCapacity := capacity

/-- A request that is read in one call and sent back in one call. -/
theorem tcp_echoes_whole : ∃ trace pair,
    Run (Pair.machine .tcp Config.twoBytes.arguments)
      (Pair.initial .tcp (Setup.ascending Config.twoBytes 2)) trace pair ∧
    (bytesOut Server.outgoing (serverTrace trace) = [0, 1] ∧
      bytesIn (serverTrace trace) = [0, 1]) ∧
    (SendsLatest (serverTrace trace) →
        bytesOut Server.outgoing (serverTrace trace) <+: bytesIn (serverTrace trace)) ∧
      ((bytesIn (serverTrace trace)).Nodup →
        bytesOut Server.outgoing (serverTrace trace) <+: bytesIn (serverTrace trace) →
        SendsLatest (serverTrace trace)) := by
  obtain ⟨trace, pair, run, reached⟩ := exists_run_of_execute
    (Pair.machine .tcp Config.twoBytes.arguments)
    (Pair.initial .tcp (Setup.ascending Config.twoBytes 2))
    [.client (.advance 0), .client (.poll (some (false, true))), .client (.advance 0),
      .client (.advance 0), .client (.advance 0), .client (.send 2), .client (.advance 0),
      .server (.advance 0), .server (.poll (some (true, false))), .server (.advance 0),
      .server (.recv [0, 1]), .server (.advance 0), .server (.advance 0), .server (.advance 0),
      .server (.poll (some (false, true))), .server (.advance 0), .server (.advance 0),
      .server (.send 2)]
    (fun result => bytesOut Server.outgoing (serverTrace result.1) == [0, 1] &&
      bytesIn (serverTrace result.1) == [0, 1])
    (by decide)
  exact ⟨trace, pair, run, by simpa using reached,
    tcp_echoes (Pair.run_server run) (Pair.withinWindow run)⟩

/-- Two bytes of one request that arrive in two iterations: the second is stored over the
first and is what the server sends. -/
theorem tcp_echo_overwrites : ∃ trace pair,
    Run (Pair.machine .tcp Config.twoBytes.arguments)
      (Pair.initial .tcp (Setup.ascending Config.twoBytes 2)) trace pair ∧
    WithinWindow Config.twoBytes (serverTrace trace) ∧
    bytesIn (serverTrace trace) = [0, 1] ∧ bytesOut Server.outgoing (serverTrace trace) = [1] ∧
    ¬bytesOut Server.outgoing (serverTrace trace) <+: bytesIn (serverTrace trace) := by
  obtain ⟨trace, pair, run, reached⟩ := exists_run_of_execute
    (Pair.machine .tcp Config.twoBytes.arguments)
    (Pair.initial .tcp (Setup.ascending Config.twoBytes 2))
    [.client (.advance 0), .client (.poll (some (false, true))), .client (.advance 0),
      .client (.advance 0), .client (.advance 0), .client (.send 2), .client (.advance 0),
      .server (.advance 0), .server (.poll (some (true, false))), .server (.advance 0),
      .server (.recv [0]), .server .stop, .server (.advance 0), .server (.advance 0),
      .server (.advance 0), .server (.poll (some (true, false))), .server (.advance 0),
      .server (.recv [1]), .server .stop, .server (.advance 0), .server (.advance 0),
      .server (.advance 0), .server (.poll (some (false, true))), .server (.advance 0),
      .server (.advance 0), .server (.send 1)]
    (fun result => bytesIn (serverTrace result.1) == [0, 1] &&
      bytesOut Server.outgoing (serverTrace result.1) == [1])
    (by decide)
  obtain ⟨input, output⟩ : bytesIn (serverTrace trace) = [0, 1] ∧
      bytesOut Server.outgoing (serverTrace trace) = [1] := by
    simpa using reached
  refine ⟨trace, pair, run, Pair.withinWindow run, input, output, ?_⟩
  rw [input, output]
  decide

end IpcBench
