import IpcBench.Alone
import IpcBench.TcpWindow

/-!
The tcp pair never gets stuck. Helpers that do not block return at once when they can
move no bytes, so what a process can do next is decided by its counters after the call
in progress has been counted, and by what its next poll reports.
-/

namespace IpcBench

open Words Transition

variable {Byte : Type} {config : Config}

namespace Client

def settled (args : Arguments) (client : Client Byte) : Client Byte :=
  match client.pc with
  | .reading _ transfer => client.accountRead 0 (transfer.metaData args.reqSize)
  | .readDone _ info => client.accountRead 0 info
  | .writing transfer => client.accountWrite (transfer.metaData args.reqSize)
  | .writeDone info => client.accountWrite info
  | _ => client

variable {received sent : Nat} {client : Client Byte}

theorem Balanced.settled (balanced : Balanced config received sent client) :
    Balanced config received sent ((client.settled config.arguments).goto .loop) := by
  unfold Client.settled
  split
  · rename_i canWrite transfer pc
    have stopped := balanced.step (Step.recvStop canWrite transfer pc)
    exact (stopped.accountRead rfl 0).goto .loop rfl rfl (by simp [ClientPc.beforeRead]) trivial
  · rename_i canWrite info pc
    exact (balanced.accountRead pc 0).goto .loop rfl rfl (by simp [ClientPc.beforeRead]) trivial
  · rename_i transfer pc
    have stopped := balanced.step (Step.sendStop transfer pc)
    exact stopped.accountWrite rfl
  · rename_i info pc
    exact balanced.accountWrite pc
  · rename_i reading readDone writing writeDone
    refine balanced.goto .loop ?_ ?_ (by simp [ClientPc.beforeRead]) trivial
    · cases pc : client.pc <;> simp_all [ClientPc.fetched]
    · cases pc : client.pc <;> simp_all [ClientPc.pushed]

end Client

namespace Pair

/-- No process leaves its loop before its total is reached. -/
structure Calm (config : Config) (pair : Pair Byte) : Prop where
  client : pair.client.quit = false
  server : pair.server.quit = false
  ended : pair.client.pc = .exit → config.total ≤ pair.client.totalBytesRead
  finished : pair.server.pc = .exit → config.total ≤ pair.server.totalBytesWritten

variable [DecidableEq Byte] {setup : Setup Byte config}
  {trace : List (Pair Byte × PairAction Byte)} {pair next : Pair Byte}

theorem Calm.step (calm : Calm config pair) (linked : Linked config .tcp trace pair)
    {action : PairAction Byte} (undisturbed : action.undisturbed = true)
    (taken : pair.step .tcp config.arguments action = some next) : Calm config next := by
  cases action with
  | client action =>
      obtain ⟨_, stepped, kept⟩ := step_client taken
      have own := Client.step_inv stepped
      have before := linked.client
      have after := before.step own
      refine ⟨(own.quit_eq undisturbed).trans calm.client, kept ▸ calm.server, ?_,
        kept ▸ calm.finished⟩
      intro exit
      have read := before.read
      have laterRead := after.read
      rw [exit] at laterRead
      simp only [ClientPc.fetched] at laterRead
      rcases own.exit_inv before exit with already | reached | quit | failed
      · have total := calm.ended already
        omega
      · omega
      · rw [calm.client] at quit
        cases quit
      · rw [failed] at undisturbed
        cases undisturbed
  | server action =>
      obtain ⟨_, stepped, kept⟩ := step_server taken
      have own := Server.step_inv stepped
      refine ⟨kept ▸ calm.client, (own.quit_eq undisturbed).trans calm.server, kept ▸ calm.ended, ?_⟩
      intro exit
      obtain ⟨reached, same⟩ := own.exit_inv undisturbed calm.server exit
      rw [same]
      rcases reached with already | now
      · exact calm.finished already
      · simpa using now

theorem Calm.run
    (run : Run ((machine .tcp config.arguments).restrict fun _ action => action.undisturbed)
      (Pair.initial .tcp setup) trace pair) : Calm config pair := by
  refine run.invariant (fun _ pair => Calm config pair)
    ⟨rfl, rfl, by simp [Pair.initial, Client.initial], by simp [Pair.initial, Server.initial]⟩ ?_
  intro trace pair action next before calm taken
  obtain ⟨undisturbed, taken⟩ := restrict_step.mp taken
  exact calm.step (Linked.run before.of_restrict) undisturbed taken

omit [DecidableEq Byte] in
theorem Linked.pollsWrite (linked : Linked config .tcp trace pair)
    (holds : 0 < pair.server.outstandingBytes) : pair.server.pollsWrite = true := by
  have balance := linked.server.balance
  have nonneg := linked.server.writtenNonneg
  exact linked.server.registered (by omega)

def clientHasMove (config : Config) (received sent : Nat) (pair : Pair Byte) : Prop :=
  received < config.total ∧ (pair.responses.content ≠ [] ∧ received < sent ∨
    pair.requests.content = [] ∧ sent < received + config.window)

def serverHasMove (config : Config) (received sent : Nat) (pair : Pair Byte) : Prop :=
  sent < config.total ∧ (pair.requests.content ≠ [] ∨
    pair.responses.content = [] ∧ sent < received)

omit [DecidableEq Byte] in
theorem Linked.hasMove (linked : Linked config .tcp trace pair)
    (more : bytesReceived (clientTrace trace) < config.total) :
    pair.clientHasMove config (bytesReceived (clientTrace trace)) (bytesSent (clientTrace trace)) ∨
      pair.serverHasMove config (bytesReceived (serverTrace trace))
        (bytesSent (serverTrace trace)) := by
  have underway := linked.underway
  have windowPos := config.window_pos
  have ordered := linked.server.sent_le
  by_cases responses : pair.responses.content = []
  · have empty := List.length_eq_zero_iff.mpr responses
    by_cases requests : pair.requests.content = []
    · have none := List.length_eq_zero_iff.mpr requests
      by_cases room : bytesSent (clientTrace trace) <
          bytesReceived (clientTrace trace) + config.window
      · exact Or.inl ⟨more, Or.inr ⟨requests, room⟩⟩
      · -- The whole window is in the hands of the server.
        exact Or.inr ⟨by omega, Or.inr ⟨responses, by omega⟩⟩
    · exact Or.inr ⟨by omega, Or.inl requests⟩
  · have some := List.length_pos_iff.mpr responses
    exact Or.inl ⟨more, Or.inl ⟨responses, by omega⟩⟩

theorem Linked.clientMoves (linked : Linked config .tcp trace pair) (calm : Calm config pair)
    (room : 0 < pair.requests.capacity)
    (has : pair.clientHasMove config (bytesReceived (clientTrace trace))
      (bytesSent (clientTrace trace))) :
    MovesByte (machine .tcp config.arguments) true .client pair := by
  obtain ⟨more, has⟩ := has
  have read := linked.client.read
  have idled : ClientIdled true config (bytesReceived (clientTrace trace))
      (bytesSent (clientTrace trace)) pair pair := by
    refine ⟨rfl, linked.client, Or.inl, ?_⟩
    intro exit
    have total := calm.ended exit
    omega
  obtain ⟨rest, later, run, idled, waits | moves⟩ := client_settles idled room
  · have requests : later.requests = pair.requests := by rw [idled.same]
    have responses : later.responses = pair.responses := by rw [idled.same]
    have balance := idled.balanced.balance
    unfold clientWaits at waits
    split at waits
    · cases waits.2.2
    · cases waits.2.2
    · rename_i pc
      simp only [pc, ClientPc.pushed, ClientPc.fetched] at balance
      obtain ⟨noInput, noRoom, _⟩ := waits
      rw [responses] at noInput
      rw [requests] at noRoom
      rcases has with ⟨some, ahead⟩ | ⟨empty, behind⟩
      · exact absurd ⟨some, by omega⟩ noInput
      · exact absurd ⟨empty, by omega⟩ noRoom
    · rename_i pc
      rcases idled.ended pc with quit | total
      · rcases idled.quits quit with quit | blocks
        · rw [calm.client] at quit
          cases quit
        · cases blocks
      · omega
    · exact waits.elim
  · exact moves.before run

theorem Linked.serverMoves (linked : Linked config .tcp trace pair) (calm : Calm config pair)
    (room : 0 < pair.responses.capacity)
    (has : pair.serverHasMove config (bytesReceived (serverTrace trace))
      (bytesSent (serverTrace trace))) :
    MovesByte (machine .tcp config.arguments) true .server pair := by
  obtain ⟨more, has⟩ := has
  have written := linked.server.written
  have idled : ServerIdled config .tcp (bytesReceived (serverTrace trace))
      (bytesSent (serverTrace trace)) pair pair := by
    refine ⟨rfl, linked.server, id, ?_⟩
    intro exit
    have total := calm.finished exit
    omega
  obtain ⟨rest, later, run, idled, waits | moves⟩ := server_settles true idled room
  · have requests : later.requests = pair.requests := by rw [idled.same]
    have responses : later.responses = pair.responses := by rw [idled.same]
    have holding := idled.balanced.holding
    have read := idled.balanced.read
    unfold serverWaits at waits
    split at waits
    · cases waits.2
    · cases waits.2
    · rename_i pc
      simp only [pc, ServerPc.pushed, ServerPc.fetched] at holding read
      obtain ⟨noInput, noOutput, _⟩ := waits
      rw [requests] at noInput
      rw [responses] at noOutput
      rcases has with some | ⟨empty, holds⟩
      · exact absurd noInput some
      · exact absurd ⟨idled.balanced.registered (by omega), empty, by omega⟩ noOutput
    · rename_i pc
      rcases idled.ended pc with quit | total
      · have quitting := idled.quits quit
        rw [calm.server] at quitting
        cases quitting
      · omega
    · exact waits.elim
  · exact moves.before run

end Pair

/-- In every reachable state of an undisturbed tcp pair, over channels of any capacity: as
long as the client has not read all bytes, one of the two comes by itself to a transfer that
moves a byte; and a server that holds bytes polls its write side. -/
theorem tcp_never_stuck [DecidableEq Byte] {setup : Setup Byte config}
    {trace : List (Pair Byte × PairAction Byte)} {pair : Pair Byte}
    (requestRoom : 0 < setup.requestCapacity) (responseRoom : 0 < setup.responseCapacity)
    (run : Run ((Pair.machine .tcp config.arguments).restrict fun _ action => action.undisturbed)
      (Pair.initial .tcp setup) trace pair) :
    (sizeT (pair.client.settled config.arguments).totalBytesRead < config.arguments.maxBytes →
        ∃ peer, Pair.MovesByte
          ((Pair.machine .tcp config.arguments).restrict fun _ action => action.undisturbed)
          true peer pair) ∧
      (0 < pair.server.outstandingBytes → pair.server.pollsWrite = true) := by
  have linked := Pair.Linked.run run.of_restrict
  have calm := Pair.Calm.run run
  have capacities := Pair.capacities run.of_restrict
  refine ⟨?_, linked.pollsWrite⟩
  intro more
  have unread : bytesReceived (clientTrace trace) < config.total := by
    have read := linked.client.settled.read
    have bound := linked.client.bound
    have totalBound := config.total_lt
    have windowBound := config.window_lt
    simp only [Client.goto, ClientPc.fetched] at read
    rw [Config.maxBytes_eq, sizeT_eq (by omega) (by omega)] at more
    omega
  rcases linked.hasMove unread with has | has
  · exact ⟨.client, (linked.clientMoves calm (by omega) has).restrict
      fun _ _ => Pair.undisturbed_of_alone⟩
  · exact ⟨.server, (linked.serverMoves calm (by omega) has).restrict
      fun _ _ => Pair.undisturbed_of_alone⟩

/-- Channels of one byte: the server holds the first byte of a request, both would block. -/
theorem tcp_never_stuck_split : ∃ trace pair,
    Run ((Pair.machine .tcp Config.twoBytes.arguments).restrict fun _ action =>
        action.undisturbed)
      (Pair.initial .tcp (Setup.uniform Config.twoBytes (0 : Nat) 1)) trace pair ∧
    (pair.server.outstandingBytes = 1 ∧
      sizeT (pair.client.settled Config.twoBytes.arguments).totalBytesRead <
        Config.twoBytes.arguments.maxBytes) ∧
    (∃ peer, Pair.MovesByte
      ((Pair.machine .tcp Config.twoBytes.arguments).restrict fun _ action => action.undisturbed)
      true peer pair) ∧ pair.server.pollsWrite = true := by
  obtain ⟨trace, pair, run, reached⟩ := exists_run_of_execute
    ((Pair.machine .tcp Config.twoBytes.arguments).restrict fun _ action => action.undisturbed)
    (Pair.initial .tcp (Setup.uniform Config.twoBytes (0 : Nat) 1))
    [.client (.advance 0), .client (.poll (some (false, true))), .client (.advance 0),
      .client (.advance 0), .client (.advance 0), .client (.send 1), .client .stop,
      .client (.advance 0), .server (.advance 0), .server (.poll (some (true, true))),
      .server (.advance 0), .server (.recv [0]), .server .stop, .server (.advance 0)]
    (fun result => result.2.server.outstandingBytes == 1 &&
      decide (sizeT (result.2.client.settled Config.twoBytes.arguments).totalBytesRead <
        Config.twoBytes.arguments.maxBytes))
    (by decide)
  obtain ⟨holds, more⟩ : pair.server.outstandingBytes = 1 ∧
      sizeT (pair.client.settled Config.twoBytes.arguments).totalBytesRead <
        Config.twoBytes.arguments.maxBytes := by
    simpa using reached
  obtain ⟨moves, polls⟩ := tcp_never_stuck (by decide) (by decide) run
  exact ⟨trace, pair, run, ⟨holds, more⟩, moves more, polls (by omega)⟩

end IpcBench
