import IpcBench.BlockingWindows

/-!
On a blocking transport the client and the server never wait for each other, and what
the two have moved when both have left is the same.
-/

namespace IpcBench

open Words Transition

variable {Byte : Type} {config : Config} {transport : Transport}

namespace Pair

variable {trace : List (Pair Byte × PairAction Byte)} {pair : Pair Byte}

theorem InWindows.gaps (windows : InWindows config transport trace pair) :
    pair.server.totalBytesWritten + pair.server.pc.pushed =
        pair.client.totalBytesRead + pair.client.pc.fetched + pair.responses.content.length ∧
      pair.client.totalBytesRead + pair.client.outstandingBytes + pair.client.pc.pushed =
        pair.server.totalBytesWritten + pair.server.outstandingBytes + pair.server.pc.fetched +
          pair.requests.content.length ∧
      (pair.client.totalBytesRead = pair.server.totalBytesWritten ∨
        pair.client.totalBytesRead + config.window ≤ pair.server.totalBytesWritten ∨
        pair.server.totalBytesWritten + config.window ≤ pair.client.totalBytesRead) := by
  have ahead := windows.clientAhead
  have underway := windows.linked.underway
  have clientRead := windows.linked.client.read
  have serverRead := windows.linked.server.read
  have serverWritten := windows.linked.server.written
  have serverBalance := windows.linked.server.balance
  refine ⟨by omega, by omega, ?_⟩
  rcases Int.lt_trichotomy pair.client.totalBytesRead pair.server.totalBytesWritten with
    below | same | above
  · exact Or.inr (Or.inl (add_le_of_dvd windows.client.read windows.server.written below))
  · exact Or.inl same
  · exact Or.inr (Or.inr (add_le_of_dvd windows.server.written windows.client.read above))

theorem InWindows.waitingClient (windows : InWindows config transport trace pair)
    (room : 0 < pair.requests.capacity) (stays : pair.left = false)
    (waits : pair.clientWaits false config) :
    (pair.responses.content.length = 0 ∧ pair.client.outstandingBytes = config.window ∧
        pair.client.pc.fetched < config.window ∧ pair.client.pc.pushed = 0) ∨
      (0 < pair.requests.content.length ∧ pair.client.outstandingBytes = 0 ∧
        pair.client.pc.fetched = 0 ∧ pair.client.pc.pushed < config.window) ∨
      (pair.client.pc.fetched = 0 ∧ pair.client.pc.pushed = 0 ∧
        (pair.responses.content.length = 0 ∨ pair.client.outstandingBytes = 0) ∧
        (0 < pair.requests.content.length ∨ config.window ≤ pair.client.outstandingBytes)) ∨
      (pair.client.pc.fetched = 0 ∧ pair.client.pc.pushed = 0 ∧
        config.total ≤ pair.client.totalBytesRead) := by
  have helper := windows.linked.client.helper
  have outstanding := windows.client.outstanding (by simp [stays])
  unfold clientWaits at waits
  split at waits
  · rename_i canWrite transfer pc
    simp only [pc, ClientPc.HelperOk] at helper
    refine Or.inl ⟨List.length_eq_zero_iff.mpr waits.1, by omega, ?_, by rw [pc]; rfl⟩
    simp only [pc, ClientPc.fetched]
    omega
  · rename_i transfer pc
    simp only [pc, ClientPc.HelperOk] at helper
    refine Or.inr (Or.inl ⟨by omega, by omega, by rw [pc]; rfl, ?_⟩)
    simp only [pc, ClientPc.pushed]
    omega
  · rename_i pc
    refine Or.inr (Or.inr (Or.inl ⟨by simp [pc, ClientPc.fetched], by simp [pc, ClientPc.pushed],
      ?_, ?_⟩))
    · by_cases none : pair.responses.content = []
      · exact Or.inl (List.length_eq_zero_iff.mpr none)
      · have := waits.1
        simp only [ne_eq, none, not_false_eq_true, true_and] at this
        omega
    · by_cases none : pair.requests.content = []
      · have := waits.2
        simp only [none, true_and] at this
        omega
      · exact Or.inl (List.length_pos_iff.mpr none)
  · rename_i pc
    refine Or.inr (Or.inr (Or.inr ⟨by simp [pc, ClientPc.fetched], by simp [pc, ClientPc.pushed],
      ?_⟩))
    rcases windows.ended pc with reached | interrupted
    · exact reached
    · have := windows.interrupted interrupted
      simp [stays] at this
  · exact waits.elim

theorem InWindows.waitingServer (windows : InWindows config transport trace pair)
    (room : 0 < pair.responses.capacity) (stays : pair.left = false)
    (waits : pair.serverWaits false) :
    pair.server.totalBytesWritten < config.total ∧
      ((pair.requests.content.length = 0 ∧ pair.server.outstandingBytes = 0 ∧
          pair.server.pc.fetched < config.window ∧ pair.server.pc.pushed = 0) ∨
        (0 < pair.responses.content.length ∧ pair.server.outstandingBytes = config.window ∧
          pair.server.pc.fetched = 0 ∧ pair.server.pc.pushed < config.window) ∨
        (pair.requests.content.length = 0 ∧ pair.server.pc.fetched = 0 ∧
          pair.server.pc.pushed = 0 ∧
          (pair.server.outstandingBytes = 0 ∨ 0 < pair.responses.content.length))) := by
  have helper := windows.linked.server.helper
  have outstanding := windows.server.outstanding
  have running := windows.linked.server.running
  unfold serverWaits at waits
  split at waits
  · rename_i canWrite transfer pc
    have empty := windows.server.reading canWrite transfer pc
    simp only [pc, ServerPc.HelperOk, ServerPc.inBody, forall_const] at helper running
    refine ⟨running, Or.inl ⟨List.length_eq_zero_iff.mpr waits.1, empty, ?_, by rw [pc]; rfl⟩⟩
    simp only [pc, ServerPc.fetched]
    omega
  · rename_i transfer pc
    simp only [pc, ServerPc.HelperOk, ServerPc.inBody, forall_const] at helper running
    refine ⟨running, Or.inr (Or.inl ⟨by omega, by omega, by rw [pc]; rfl, ?_⟩)⟩
    simp only [pc, ServerPc.pushed]
    omega
  · rename_i pc
    simp only [pc, ServerPc.inBody, forall_const] at running
    refine ⟨running, Or.inr (Or.inr ?_)⟩
    simp only [pc, ServerPc.fetched, ServerPc.pushed, waits.1, List.length_nil, true_and]
    by_cases none : pair.responses.content = []
    · have registered := windows.linked.server.registered
      have written := windows.linked.server.written
      have balance := windows.linked.server.balance
      simp only [pc, ServerPc.pushed] at written
      by_cases polls : pair.server.pollsWrite = true
      · have := waits.2
        simp only [polls, none, true_and] at this
        omega
      · have : ¬0 < pair.server.totalBytesRead := fun some => polls (registered some)
        omega
    · exact Or.inr (List.length_pos_iff.mpr none)
  · rename_i pc
    simp [Pair.left, pc] at stays
  · exact waits.elim

theorem InWindows.clientMoves (windows : InWindows config transport trace pair)
    (leaves : pair.left = true) (running : pair.client.pc ≠ .exit) : ¬pair.clientWaits false config := by
  intro waits
  unfold clientWaits at waits
  split at waits
  · simp [leaves] at waits
  · simp [leaves] at waits
  · rename_i pc
    have read := windows.linked.client.running
    have windowPos := config.window_pos
    have covered := config.total_le_covered
    obtain ⟨written, empty, _, _⟩ := windows.left_eq leaves
    obtain ⟨responses, requests, _⟩ := windows.gaps
    have exit : pair.server.pc = .exit := by simpa [Pair.left] using leaves
    simp only [pc, exit, ClientPc.beforeRead, ClientPc.fetched, ClientPc.pushed,
      ServerPc.fetched, ServerPc.pushed, forall_const] at read responses requests
    have some : pair.responses.content ≠ [] := List.length_pos_iff.mp (by omega)
    have := waits.1
    simp only [ne_eq, some, not_false_eq_true, true_and] at this
    omega
  · rename_i pc
    exact running pc
  · exact waits

theorem InWindows.moves (windows : InWindows config transport trace pair)
    (requestRoom : 0 < pair.requests.capacity) (responseRoom : 0 < pair.responses.capacity)
    (running : ¬(pair.client.pc = .exit ∧ pair.server.pc = .exit)) :
    ¬(pair.clientWaits false config ∧ pair.serverWaits false) := by
  rintro ⟨clientWaits, serverWaits⟩
  cases leaves : pair.left with
  | true =>
      have exit : pair.server.pc = .exit := by simpa [Pair.left] using leaves
      exact windows.clientMoves leaves (fun pc => running ⟨pc, exit⟩) clientWaits
  | false =>
      have windowPos := config.window_pos
      obtain ⟨responses, requests, totals⟩ := windows.gaps
      obtain ⟨more, server⟩ := windows.waitingServer responseRoom leaves serverWaits
      rcases windows.waitingClient requestRoom leaves clientWaits with
        reading | writing | polling | ended
      · rcases server with waits | waits | waits <;> omega
      · rcases server with waits | waits | waits <;> omega
      · rcases server with waits | waits | waits <;> omega
      · rcases server with waits | waits | waits <;> omega

/-- A process that goes on alone never does what blocking transfers exclude. -/
theorem blocking_of_alone {peer : Peer} {action : PairAction Byte}
    (allowed : pair.alone false peer action = true) : pair.blocking action = true := by
  simp only [alone, Bool.and_eq_true] at allowed
  have prompt := allowed.2
  cases action with
  | client action =>
      cases action with
      | poll ready =>
          cases ready with
          | none => cases prompt
          | some ready => exact truthful_of_exact prompt
      | stop =>
          simp only [Pair.prompt] at prompt
          split at prompt <;> simp_all [blocking, atEnd]
      | broken => exact prompt
      | signal => cases prompt
      | advance time | recv data | send amount => rfl
  | server action =>
      cases action with
      | poll ready =>
          cases ready with
          | none => cases prompt
          | some ready => exact truthful_of_exact prompt
      | stop =>
          simp only [Pair.prompt] at prompt
          split at prompt <;> cases prompt
      | broken => cases prompt
      | signal => cases prompt
      | advance time | recv data | send amount => rfl

/-- A process that has not come to its exit goes on by itself: it comes to move a byte, or to
its exit. -/
def GoesOn [DecidableEq Byte] (config : Config) (transport : Transport) (peer : Peer)
    (pair : Pair Byte) : Prop :=
  pair.exited peer = false ∧
    (MovesByte ((machine transport config.arguments).restrict blocking) false peer pair ∨
      ComesToExit ((machine transport config.arguments).restrict blocking) false peer pair)

section GoesOn

variable [DecidableEq Byte]

theorem InWindows.clientStops (windows : InWindows config transport trace pair)
    (room : 0 < pair.requests.capacity) (stops : ¬GoesOn config transport .client pair) :
    ∃ more later, Run (((machine transport config.arguments).restrict blocking).restrict
        (alone false .client)) pair more later ∧
      later = { pair with client := later.client } ∧ later.clientWaits false config ∧
      (later.client.pc = .exit → pair.client.pc = .exit) := by
  by_cases gone : pair.client.pc = .exit
  · exact ⟨[], pair, Run.start, rfl, by simp [clientWaits, gone], fun _ => gone⟩
  have stays : pair.exited .client = false := by simpa [exited] using gone
  obtain ⟨more, later, run, idled, waits | moves⟩ :=
    client_settles ⟨rfl, windows.linked.client, Or.inl, fun exit => absurd exit gone⟩ room
  · have allowed := run.restrict_restrict fun _ _ => blocking_of_alone
    refine ⟨more, later, allowed, idled.same, waits, ?_⟩
    intro exit
    exact absurd ⟨stays, Or.inr ⟨more, later, allowed, by simp [exited, exit]⟩⟩ stops
  · exact absurd ⟨stays, Or.inl ((moves.before run).restrict fun _ _ => blocking_of_alone)⟩ stops

theorem InWindows.serverStops (windows : InWindows config transport trace pair)
    (room : 0 < pair.responses.capacity) (stops : ¬GoesOn config transport .server pair)
    (client : Client Byte) :
    ∃ more later, Run (((machine transport config.arguments).restrict blocking).restrict
        (alone false .server)) { pair with client := client } more later ∧
      later = { pair with client := client, server := later.server } ∧ later.serverWaits false ∧
      (later.server.pc = .exit ↔ pair.server.pc = .exit) := by
  by_cases gone : pair.server.pc = .exit
  · exact ⟨[], _, Run.start, rfl, by simp [serverWaits, gone], Iff.rfl⟩
  have stays : pair.exited .server = false := by simpa [exited] using gone
  obtain ⟨more, later, run, idled, waits | moves⟩ := server_settles false
    ⟨rfl, windows.linked.server, id, fun exit => absurd exit gone⟩ room
  · obtain ⟨same, beside, _⟩ := server_alone_with config.arguments client run
    refine ⟨same, { later with client := client },
      beside.restrict_restrict fun _ _ => blocking_of_alone, by rw [idled.same], waits, ?_⟩
    refine iff_of_false ?_ gone
    intro exit
    exact absurd ⟨stays, Or.inr ⟨more, later, run.restrict_restrict fun _ _ => blocking_of_alone,
      decide_eq_true exit⟩⟩ stops
  · exact absurd ⟨stays, Or.inl ((moves.before run).restrict fun _ _ => blocking_of_alone)⟩ stops

/-- If neither went on by itself, both would wait for each other. -/
theorem InWindows.goesOn {setup : Setup Byte config}
    (run : Run ((machine transport config.arguments).restrict blocking)
      (Pair.initial transport setup) trace pair)
    (requestRoom : 0 < pair.requests.capacity) (responseRoom : 0 < pair.responses.capacity)
    (running : ¬(pair.client.pc = .exit ∧ pair.server.pc = .exit)) :
    ∃ peer, GoesOn config transport peer pair := by
  refine Classical.byContradiction fun nobody => ?_
  rw [not_exists] at nobody
  have windows := InWindows.run run
  obtain ⟨more, idle, clientRun, same, clientWaits, clientExit⟩ :=
    windows.clientStops requestRoom (nobody .client)
  obtain ⟨rest, last, serverRun, same', serverWaits, serverExit⟩ :=
    windows.serverStops responseRoom (nobody .server) idle.client
  rw [← same] at serverRun
  have later := InWindows.run ((run.append clientRun.of_restrict).append serverRun.of_restrict)
  have client : last.client = idle.client := by rw [same']
  have requests : last.requests = pair.requests := by rw [same']
  have responses : last.responses = pair.responses := by rw [same']
  have left : last.left = idle.left := by
    rw [Pair.left, Pair.left, same]
    exact decide_eq_decide.mpr serverExit
  refine later.moves (by rw [requests]; exact requestRoom) (by rw [responses]; exact responseRoom)
    ?_ ⟨?_, serverWaits⟩
  · rintro ⟨gone, ended⟩
    rw [client] at gone
    exact running ⟨clientExit gone, serverExit.mp ended⟩
  · have idleRequests : idle.requests = pair.requests := by rw [same]
    have idleResponses : idle.responses = pair.responses := by rw [same]
    unfold Pair.clientWaits at clientWaits ⊢
    rw [client, requests, responses, left, ← idleRequests, ← idleResponses]
    exact clientWaits

end GoesOn

structure Windowed [DecidableEq Byte] (config : Config) (transport : Transport)
    (trace : List (Pair Byte × PairAction Byte)) (pair : Pair Byte) : Prop where
  clientOutstanding : pair.server.pc ≠ .exit →
    pair.client.outstandingBytes = 0 ∨ pair.client.outstandingBytes = config.window
  serverOutstanding : pair.server.outstandingBytes = 0 ∨
    pair.server.outstandingBytes = config.window
  clientRead : ∀ canWrite info, pair.client.pc = .readDone canWrite info →
    info.totalBytes = 0 ∨ info.totalBytes = config.window
  clientWrote : ∀ info, pair.client.pc = .writeDone info → info.totalBytes = config.window ∨
    (pair.server.pc = .exit ∧ pair.client.totalBytesRead = config.covered)
  serverRead : ∀ canWrite info, pair.server.pc = .readDone canWrite info →
    info.totalBytes = config.window
  serverWrote : ∀ info, pair.server.pc = .writeDone info →
    info.totalBytes = 0 ∨ info.totalBytes = config.window
  echoes : bytesOut Server.outgoing (serverTrace trace) <+: bytesIn (serverTrace trace)
  moving : ¬(pair.client.pc = .exit ∧ pair.server.pc = .exit) →
    ∃ peer, pair.GoesOn config transport peer
  ended : pair.client.pc = .exit → pair.server.pc = .exit →
    bytesReceived (serverTrace trace) = config.covered ∧
      bytesSent (serverTrace trace) = config.covered ∧
      (¬Interrupted trace → bytesReceived (clientTrace trace) = config.covered)

theorem InWindows.clientTotal (windows : InWindows config transport trace pair)
    (reached : config.total ≤ pair.client.totalBytesRead) :
    pair.client.totalBytesRead = config.covered := by
  have read := windows.linked.client.read
  have bound := windows.linked.client.bound
  exact Config.eq_covered windows.client.read reached (by omega)

theorem InWindows.windowed [DecidableEq Byte] (windows : InWindows config transport trace pair)
    (moving : ¬(pair.client.pc = .exit ∧ pair.server.pc = .exit) →
      ∃ peer, pair.GoesOn config transport peer) : Windowed config transport trace pair where
  clientOutstanding := fun stays => windows.client.outstanding (by simp [Pair.left, stays])
  serverOutstanding := windows.server.outstanding
  clientRead := by
    intro canWrite info pc
    have running := windows.linked.client.running (by simp [pc, ClientPc.beforeRead])
    have outstanding := windows.client.outstanding (fun _ => running)
    have all := windows.client.readAll canWrite info pc
    omega
  clientWrote := by
    intro info pc
    by_cases unfinished : pair.left = true → pair.client.totalBytesRead < config.total
    · exact Or.inl (windows.client.wroteAll unfinished info pc).2
    · rw [Classical.not_imp] at unfinished
      obtain ⟨leaves, reached⟩ := unfinished
      exact Or.inr ⟨by simpa [Pair.left] using leaves, windows.clientTotal (by omega)⟩
  serverRead := fun canWrite info pc => (windows.server.readAll canWrite info pc).2
  serverWrote := by
    intro info pc
    have all := windows.server.wroteAll info pc
    have outstanding := windows.server.outstanding
    omega
  echoes := windows.holds.echoes windows.linked.server
  moving := moving
  ended := by
    intro clientExit serverExit
    obtain ⟨_, _, received, sent⟩ := windows.left_eq (by simp [Pair.left, serverExit])
    refine ⟨received, sent, ?_⟩
    intro calm
    have read := windows.linked.client.read
    simp only [clientExit, ClientPc.fetched] at read
    rcases windows.ended clientExit with reached | interrupted
    · have total := windows.clientTotal reached
      omega
    · exact absurd interrupted calm

end Pair

/-- On a transport whose transfers block, over channels of any capacity: both processes
move whole windows, the server echoes what it reads, one of the two goes on by itself, and in
the end both have moved the windows that cover all requests. -/
theorem blocking_windows [DecidableEq Byte] {setup : Setup Byte config}
    {trace : List (Pair Byte × PairAction Byte)} {pair : Pair Byte}
    (requestRoom : 0 < setup.requestCapacity) (responseRoom : 0 < setup.responseCapacity)
    (run : Run ((Pair.machine transport config.arguments).restrict Pair.blocking)
      (Pair.initial transport setup) trace pair) :
    pair.Windowed config transport trace := by
  have capacities := Pair.capacities run.of_restrict
  exact (Pair.InWindows.run run).windowed (Pair.InWindows.goesOn run (by omega) (by omega))

/-- One request in a window of two, over channels of one byte: both processes come to
their end, and the client's surplus window is refused. -/
theorem blocking_windows_halfWindow : ∃ trace pair,
    Run ((Pair.machine .fifo Config.halfWindow.arguments).restrict Pair.blocking)
      (Pair.initial .fifo (Setup.uniform Config.halfWindow (0 : Nat) 1)) trace pair ∧
    (pair.client.pc = .exit ∧ pair.server.pc = .exit ∧ pair.client.quit = true) ∧
    pair.Windowed Config.halfWindow .fifo trace := by
  obtain ⟨trace, pair, run, reached⟩ := exists_run_of_execute
    ((Pair.machine .fifo Config.halfWindow.arguments).restrict Pair.blocking)
    (Pair.initial .fifo (Setup.uniform Config.halfWindow 0 1))
    [.client (.advance 0), .client (.poll (some (false, true))), .client (.advance 0),
      .client (.advance 0), .client (.advance 0), .client (.send 1),
      .server (.advance 0), .server (.poll (some (true, true))), .server (.advance 0),
      .server (.recv [0]), .client (.send 1), .client (.advance 0), .server (.recv [0]),
      .server (.advance 0), .server (.advance 0), .server (.advance 0),
      .server (.poll (some (false, true))), .server (.advance 0), .server (.advance 0),
      .server (.send 1), .client (.advance 0), .client (.poll (some (true, true))),
      .client (.advance 0), .client (.recv [0]), .server (.send 1), .server (.advance 0),
      .server (.advance 0), .client (.recv [0]), .client (.advance 0), .client (.advance 0),
      .client (.advance 0), .client .broken, .client (.advance 0), .client (.advance 0)]
    (fun result => result.2.client.pc == .exit && result.2.server.pc == .exit &&
      result.2.client.quit)
    (by decide)
  exact ⟨trace, pair, run, by simpa [and_assoc] using reached,
    blocking_windows (by decide) (by decide) run⟩

end IpcBench
