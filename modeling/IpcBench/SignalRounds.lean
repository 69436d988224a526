import IpcBench.PipeRounds

/-!
The signal transport: a server and a client that only notify each other. Every notification
goes to the whole group, which includes the parent that started them.
-/

namespace IpcBench

open Transition Signals

structure SignalSetup where
  size : Int
  count : Nat
deriving DecidableEq, Repr

inductive Member
  | parent
  | child (peer : Peer)
deriving DecidableEq, Repr

abbrev GroupSignals := Member → SignalState UserSignal

def GroupSignals.send (signal : UserSignal) (signals : GroupSignals) : GroupSignals :=
  fun member => (signals member).deliver signal

def GroupSignals.await (peer : Peer) (flags : Nat) (signals : GroupSignals) :
    Option GroupSignals :=
  ((signals (.child peer)).take (signalMask flags)).map fun state =>
    Function.update signals (.child peer) state

inductive SignalClientPc
  | start
  | test
  | wait
  | notify
  | finished
deriving DecidableEq, Repr

structure SignalClient where
  pc : SignalClientPc
  count : Nat
  size : Int
deriving DecidableEq, Repr

inductive SignalServerPc
  | start
  | test
  | notify
  | wait
  | finished
deriving DecidableEq, Repr

structure SignalServer where
  pc : SignalServerPc
  message : Nat
deriving DecidableEq, Repr

/-- The loop tests `args->count` and counts down `args->size`. -/
def SignalClient.step (signals : GroupSignals) (client : SignalClient) :
    Option (GroupSignals × SignalClient) :=
  match client.pc with
  | .start => some (signals.send .usr1, { client with pc := .test })
  | .test =>
      if 0 < client.count then some (signals, { client with pc := .wait })
      else some (signals, { client with pc := .finished })
  | .wait =>
      (GroupSignals.await .client clientFlags signals).map fun signals =>
        (signals, { client with pc := .notify })
  | .notify => some (signals.send .usr1, { client with pc := .test, size := client.size - 1 })
  | .finished => none

def SignalServer.step (setup : SignalSetup) (signals : GroupSignals) (server : SignalServer) :
    Option (GroupSignals × SignalServer) :=
  match server.pc with
  | .start =>
      (GroupSignals.await .server serverFlags signals).map fun signals =>
        (signals, { server with pc := .test })
  | .test =>
      if server.message < setup.count then some (signals, { server with pc := .notify })
      else some (signals, { server with pc := .finished })
  | .notify => some (signals.send .usr2, { server with pc := .wait })
  | .wait =>
      (GroupSignals.await .server serverFlags signals).map fun signals =>
        (signals, { server with pc := .test, message := server.message + 1 })
  | .finished => none

abbrev SignalPair := Duo GroupSignals SignalClient SignalServer

def signalMachine (setup : SignalSetup) : Machine SignalPair Peer :=
  Duo.machine SignalClient.step (SignalServer.step setup)

namespace SignalPair

def initial (setup : SignalSetup) : SignalPair where
  shared := fun
    | .parent => afterSetup (setupSignals (ignoreUsr1 ||| ignoreUsr2))
    | .child .client => afterSetup setupClientSignals
    | .child .server => afterSetup setupServerSignals
  client := ⟨.start, setup.count, setup.size⟩
  server := ⟨.start, 0⟩

def Merges (pair : SignalPair) : Peer → Prop
  | .client => (pair.client.pc = .start ∨ pair.client.pc = .notify) ∧
      (pair.shared (.child .server)).pending .usr1 = true
  | .server => pair.server.pc = .notify ∧ (pair.shared (.child .client)).pending .usr2 = true

def clientRounds (trace : List (SignalPair × Peer)) : Nat :=
  trace.countP fun entry => entry.2 = .client && entry.1.client.pc = .notify

def serverRounds (trace : List (SignalPair × Peer)) : Nat :=
  trace.countP fun entry => entry.2 = .server && entry.1.server.pc = .wait

structure Completes (setup : SignalSetup) (trace : List (SignalPair × Peer))
    (pair : SignalPair) : Prop where
  separate : ∀ entry ∈ trace, ¬entry.1.Merges entry.2
  client : pair.client.pc = .finished → clientRounds trace = setup.count
  server : pair.server.pc = .finished → serverRounds trace = setup.count
  goes_on : ¬Stranded (pair.client.pc = .finished) (pair.client.step pair.shared = none)
    (pair.server.pc = .finished) (pair.server.step setup pair.shared = none)

def grouped (asked answered : Bool) : GroupSignals
  | .parent => {
      disposition := fun _ => .handler
      blocked := fun _ => false
      pending := fun _ => false
      terminated := false }
  | .child peer => masked asked answered peer

section Grouped

variable {asked answered : Bool}

theorem initial_grouped (setup : SignalSetup) :
    (initial setup).shared = grouped false false := by
  funext member
  rcases member with _ | _ | _ <;> apply signalState_ext <;>
    first | rfl | (intro signal; cases signal <;> rfl)

theorem grouped_usr1 : (grouped asked answered).send .usr1 = grouped asked true := by
  funext member
  rcases member with _ | _ | _ <;> apply signalState_ext <;>
    first | rfl | (intro signal; cases signal <;> rfl)

theorem grouped_usr2 : (grouped asked answered).send .usr2 = grouped true answered := by
  funext member
  rcases member with _ | _ | _ <;> apply signalState_ext <;>
    first | rfl | (intro signal; cases signal <;> rfl)

theorem grouped_client :
    GroupSignals.await .client clientFlags (grouped true answered) =
      some (grouped false answered) := by
  have taken : (grouped true answered (.child .client)).take (signalMask clientFlags) =
      some (masked false answered .client) := take_client
  rw [GroupSignals.await, taken, Option.map_some]
  congr 1
  funext member
  rcases member with _ | _ | _ <;> rfl

theorem grouped_client_none :
    GroupSignals.await .client clientFlags (grouped false answered) = none :=
  rfl

theorem grouped_server :
    GroupSignals.await .server serverFlags (grouped asked true) =
      some (grouped asked false) := by
  have taken : (grouped asked true (.child .server)).take (signalMask serverFlags) =
      some (masked asked false .server) := take_server
  rw [GroupSignals.await, taken, Option.map_some]
  congr 1
  funext member
  rcases member with _ | _ | _ <;> rfl

theorem grouped_server_none :
    GroupSignals.await .server serverFlags (grouped asked false) = none :=
  rfl

end Grouped

structure ClientRests (setup : SignalSetup) (round : Nat) (client : SignalClient) : Prop where
  pc : client.pc = .test ∨ client.pc = .wait
  count : client.count = setup.count
  size : client.size = setup.size - round

inductive Placed (setup : SignalSetup) : SignalPair → Prop
  | start (pair) (shared : pair.shared = grouped false false)
      (client : pair.client = ⟨.start, setup.count, setup.size⟩) (server : pair.server = ⟨.start, 0⟩) :
      Placed setup pair
  | notified (round pair) (shared : pair.shared = grouped false true)
      (client : ClientRests setup round pair.client) (within : round ≤ setup.count)
      (server : (round = 0 ∧ pair.server = ⟨.start, 0⟩) ∨
        ∃ message, round = message + 1 ∧ pair.server = ⟨.wait, message⟩) : Placed setup pair
  | idle (round pair) (shared : pair.shared = grouped false false)
      (client : ClientRests setup round pair.client) (within : round ≤ setup.count)
      (server : pair.server = ⟨.test, round⟩ ∨ (pair.server = ⟨.notify, round⟩ ∧ round < setup.count) ∨
        (pair.server = ⟨.finished, round⟩ ∧ round = setup.count)) : Placed setup pair
  | asked (round pair) (shared : pair.shared = grouped true false)
      (client : ClientRests setup round pair.client) (more : round < setup.count)
      (server : pair.server = ⟨.wait, round⟩) : Placed setup pair
  | answering (round pair) (shared : pair.shared = grouped false false)
      (client : pair.client = ⟨.notify, setup.count, setup.size - round⟩) (more : round < setup.count)
      (server : pair.server = ⟨.wait, round⟩) : Placed setup pair

variable {setup : SignalSetup} {round : Nat} {pair : SignalPair} {shared : GroupSignals}
  {client : SignalClient} {server : SignalServer} {trace : List (SignalPair × Peer)}

theorem ClientRests.step (counted : 0 < setup.count) (rests : ClientRests setup round pair.client)
    (quiet : GroupSignals.await .client clientFlags pair.shared = none)
    (taken : pair.client.step pair.shared = some (shared, client)) :
    shared = pair.shared ∧ pair.client.pc = .test ∧ client.pc = .wait ∧
      ClientRests setup round client := by
  rcases rests.pc with pc | pc
  · have more : 0 < pair.client.count := by rw [rests.count]; exact counted
    simp only [SignalClient.step, pc, if_pos more] at taken
    cases taken
    exact ⟨rfl, pc, rfl, Or.inr rfl, rests.count, rests.size⟩
  · simp [SignalClient.step, pc, quiet] at taken

def clientLeft (setup : SignalSetup) (client : SignalClient) : Nat :=
  let rounds := setup.count - (setup.size - client.size).toNat
  match client.pc with
  | .start => 3 * rounds + 2
  | .test => 3 * rounds + 1
  | .wait => 3 * rounds
  | .notify => 3 * rounds - 1
  | .finished => 0

def serverLeft (setup : SignalSetup) (server : SignalServer) : Nat :=
  let rounds := setup.count - server.message
  match server.pc with
  | .start => 3 * rounds + 2
  | .test => 3 * rounds + 1
  | .notify => 3 * rounds
  | .wait => 3 * rounds - 1
  | .finished => 0

theorem Placed.client_step (counted : 0 < setup.count) (placed : Placed setup pair)
    (taken : pair.client.step pair.shared = some (shared, client)) :
    Placed setup { pair with shared := shared, client := client } ∧
      clientLeft setup client < clientLeft setup pair.client := by
  have entered {round : Nat} (rests : ClientRests setup round client) (pc : client.pc = .wait)
      (old : ClientRests setup round pair.client) (oldPc : pair.client.pc = .test) :
      clientLeft setup client < clientLeft setup pair.client := by
    simp only [clientLeft, pc, oldPc, rests.size, old.size]
    omega
  cases placed with
  | start _ same first server =>
      rw [same, first] at taken
      simp only [SignalClient.step, grouped_usr1] at taken
      cases taken
      constructor
      · exact .notified 0 _ rfl ⟨Or.inl rfl, rfl, by simp⟩ (Nat.zero_le _) (Or.inl ⟨rfl, server⟩)
      · simp [clientLeft, first]
  | notified round _ same rests within server =>
      obtain ⟨rfl, oldPc, pc, kept⟩ := rests.step counted (by rw [same]; rfl) taken
      exact ⟨.notified round _ same kept within server, entered kept pc rests oldPc⟩
  | idle round _ same rests within server =>
      obtain ⟨rfl, oldPc, pc, kept⟩ := rests.step counted (by rw [same]; rfl) taken
      exact ⟨.idle round _ same kept within server, entered kept pc rests oldPc⟩
  | asked round _ same rests more server =>
      rcases rests.pc with pc | pc
      · have positive : 0 < pair.client.count := by rw [rests.count]; exact counted
        simp only [SignalClient.step, pc, if_pos positive] at taken
        cases taken
        have kept : ClientRests setup round { pair.client with pc := .wait } :=
          ⟨Or.inr rfl, rests.count, rests.size⟩
        exact ⟨.asked round _ same kept more server, entered kept rfl rests pc⟩
      · simp only [SignalClient.step, pc, same, grouped_client, Option.map_some] at taken
        cases taken
        constructor
        · exact .answering round _ rfl (by simp [rests.count, rests.size]) more server
        · simp only [clientLeft, pc, rests.size]
          omega
  | answering round _ same place more server =>
      rw [same, place] at taken
      simp only [SignalClient.step, grouped_usr1] at taken
      cases taken
      constructor
      · exact .notified (round + 1) _ rfl ⟨Or.inl rfl, rfl, by simp only; omega⟩ more
          (Or.inr ⟨round, rfl, server⟩)
      · simp only [clientLeft, place]
        omega

theorem Placed.server_step (placed : Placed setup pair)
    (taken : pair.server.step setup pair.shared = some (shared, server)) :
    Placed setup { pair with shared := shared, server := server } ∧
      serverLeft setup server < serverLeft setup pair.server := by
  cases placed with
  | start _ same client place =>
      simp [SignalServer.step, place, same, grouped_server_none] at taken
  | notified round _ same rests within place =>
      rcases place with ⟨rfl, place⟩ | ⟨message, rfl, place⟩
      · simp only [SignalServer.step, place, same, grouped_server, Option.map_some] at taken
        cases taken
        exact ⟨.idle 0 _ rfl rests within (Or.inl rfl), by simp [serverLeft, place]⟩
      · simp only [SignalServer.step, place, same, grouped_server, Option.map_some] at taken
        cases taken
        constructor
        · exact .idle (message + 1) _ rfl rests within (Or.inl rfl)
        · simp only [serverLeft, place]
          omega
  | idle round _ same rests within place =>
      rcases place with place | ⟨place, more⟩ | ⟨place, _⟩
      · simp only [SignalServer.step, place] at taken
        split at taken <;> cases taken
        · rename_i more
          exact ⟨.idle round _ same rests within (Or.inr (Or.inl ⟨rfl, more⟩)),
            by simp [serverLeft, place]⟩
        · exact ⟨.idle round _ same rests within (Or.inr (Or.inr ⟨rfl, by omega⟩)),
            by simp [serverLeft, place]⟩
      · simp only [SignalServer.step, place, same, grouped_usr2] at taken
        cases taken
        constructor
        · exact .asked round _ rfl rests more rfl
        · simp only [serverLeft, place]
          omega
      · simp [SignalServer.step, place] at taken
  | asked round _ same rests more place =>
      simp [SignalServer.step, place, same, grouped_server_none] at taken
  | answering round _ same client more place =>
      simp [SignalServer.step, place, same, grouped_server_none] at taken

theorem Placed.step (counted : 0 < setup.count) (placed : Placed setup pair) {peer : Peer}
    {next : SignalPair} (taken : (signalMachine setup).step pair peer = some next) :
    Placed setup next ∧ clientLeft setup next.client + serverLeft setup next.server <
      clientLeft setup pair.client + serverLeft setup pair.server := by
  cases peer with
  | client =>
      obtain ⟨shared, client, moved, rfl⟩ := Duo.step_client.mp taken
      obtain ⟨kept, lower⟩ := placed.client_step counted moved
      exact ⟨kept, Nat.add_lt_add_right lower _⟩
  | server =>
      obtain ⟨shared, server, moved, rfl⟩ := Duo.step_server.mp taken
      obtain ⟨kept, lower⟩ := placed.server_step moved
      exact ⟨kept, Nat.add_lt_add_left lower _⟩

theorem placed (counted : 0 < setup.count)
    (run : Run (signalMachine setup) (initial setup) trace pair) : Placed setup pair := by
  refine run.stateInvariant (Placed setup) (.start _ (initial_grouped setup) rfl rfl) ?_
  intro pair peer next placed taken
  exact (placed.step counted taken).1

theorem Placed.separate (placed : Placed setup pair) (peer : Peer) : ¬pair.Merges peer := by
  intro merges
  cases peer with
  | client =>
      obtain ⟨pc, pending⟩ := merges
      cases placed with
      | start _ same => simp [same, grouped, masked] at pending
      | notified _ _ same rests => rcases rests.pc with at' | at' <;> simp [at'] at pc
      | idle _ _ same => simp [same, grouped, masked] at pending
      | asked _ _ same => simp [same, grouped, masked] at pending
      | answering _ _ same => simp [same, grouped, masked] at pending
  | server =>
      obtain ⟨pc, pending⟩ := merges
      cases placed with
      | start _ same => simp [same, grouped, masked] at pending
      | notified _ _ same => simp [same, grouped, masked] at pending
      | idle _ _ same => simp [same, grouped, masked] at pending
      | asked _ _ same _ _ place => simp [place] at pc
      | answering _ _ same => simp [same, grouped, masked] at pending

structure Abandoned (setup : SignalSetup) (pair : SignalPair) : Prop where
  server : pair.server = ⟨.finished, setup.count⟩
  client : pair.client = ⟨.wait, setup.count, setup.size - setup.count⟩
  waits : pair.client.step pair.shared = none

theorem Placed.goes (counted : 0 < setup.count) (placed : Placed setup pair) :
    Abandoned setup pair ∨ ∃ peer next, (signalMachine setup).step pair peer = some next := by
  have client (moves : (pair.client.step pair.shared).isSome = true) :
      ∃ peer next, (signalMachine setup).step pair peer = some next := by
    obtain ⟨result, moves⟩ := Option.isSome_iff_exists.mp moves
    exact ⟨.client, _, Duo.step_client.mpr ⟨result.1, result.2, moves, rfl⟩⟩
  have server (moves : (pair.server.step setup pair.shared).isSome = true) :
      ∃ peer next, (signalMachine setup).step pair peer = some next := by
    obtain ⟨result, moves⟩ := Option.isSome_iff_exists.mp moves
    exact ⟨.server, _, Duo.step_server.mpr ⟨result.1, result.2, moves, rfl⟩⟩
  have tested {round : Nat} (rests : ClientRests setup round pair.client)
      (pc : pair.client.pc = .test) :
      ∃ peer next, (signalMachine setup).step pair peer = some next := by
    apply client
    simp [SignalClient.step, pc, rests.count, counted]
  cases placed with
  | start _ same place =>
      right
      apply client
      simp [SignalClient.step, place]
  | notified round _ same rests within place =>
      right
      apply server
      rcases place with ⟨_, place⟩ | ⟨message, _, place⟩ <;>
        simp [SignalServer.step, place, same, grouped_server]
  | idle round _ same rests within place =>
      rcases place with place | ⟨place, _⟩ | ⟨place, isOver⟩
      · right
        apply server
        by_cases more : round < setup.count <;> simp [SignalServer.step, place, more]
      · right
        apply server
        simp [SignalServer.step, place]
      · rcases rests.pc with pc | pc
        · exact Or.inr (tested rests pc)
        · left
          subst isOver
          constructor
          · exact place
          · rw [← rests.size, ← rests.count, ← pc]
          · simp [SignalClient.step, pc, same, grouped_client_none]
  | asked round _ same rests more place =>
      right
      rcases rests.pc with pc | pc
      · exact tested rests pc
      · apply client
        simp [SignalClient.step, pc, same, grouped_client]
  | answering round _ same place more _ =>
      right
      apply client
      simp [SignalClient.step, place]

theorem Abandoned.stranded (abandoned : Abandoned setup pair) :
    Stranded (pair.client.pc = .finished) (pair.client.step pair.shared = none)
      (pair.server.pc = .finished) (pair.server.step setup pair.shared = none) := by
  refine ⟨?_, Or.inr abandoned.waits, Or.inl (by simp [abandoned.server])⟩
  rintro ⟨finished, _⟩
  simp [abandoned.client] at finished

theorem ends (counted : 0 < setup.count) :
    (signalMachine setup).Ends (initial setup) (Abandoned setup) := by
  apply ends_of_measure (Placed setup)
    (fun pair => clientLeft setup pair.client + serverLeft setup pair.server)
    (.start _ (initial_grouped setup) rfl rfl)
  · intro pair peer next placed taken
    exact placed.step counted taken
  · intro pair placed
    exact placed.goes counted

end SignalPair

open SignalPair in
/-- For every size and count: some run breaks what is promised. Every run ends, after a
bounded number of steps, with the server gone and the client waiting for one more signal,
although no notification was merged with another. -/
theorem signal_never_completes {setup : SignalSetup} (counted : 0 < setup.count) :
    (∃ trace pair, Run (signalMachine setup) (initial setup) trace pair ∧
      ¬pair.Completes setup trace) ∧
    (signalMachine setup).Ends (initial setup) (Abandoned setup) ∧
    ∀ trace pair, Run (signalMachine setup) (initial setup) trace pair →
      ∀ entry ∈ trace, ¬entry.1.Merges entry.2 := by
  refine ⟨?_, ends counted, ?_⟩
  · obtain ⟨trace, pair, run, abandoned⟩ := (ends counted).reaches
    exact ⟨trace, pair, run, fun completes => completes.goes_on abandoned.stranded⟩
  · intro trace pair run entry member
    obtain ⟨_, before⟩ := run.reached entry member
    exact (placed counted before).separate entry.2

open SignalPair in
theorem signal_never_completes_once : (signalMachine ⟨4096, 1⟩).Ends (initial ⟨4096, 1⟩)
    (Abandoned ⟨4096, 1⟩) :=
  (signal_never_completes (by decide)).2.1

/-- One round: the server leaves its loop, the client does not. -/
theorem signal_client_remains : ¬∀ setup : SignalSetup, 0 < setup.count → ∀ trace pair,
    Run (signalMachine setup) (SignalPair.initial setup) trace pair →
      pair.Completes setup trace := by
  intro promise
  have stuck : ∃ trace pair,
      Run (signalMachine ⟨4096, 1⟩) (SignalPair.initial ⟨4096, 1⟩) trace pair ∧
      decide (pair.client.pc = .wait ∧ (pair.client.step pair.shared).isNone ∧
        pair.server.pc = .finished) = true :=
    exists_run_of_execute (signalMachine ⟨4096, 1⟩) (SignalPair.initial ⟨4096, 1⟩)
      [.client, .server, .server, .server, .client, .client, .client, .server, .server, .client]
      (fun result => decide (result.2.client.pc = .wait ∧
        (result.2.client.step result.2.shared).isNone ∧ result.2.server.pc = .finished))
      (by decide)
  obtain ⟨trace, pair, run, holds⟩ := stuck
  obtain ⟨waiting, blocked, finished⟩ := of_decide_eq_true holds
  rw [Option.isNone_iff_eq_none] at blocked
  apply (promise ⟨4096, 1⟩ (by decide) trace pair run).goes_on
  refine ⟨?_, Or.inr blocked, Or.inl finished⟩
  rintro ⟨other, _⟩
  rw [waiting] at other
  cases other

end IpcBench
