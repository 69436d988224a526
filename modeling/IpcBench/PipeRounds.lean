import IpcBench.PipeSignals

/-!
The pipe transport in rounds, for messages that fit into the pipe, and what happens to a
message that does not.
-/

namespace IpcBench

open Transition Signals

def masked (asked answered : Bool) : Peer → SignalState UserSignal
  | .client => {
      disposition := fun
        | .usr1 => .handler
        | .usr2 => .default
      blocked := fun
        | .usr1 => false
        | .usr2 => true
      pending := fun
        | .usr1 => false
        | .usr2 => asked
      terminated := false }
  | .server => {
      disposition := fun
        | .usr1 => .default
        | .usr2 => .handler
      blocked := fun
        | .usr1 => true
        | .usr2 => false
      pending := fun
        | .usr1 => answered
        | .usr2 => false
      terminated := false }

section Masked

variable {pipe : List PipeByte} {asked answered : Bool}

theorem signalState_ext {first second : SignalState UserSignal}
    (disposition : ∀ signal, first.disposition signal = second.disposition signal)
    (blocked : ∀ signal, first.blocked signal = second.blocked signal)
    (pending : ∀ signal, first.pending signal = second.pending signal)
    (terminated : first.terminated = second.terminated) : first = second := by
  cases first
  cases second
  simp only [SignalState.mk.injEq]
  exact ⟨funext disposition, funext blocked, funext pending, terminated⟩

theorem initial_masked (setup : PipeSetup) :
    (PipePair.initial setup).shared = ⟨[], masked false false⟩ := by
  simp only [PipePair.initial, PipeShared.mk.injEq, true_and]
  funext process
  cases process <;> apply signalState_ext <;> first | rfl | (intro signal; cases signal <;> rfl)

theorem send_usr1 : PipeShared.send .usr1 ⟨pipe, masked asked answered⟩ =
    ⟨pipe, masked asked true⟩ := by
  simp only [PipeShared.send, PipeShared.mk.injEq, true_and]
  funext process
  cases process <;> apply signalState_ext <;> first | rfl | (intro signal; cases signal <;> rfl)

theorem send_usr2 : PipeShared.send .usr2 ⟨pipe, masked asked answered⟩ =
    ⟨pipe, masked true answered⟩ := by
  simp only [PipeShared.send, PipeShared.mk.injEq, true_and]
  funext process
  cases process <;> apply signalState_ext <;> first | rfl | (intro signal; cases signal <;> rfl)

theorem take_client : (masked true answered .client).take (signalMask clientFlags) =
    some (masked false answered .client) := by
  refine congrArg some (signalState_ext ?_ ?_ ?_ rfl)
  all_goals
    intro signal
    cases signal <;> rfl

theorem take_server : (masked asked true .server).take (signalMask serverFlags) =
    some (masked asked false .server) := by
  refine congrArg some (signalState_ext ?_ ?_ ?_ rfl)
  all_goals
    intro signal
    cases signal <;> rfl

theorem await_client : PipeShared.await .client clientFlags ⟨pipe, masked true answered⟩ =
    some ⟨pipe, masked false answered⟩ := by
  simp only [PipeShared.await, take_client, Option.map_some, Option.some.injEq,
    PipeShared.mk.injEq, true_and]
  funext process
  cases process <;> rfl

theorem await_client_none :
    PipeShared.await .client clientFlags ⟨pipe, masked false answered⟩ = none :=
  rfl

theorem await_server : PipeShared.await .server serverFlags ⟨pipe, masked asked true⟩ =
    some ⟨pipe, masked asked false⟩ := by
  simp only [PipeShared.await, take_server, Option.map_some, Option.some.injEq,
    PipeShared.mk.injEq, true_and]
  funext process
  cases process <;> rfl

theorem await_server_none :
    PipeShared.await .server serverFlags ⟨pipe, masked asked false⟩ = none :=
  rfl

end Masked

namespace PipePair

variable (setup : PipeSetup)

def firstBytes (round length : Nat) : List PipeByte :=
  (List.range length).map fun index => (round, index)

def bytesFrom (round index : Nat) : List PipeByte :=
  (pipeMessage setup.size round).drop index

structure ClientRests (round : Nat) (client : PipeClient) : Prop where
  pc : client.pc = .test ∨ (client.pc = .wait ∧ 0 < client.count) ∨
    (client.pc = .finished ∧ client.count = 0)
  count : client.count + round = setup.count
  messages : client.messages = (List.range round).map (pipeMessage setup.size)

structure ClientIn (round copied : Nat) (client : PipeClient) : Prop where
  more : 0 < client.count
  count : client.count + round = setup.count
  messages : client.messages = (List.range copied).map (pipeMessage setup.size)

inductive Placed : PipePair → Prop
  | start (pair) (shared : pair.shared = ⟨[], masked false false⟩)
      (client : pair.client = ⟨.start, setup.count, [], []⟩) (server : pair.server = ⟨.start, 0⟩) :
      Placed pair
  | notified (round pair) (shared : pair.shared = ⟨[], masked false true⟩)
      (client : ClientRests setup round pair.client)
      (server : (pair.server = ⟨.start, round⟩) ∨
        ∃ message, round = message + 1 ∧ pair.server = ⟨.wait, message⟩) : Placed pair
  | idle (round pair) (shared : pair.shared = ⟨[], masked false false⟩)
      (client : ClientRests setup round pair.client)
      (server : pair.server = ⟨.test, round⟩ ∨
        (pair.server = ⟨.finished, round⟩ ∧ round = setup.count)) : Placed pair
  | writing (round index pair)
      (shared : pair.shared = ⟨firstBytes round index, masked false false⟩)
      (client : ClientRests setup round pair.client) (more : round < setup.count)
      (server : pair.server = ⟨.write index, round⟩) (inside : index ≤ setup.size) : Placed pair
  | written (round pair) (shared : pair.shared = ⟨pipeMessage setup.size round, masked false false⟩)
      (client : ClientRests setup round pair.client) (more : round < setup.count)
      (server : pair.server = ⟨.notify, round⟩) : Placed pair
  | asked (round pair) (shared : pair.shared = ⟨pipeMessage setup.size round, masked true false⟩)
      (client : ClientRests setup round pair.client) (more : round < setup.count)
      (server : pair.server = ⟨.wait, round⟩) : Placed pair
  | reading (round index pair) (shared : pair.shared = ⟨bytesFrom setup round index, masked false false⟩)
      (client : ClientIn setup round round pair.client) (pc : pair.client.pc = .read)
      (buffer : pair.client.buffer = firstBytes round index) (inside : index ≤ setup.size)
      (server : pair.server = ⟨.wait, round⟩) : Placed pair
  | answered (round pair) (shared : pair.shared = ⟨[], masked false false⟩)
      (client : ClientIn setup round (round + 1) pair.client) (pc : pair.client.pc = .notify)
      (server : pair.server = ⟨.wait, round⟩) : Placed pair

variable {setup} {round : Nat} {pair : PipePair} {shared : PipeShared} {client : PipeClient}
  {server : PipeServer} {trace : List (PipePair × Peer)}

theorem firstBytes_succ {index : Nat} :
    firstBytes round (index + 1) = firstBytes round index ++ [(round, index)] := by
  simp [firstBytes, List.range_succ]

theorem firstBytes_length {index : Nat} : (firstBytes round index).length = index := by
  simp [firstBytes]

theorem bytesFrom_cons {index : Nat} (inside : index < setup.size) :
    bytesFrom setup round index = (round, index) :: bytesFrom setup round (index + 1) := by
  unfold bytesFrom pipeMessage
  rw [List.drop_eq_getElem_cons (by simpa using inside)]
  simp

theorem bytesFrom_end : bytesFrom setup round setup.size = [] := by
  simp [bytesFrom, pipeMessage]

theorem ClientRests.step (rests : ClientRests setup round pair.client)
    (quiet : pair.client.pc = .wait → pair.shared.await .client clientFlags = none)
    (taken : pair.client.step setup pair.shared = some (shared, client)) :
    shared = pair.shared ∧ ClientRests setup round client := by
  rcases rests.pc with pc | ⟨pc, _⟩ | ⟨pc, _⟩
  · simp only [PipeClient.step, pc] at taken
    split at taken <;> cases taken
    · rename_i more
      exact ⟨rfl, Or.inr (Or.inl ⟨rfl, more⟩), rests.count, rests.messages⟩
    · rename_i isOver
      exact ⟨rfl, Or.inr (Or.inr ⟨rfl, by simpa using isOver⟩), rests.count, rests.messages⟩
  · simp [PipeClient.step, pc, quiet pc] at taken
  · simp [PipeClient.step, pc] at taken

theorem Placed.client_step (placed : Placed setup pair)
    (taken : pair.client.step setup pair.shared = some (shared, client)) :
    Placed setup { pair with shared := shared, client := client } := by
  cases placed with
  | start _ same first server =>
      rw [same, first] at taken
      simp only [PipeClient.step, send_usr1] at taken
      cases taken
      exact .notified 0 _ rfl ⟨Or.inl rfl, rfl, rfl⟩ (Or.inl server)
  | notified round _ same rests server =>
      obtain ⟨rfl, kept⟩ := rests.step (fun _ => by rw [same]; rfl) taken
      exact .notified round _ same kept server
  | idle round _ same rests server =>
      obtain ⟨rfl, kept⟩ := rests.step (fun _ => by rw [same]; rfl) taken
      exact .idle round _ same kept server
  | writing round index _ same rests more server inside =>
      obtain ⟨rfl, kept⟩ := rests.step (fun _ => by rw [same]; rfl) taken
      exact .writing round index _ same kept more server inside
  | written round _ same rests more server =>
      obtain ⟨rfl, kept⟩ := rests.step (fun _ => by rw [same]; rfl) taken
      exact .written round _ same kept more server
  | asked round _ same rests more server =>
      by_cases waiting : pair.client.pc = .wait
      · simp only [PipeClient.step, waiting, same, await_client, Option.map_some] at taken
        cases taken
        have count := rests.count
        exact .reading round 0 _ rfl ⟨by simp only; omega, count, rests.messages⟩ rfl rfl
          (Nat.zero_le _) server
      · obtain ⟨rfl, kept⟩ := rests.step (fun pc => absurd pc waiting) taken
        exact .asked round _ same kept more server
  | reading round index _ same inside pc buffer bound server =>
      simp only [PipeClient.step, pc, buffer, firstBytes_length] at taken
      split at taken
      · rename_i more
        rw [same, bytesFrom_cons more] at taken
        cases taken
        exact .reading round (index + 1) _ rfl ⟨inside.more, inside.count, inside.messages⟩ rfl
          firstBytes_succ.symm more server
      · rename_i full
        cases taken
        have whole : index = setup.size := by omega
        subst whole
        rw [bytesFrom_end] at same
        refine .answered round _ same ⟨inside.more, inside.count, ?_⟩ rfl server
        rw [List.range_succ, List.map_append, ← inside.messages]
        rfl
  | answered round _ same inside pc server =>
      simp only [PipeClient.step, pc, same, send_usr1] at taken
      cases taken
      have more := inside.more
      have count := inside.count
      refine .notified (round + 1) _ rfl ⟨Or.inl rfl, ?_, inside.messages⟩
        (Or.inr ⟨round, rfl, server⟩)
      simp only
      omega

theorem Placed.server_step (placed : Placed setup pair)
    (taken : pair.server.step setup pair.shared = some (shared, server)) :
    Placed setup { pair with shared := shared, server := server } := by
  cases placed with
  | start _ same client first =>
      simp [PipeServer.step, first, same, await_server_none] at taken
  | notified round _ same rests place =>
      rcases place with place | ⟨message, rfl, place⟩
      · simp only [PipeServer.step, place, same, await_server, Option.map_some] at taken
        cases taken
        exact .idle round _ rfl rests (Or.inl rfl)
      · simp only [PipeServer.step, place, same, await_server, Option.map_some] at taken
        cases taken
        exact .idle (message + 1) _ rfl rests (Or.inl rfl)
  | idle round _ same rests place =>
      rcases place with place | ⟨place, _⟩
      · simp only [PipeServer.step, place] at taken
        have count := rests.count
        split at taken <;> cases taken
        · rename_i more
          exact .writing round 0 _ same rests more rfl (Nat.zero_le _)
        · exact .idle round _ same rests (Or.inr ⟨rfl, by omega⟩)
      · simp [PipeServer.step, place] at taken
  | writing round index _ same rests more place inside =>
      simp only [PipeServer.step, place] at taken
      split at taken
      · rename_i further
        split at taken
        · cases taken
          refine .writing round (index + 1) _ ?_ rests more rfl further
          rw [same, firstBytes_succ]
        · cases taken
      · cases taken
        have whole : index = setup.size := by omega
        subst whole
        exact .written round _ same rests more rfl
  | written round _ same rests more place =>
      simp only [PipeServer.step, place, same, send_usr2] at taken
      cases taken
      exact .asked round _ rfl rests more rfl
  | asked round _ same rests more place =>
      simp [PipeServer.step, place, same, await_server_none] at taken
  | reading round index _ same inside pc buffer bound place =>
      simp [PipeServer.step, place, same, await_server_none] at taken
  | answered round _ same inside pc place =>
      simp [PipeServer.step, place, same, await_server_none] at taken

theorem placed (run : Run (pipeMachine setup) (initial setup) trace pair) : Placed setup pair := by
  refine run.stateInvariant (Placed setup) (.start _ (initial_masked setup) rfl rfl) ?_
  intro pair peer next placed taken
  cases peer with
  | client =>
      obtain ⟨shared, client, moved, rfl⟩ := Duo.step_client.mp taken
      exact placed.client_step moved
  | server =>
      obtain ⟨shared, server, moved, rfl⟩ := Duo.step_server.mp taken
      exact placed.server_step moved

theorem ClientRests.calm (rests : ClientRests setup round client) :
    client.pc ≠ .start ∧ client.pc ≠ .notify := by
  rcases rests.pc with pc | ⟨pc, _⟩ | ⟨pc, _⟩ <;> simp [pc]

theorem ClientRests.finished (rests : ClientRests setup round client) (pc : client.pc = .finished) :
    round = setup.count := by
  have count := rests.count
  rcases rests.pc with other | ⟨other, _⟩ | ⟨_, isOver⟩
  · cases pc.symm.trans other
  · cases pc.symm.trans other
  · omega

theorem ClientRests.waits (rests : ClientRests setup round pair.client)
    (blocked : pair.client.step setup pair.shared = none) :
    (pair.client.pc = .wait ∧ 0 < pair.client.count) ∨
      (pair.client.pc = .finished ∧ pair.client.count = 0) := by
  rcases rests.pc with pc | waiting
  · simp only [PipeClient.step, pc] at blocked
    split at blocked <;> cases blocked
  · exact waiting

/-- A process with a notification pending is not about to be sent another one. -/
theorem Placed.signals (placed : Placed setup pair) : ∃ asked answered,
    pair.shared.signals = masked asked answered ∧
    (answered = true → pair.client.pc ≠ .start ∧ pair.client.pc ≠ .notify) ∧
    (asked = true → pair.server.pc ≠ .notify) := by
  cases placed with
  | start _ same => exact ⟨false, false, by rw [same], nofun, nofun⟩
  | notified _ _ same rests => exact ⟨false, true, by rw [same], fun _ => rests.calm, nofun⟩
  | idle _ _ same => exact ⟨false, false, by rw [same], nofun, nofun⟩
  | writing _ _ _ same => exact ⟨false, false, by rw [same], nofun, nofun⟩
  | written _ _ same => exact ⟨false, false, by rw [same], nofun, nofun⟩
  | asked _ _ same _ _ server => exact ⟨true, false, by rw [same], nofun, by simp [server]⟩
  | reading _ _ _ same => exact ⟨false, false, by rw [same], nofun, nofun⟩
  | answered _ _ same => exact ⟨false, false, by rw [same], nofun, nofun⟩

theorem Placed.separate (placed : Placed setup pair) (peer : Peer) : ¬pair.Merges peer := by
  intro merges
  obtain ⟨asked, answered, signals, client, server⟩ := placed.signals
  cases peer with
  | client =>
      obtain ⟨pc, pending⟩ := merges
      rw [signals] at pending
      rcases pc with pc | pc
      · exact (client pending).1 pc
      · exact (client pending).2 pc
  | server =>
      obtain ⟨pc, pending⟩ := merges
      rw [signals] at pending
      exact server pending pc

theorem ClientRests.received (rests : ClientRests setup round client) :
    ∃ rounds, rounds ≤ setup.count ∧
      client.messages = (List.range rounds).map (pipeMessage setup.size) ∧
      (client.pc = .finished → rounds = setup.count) := by
  have count := rests.count
  exact ⟨round, by omega, rests.messages, rests.finished⟩

theorem ClientIn.received {copied : Nat} (inside : ClientIn setup round copied client)
    (within : copied ≤ round + 1) (pc : client.pc ≠ .finished) :
    ∃ rounds, rounds ≤ setup.count ∧
      client.messages = (List.range rounds).map (pipeMessage setup.size) ∧
      (client.pc = .finished → rounds = setup.count) := by
  have more := inside.more
  have count := inside.count
  exact ⟨copied, by omega, inside.messages, fun finished => absurd finished pc⟩

theorem Placed.received (placed : Placed setup pair) :
    ∃ rounds, rounds ≤ setup.count ∧
      pair.client.messages = (List.range rounds).map (pipeMessage setup.size) ∧
      (pair.client.pc = .finished → rounds = setup.count) := by
  cases placed with
  | start _ _ client => exact ⟨0, Nat.zero_le _, by simp [client], by simp [client]⟩
  | notified _ _ _ rests => exact rests.received
  | idle _ _ _ rests => exact rests.received
  | writing _ _ _ _ rests => exact rests.received
  | written _ _ _ rests => exact rests.received
  | asked _ _ _ rests => exact rests.received
  | reading _ _ _ _ inside pc => exact inside.received (Nat.le_succ _) (by simp [pc])
  | answered _ _ _ inside pc => exact inside.received (Nat.le_refl _) (by simp [pc])

theorem Placed.not_stranded (placed : Placed setup pair) (fits : setup.size ≤ setup.capacity) :
    ¬Stranded (pair.client.pc = .finished) (pair.client.step setup pair.shared = none)
      (pair.server.pc = .finished) (pair.server.step setup pair.shared = none) := by
  rintro ⟨running, client, server⟩
  cases placed with
  | start _ same place => simp [place, PipeClient.step] at client
  | notified _ _ same rests place =>
      rcases place with place | ⟨_, _, place⟩ <;>
        simp [place, PipeServer.step, same, await_server] at server
  | idle _ _ same rests place =>
      rcases place with place | ⟨place, isOver⟩
      · simp only [place, reduceCtorEq, PipeServer.step, false_or] at server
        split at server <;> cases server
      · have count := rests.count
        rcases client with finished | blocked
        · exact running ⟨finished, by simp [place]⟩
        · rcases rests.waits blocked with ⟨_, more⟩ | ⟨finished, _⟩
          · omega
          · exact running ⟨finished, by simp [place]⟩
  | writing _ index _ same _ _ place =>
      simp only [place, reduceCtorEq, PipeServer.step, false_or, same, firstBytes_length] at server
      split at server
      · rw [if_pos (by omega)] at server
        cases server
      · cases server
  | written _ _ _ _ _ place => simp [place, PipeServer.step] at server
  | asked _ _ same rests more place =>
      have count := rests.count
      rcases client with finished | blocked
      · have whole := rests.finished finished
        omega
      · rcases rests.waits blocked with ⟨waiting, _⟩ | ⟨_, isOver⟩
        · simp [PipeClient.step, waiting, same, await_client] at blocked
        · omega
  | reading _ index _ same _ pc buffer =>
      simp only [pc, reduceCtorEq, PipeClient.step, buffer, firstBytes_length, false_or] at client
      split at client
      · rename_i more
        simp [same, bytesFrom_cons more] at client
      · cases client
  | answered _ _ _ _ pc => simp [pc, PipeClient.step] at client

theorem completes (fits : setup.size ≤ setup.capacity)
    (run : Run (pipeMachine setup) (initial setup) trace pair) : pair.Completes setup trace where
  goes_on := (placed run).not_stranded fits
  separate := by
    intro entry member
    obtain ⟨_, before⟩ := run.reached entry member
    exact (placed before).separate entry.2
  messages := (placed run).received

/-! The first message, when it does not fit. -/

def atByte (setup : PipeSetup) (index : Nat) : PipePair where
  shared := ⟨firstBytes 0 index, masked false false⟩
  client := ⟨.wait, setup.count, [], []⟩
  server := ⟨.write index, 0⟩

theorem reaches_write (more : 0 < setup.count) :
    ∃ trace, Run (pipeMachine setup) (initial setup) trace (atByte setup 0) := by
  have asked : (pipeMachine setup).step (initial setup) .client =
      some ⟨⟨[], masked false true⟩, ⟨.test, setup.count, [], []⟩, ⟨.start, 0⟩⟩ := by
    refine Duo.step_client.mpr ⟨_, _, ?_, rfl⟩
    rw [initial_masked, ← send_usr1]
    rfl
  have waiting : (pipeMachine setup).step
      ⟨⟨[], masked false true⟩, ⟨.test, setup.count, [], []⟩, ⟨.start, 0⟩⟩ .client =
      some ⟨⟨[], masked false true⟩, ⟨.wait, setup.count, [], []⟩, ⟨.start, 0⟩⟩ :=
    Duo.step_client.mpr ⟨_, _, if_pos more, rfl⟩
  have started : (pipeMachine setup).step
      ⟨⟨[], masked false true⟩, ⟨.wait, setup.count, [], []⟩, ⟨.start, 0⟩⟩ .server =
      some ⟨⟨[], masked false false⟩, ⟨.wait, setup.count, [], []⟩, ⟨.test, 0⟩⟩ := by
    refine Duo.step_server.mpr ⟨⟨[], masked false false⟩, ⟨.test, 0⟩, ?_, rfl⟩
    simp only [PipeServer.step, await_server, Option.map_some]
  have writing : (pipeMachine setup).step
      ⟨⟨[], masked false false⟩, ⟨.wait, setup.count, [], []⟩, ⟨.test, 0⟩⟩ .server =
      some (atByte setup 0) :=
    Duo.step_server.mpr ⟨_, _, if_pos more, rfl⟩
  exact ⟨_, (((Run.start.step asked).step waiting).step started).step writing⟩

theorem reaches_byte (more : 0 < setup.count) {index : Nat} (inside : index ≤ setup.size)
    (space : index ≤ setup.capacity) :
    ∃ trace, Run (pipeMachine setup) (initial setup) trace (atByte setup index) := by
  induction index with
  | zero => exact reaches_write more
  | succ index ih =>
      obtain ⟨trace, run⟩ := ih (Nat.le_of_succ_le inside) (Nat.le_of_succ_le space)
      have written : (pipeMachine setup).step (atByte setup index) .server =
          some (atByte setup (index + 1)) := by
        refine Duo.step_server.mpr ⟨_, ⟨.write (index + 1), 0⟩, ?_, rfl⟩
        simp only [PipeServer.step, atByte, firstBytes_length, firstBytes_succ]
        rw [if_pos (Nat.lt_of_succ_le inside), if_pos (Nat.lt_of_succ_le space)]
      exact ⟨_, run.step written⟩

theorem full_stranded (tooLong : setup.capacity < setup.size) :
    Stranded ((atByte setup setup.capacity).client.pc = .finished)
      ((atByte setup setup.capacity).client.step setup (atByte setup setup.capacity).shared = none)
      ((atByte setup setup.capacity).server.pc = .finished)
      ((atByte setup setup.capacity).server.step setup (atByte setup setup.capacity).shared =
        none) := by
  refine ⟨by simp [atByte], Or.inr ?_, Or.inr ?_⟩
  · simp [PipeClient.step, atByte, await_client_none]
  · simp only [PipeServer.step, atByte, firstBytes_length]
    rw [if_pos tooLong, if_neg (Nat.lt_irrefl _)]

end PipePair

/-- The transport keeps what it promises in every order of the steps just when a message
fits into the pipe. -/
theorem pipe_completes_iff {setup : PipeSetup} (more : 0 < setup.count) :
    (∀ trace pair, Run (pipeMachine setup) (PipePair.initial setup) trace pair →
      pair.Completes setup trace) ↔ setup.size ≤ setup.capacity := by
  constructor
  · intro promise
    by_contra tooLong
    rw [Nat.not_le] at tooLong
    obtain ⟨trace, run⟩ := PipePair.reaches_byte more (Nat.le_of_lt tooLong) (Nat.le_refl setup.capacity)
    exact (promise trace _ run).goes_on (PipePair.full_stranded tooLong)
  · intro fits trace pair run
    exact PipePair.completes fits run

theorem pipe_completes_iff_oneByte :
    0 < (⟨1, 1, 1⟩ : PipeSetup).count ∧
    ((∀ trace pair, Run (pipeMachine ⟨1, 1, 1⟩) (PipePair.initial ⟨1, 1, 1⟩) trace pair →
      pair.Completes ⟨1, 1, 1⟩ trace) ↔ 1 ≤ 1) :=
  ⟨by decide, pipe_completes_iff (by decide)⟩

/-- One message of two bytes, a pipe for one. -/
theorem pipe_fills_up : ¬∀ setup : PipeSetup, 0 < setup.size → 0 < setup.count →
    0 < setup.capacity → ∀ trace pair,
    Run (pipeMachine setup) (PipePair.initial setup) trace pair → pair.Completes setup trace := by
  intro promise
  have stuck : ∃ trace pair,
      Run (pipeMachine ⟨2, 1, 1⟩) (PipePair.initial ⟨2, 1, 1⟩) trace pair ∧
      decide (pair.client.pc ≠ .finished ∧
        (pair.client.step ⟨2, 1, 1⟩ pair.shared).isNone ∧
        (pair.server.step ⟨2, 1, 1⟩ pair.shared).isNone) = true :=
    exists_run_of_execute (pipeMachine ⟨2, 1, 1⟩) (PipePair.initial ⟨2, 1, 1⟩)
      [.client, .client, .server, .server, .server]
      (fun result => decide (result.2.client.pc ≠ .finished ∧
        (result.2.client.step ⟨2, 1, 1⟩ result.2.shared).isNone ∧
        (result.2.server.step ⟨2, 1, 1⟩ result.2.shared).isNone))
      (by decide)
  obtain ⟨trace, pair, run, holds⟩ := stuck
  obtain ⟨running, client, server⟩ := of_decide_eq_true holds
  rw [Option.isNone_iff_eq_none] at client server
  refine (promise ⟨2, 1, 1⟩ (by decide) (by decide) (by decide) trace pair run).goes_on
    ⟨fun done => running done.1, Or.inr client, Or.inr server⟩

end IpcBench
