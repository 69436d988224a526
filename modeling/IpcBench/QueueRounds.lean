import IpcBench.MessageQueue

/-!
The mq transport in rounds: the one message in the queue tells whose turn it is.
-/

namespace IpcBench

open Transition

/-! The system calls on a queue that holds at most one message. -/

namespace MessageQueue

variable {queue : MessageQueue} (message : Message) (size type : Nat)

theorem msgsnd_empty (empty : queue.messages = []) (present : queue.removed = false)
    (space : message.text.length ≤ queue.bytes) (positive : 0 < queue.bytes) :
    queue.msgsnd message = .sent { queue with messages := [message] } := by
  unfold msgsnd
  rw [if_neg (by simp [present]), if_pos]
  · simp [empty]
  · simp only [used, empty, List.map_nil, List.sum_nil, List.length_nil]
    omega

theorem msgrcv_empty (empty : queue.messages = []) (present : queue.removed = false) :
    queue.msgrcv size type = .empty := by
  simp [msgrcv, present, empty]

variable {message}

theorem msgrcv_other (holds : queue.messages = [message]) (present : queue.removed = false)
    (other : message.type ≠ type) : queue.msgrcv size type = .empty := by
  simp [msgrcv, present, holds, other]

variable {type}

theorem msgrcv_only (holds : queue.messages = [message]) (present : queue.removed = false)
    (same : message.type = type) (fits : message.text.length ≤ size) :
    queue.msgrcv size type = .received message { queue with messages := [] } := by
  simp [msgrcv, present, holds, same, fits]

end MessageQueue

namespace QueueArguments

variable (args : QueueArguments) (round : Nat)

@[simp] theorem serverMessage_type : (args.serverMessage round).type = serverMessageType := rfl

@[simp] theorem clientMessage_type : (args.clientMessage round).type = clientMessageType := rfl

@[simp] theorem serverMessage_round : (args.serverMessage round).round = round := rfl

@[simp] theorem clientMessage_round : (args.clientMessage round).round = round := rfl

@[simp] theorem serverMessage_length : (args.serverMessage round).text.length = args.size :=
  List.length_replicate

@[simp] theorem clientMessage_length : (args.clientMessage round).text.length = args.size :=
  List.length_replicate

theorem limitMessageSize_count : args.limitMessageSize.count = args.count := by
  unfold limitMessageSize
  split <;> rfl

end QueueArguments

namespace QueuePair

variable (args : QueueArguments) (bytes : Nat)

structure Holds (messages : List Message) (queue : MessageQueue) : Prop where
  messages : queue.messages = messages
  bytes : queue.bytes = bytes
  present : queue.removed = false

structure ClientRests (round : Nat) (client : QueueClient) : Prop where
  pc : client.pc = .test ∨ (client.pc = .receive ∧ 0 < client.count) ∨
    (client.pc = .finished ∧ client.count = 0)
  count : client.count + round = args.count
  received : client.received = (List.range round).map args.serverMessage

structure ServerIn (round : Nat) (server : QueueServer) : Prop where
  index : server.index = round
  within : round ≤ args.count
  received : server.received = (List.range round).map args.clientMessage

inductive Placed : Nat → QueuePair → Prop
  | idle (round pair) (queue : Holds bytes [] pair.shared)
      (client : ClientRests args round pair.client) (server : ServerIn args round pair.server)
      (pc : pair.server.pc = .test ∨ (pair.server.pc = .send ∧ round < args.count) ∨
        (pair.server.pc = .cleanup ∧ round = args.count)) : Placed (4 * round) pair
  | asked (round pair) (queue : Holds bytes [args.serverMessage round] pair.shared)
      (client : ClientRests args round pair.client) (server : ServerIn args round pair.server)
      (more : round < args.count) (pc : pair.server.pc = .receive) : Placed (4 * round + 1) pair
  | heard (round pair) (queue : Holds bytes [] pair.shared) (pc : pair.client.pc = .send)
      (more : round < args.count) (count : pair.client.count + round = args.count)
      (received : pair.client.received = (List.range (round + 1)).map args.serverMessage)
      (server : ServerIn args round pair.server) (waiting : pair.server.pc = .receive) :
      Placed (4 * round + 2) pair
  | replied (round pair) (queue : Holds bytes [args.clientMessage round] pair.shared)
      (client : ClientRests args (round + 1) pair.client)
      (server : ServerIn args round pair.server) (waiting : pair.server.pc = .receive) :
      Placed (4 * round + 3) pair
  | removed (pair) (gone : pair.shared.removed = true) (empty : pair.shared.messages = [])
      (client : ClientRests args args.count pair.client)
      (server : ServerIn args args.count pair.server) (pc : pair.server.pc = .finished) :
      Placed (4 * args.count) pair

variable {args bytes} {round done : Nat} {pair : QueuePair} {queue : MessageQueue}
  {client : QueueClient} {server : QueueServer}

theorem queueScript_eq (round position : Nat) (inside : position < 4) :
    queueScript (4 * round + position) = (queueMove position, round) :=
  rounds_eq queueMove round inside

theorem ClientRests.step (rests : ClientRests args round pair.client)
    (empty : pair.client.pc = .receive →
      pair.shared.msgrcv args.size serverMessageType = .empty)
    (taken : pair.client.step args pair.shared = some (queue, client)) :
    pair.note args .client = [] ∧ queue = pair.shared ∧ ClientRests args round client := by
  rcases rests.pc with pc | ⟨pc, _⟩ | ⟨pc, _⟩
  · simp only [QueueClient.step, pc] at taken
    refine ⟨by simp [note, pc], ?_⟩
    split at taken <;> cases taken
    · rename_i more
      exact ⟨rfl, Or.inr (Or.inl ⟨rfl, more⟩), rests.count, rests.received⟩
    · rename_i isOver
      exact ⟨rfl, Or.inr (Or.inr ⟨rfl, by simpa using isOver⟩), rests.count, rests.received⟩
  · simp [QueueClient.step, pc, empty pc] at taken
  · simp [QueueClient.step, pc] at taken

theorem Holds.empty_msgrcv {size type : Nat} (holds : Holds bytes [] queue) :
    queue.msgrcv size type = .empty :=
  MessageQueue.msgrcv_empty size type holds.messages holds.present

theorem Holds.server_other (holds : Holds bytes [args.serverMessage round] queue) :
    queue.msgrcv args.size clientMessageType = .empty :=
  MessageQueue.msgrcv_other _ _ holds.messages holds.present (by simp [serverMessageType,
    clientMessageType])

theorem Holds.client_other (holds : Holds bytes [args.clientMessage round] queue) :
    queue.msgrcv args.size serverMessageType = .empty :=
  MessageQueue.msgrcv_other _ _ holds.messages holds.present (by simp [serverMessageType,
    clientMessageType])

theorem Holds.server_found (holds : Holds bytes [args.serverMessage round] queue) :
    queue.msgrcv args.size serverMessageType =
      .received (args.serverMessage round) { queue with messages := [] } :=
  MessageQueue.msgrcv_only _ holds.messages holds.present rfl (by simp)

theorem Holds.client_found (holds : Holds bytes [args.clientMessage round] queue) :
    queue.msgrcv args.size clientMessageType =
      .received (args.clientMessage round) { queue with messages := [] } :=
  MessageQueue.msgrcv_only _ holds.messages holds.present rfl (by simp)

theorem Holds.sends (holds : Holds bytes [] queue) (space : args.size ≤ bytes)
    (positive : 0 < bytes) {message : Message} (size : message.text.length = args.size) :
    queue.msgsnd message = .sent { queue with messages := [message] } :=
  MessageQueue.msgsnd_empty message holds.messages holds.present (by rw [size, holds.bytes]; exact space)
    (by rw [holds.bytes]; exact positive)

theorem server_waits (waiting : server.pc = .receive)
    (empty : queue.msgrcv args.size clientMessageType = .empty) :
    server.step args queue = none := by
  simp [QueueServer.step, waiting, empty]

theorem Placed.client_step (placed : Placed args bytes done pair) (space : args.size ≤ bytes)
    (positive : 0 < bytes) (taken : pair.client.step args pair.shared = some (queue, client)) :
    Continues queueScript done (pair.note args .client) ∧
      Placed args bytes (done + (pair.note args .client).length)
        { pair with shared := queue, client := client } := by
  cases placed with
  | idle round _ holds rests inside pc =>
      obtain ⟨none, rfl, kept⟩ := rests.step (fun _ => holds.empty_msgrcv) taken
      rw [none]
      exact ⟨continues_nil, .idle round _ holds kept inside pc⟩
  | asked round _ holds rests inside more pc =>
      by_cases receiving : pair.client.pc = .receive
      · have found := holds.server_found
        have one : pair.note args .client = [(.received .client, round)] := by
          simp [note, receiving, found]
        simp only [QueueClient.step, receiving, found, QueueArguments.serverMessage_length,
          Nat.lt_irrefl, if_false] at taken
        cases taken
        rw [one]
        refine ⟨continues_one (queueScript_eq round 1 (by decide)).symm,
          .heard round _ ⟨rfl, holds.bytes, holds.present⟩ rfl more rests.count ?_ inside pc⟩
        simp [rests.received, List.range_succ]
      · obtain ⟨none, rfl, kept⟩ := rests.step (fun pc => absurd pc receiving) taken
        rw [none]
        exact ⟨continues_nil, .asked round _ holds kept inside more pc⟩
  | heard round _ holds pc more count received inside waiting =>
      have own : pair.client.round args = round := by
        simp only [QueueClient.round]
        omega
      have stored := holds.sends space positive (args.clientMessage_length round)
      have one : pair.note args .client = [(.sent .client, round)] := by
        simp [note, pc, own, stored]
      simp only [QueueClient.step, pc, own, stored] at taken
      cases taken
      rw [one]
      refine ⟨continues_one (queueScript_eq round 2 (by decide)).symm,
        .replied round _ ⟨rfl, holds.bytes, holds.present⟩ ⟨Or.inl rfl, ?_, received⟩ inside waiting⟩
      simp only
      omega
  | replied round _ holds rests inside waiting =>
      obtain ⟨none, rfl, kept⟩ := rests.step (fun _ => holds.client_other) taken
      rw [none]
      exact ⟨continues_nil, .replied round _ holds kept inside waiting⟩
  | removed _ gone empty rests inside pc =>
      have count := rests.count
      have calm : pair.client.pc ≠ .receive := by
        intro receiving
        rcases rests.pc with other | ⟨_, more⟩ | ⟨other, _⟩
        · cases receiving.symm.trans other
        · omega
        · cases receiving.symm.trans other
      obtain ⟨none, rfl, kept⟩ := rests.step (fun pc => absurd pc calm) taken
      rw [none]
      exact ⟨continues_nil, .removed _ gone empty kept inside pc⟩

theorem Placed.server_step (placed : Placed args bytes done pair) (space : args.size ≤ bytes)
    (positive : 0 < bytes) (taken : pair.server.step args pair.shared = some (queue, server)) :
    Continues queueScript done (pair.note args .server) ∧
      Placed args bytes (done + (pair.note args .server).length)
        { pair with shared := queue, server := server } := by
  cases placed with
  | idle round _ holds rests inside pc =>
      rcases pc with pc | ⟨pc, more⟩ | ⟨pc, isOver⟩
      · have none : pair.note args .server = [] := by simp [note, pc]
        simp only [QueueServer.step, pc] at taken
        rw [none]
        have index := inside.index
        have within := inside.within
        split at taken <;> cases taken
        · exact ⟨continues_nil, .idle round _ holds rests ⟨index, within, inside.received⟩
            (Or.inr (Or.inl ⟨rfl, by omega⟩))⟩
        · exact ⟨continues_nil, .idle round _ holds rests ⟨index, within, inside.received⟩
            (Or.inr (Or.inr ⟨rfl, by omega⟩))⟩
      · have stored := holds.sends space positive (args.serverMessage_length round)
        have one : pair.note args .server = [(.sent .server, round)] := by
          simp [note, pc, inside.index, stored]
        simp only [QueueServer.step, pc, inside.index, stored] at taken
        cases taken
        rw [one]
        exact ⟨continues_one (queueScript_eq round 0 (by decide)).symm,
          .asked round _ ⟨rfl, holds.bytes, holds.present⟩ rests
            ⟨rfl, inside.within, inside.received⟩ more rfl⟩
      · have none : pair.note args .server = [] := by simp [note, pc]
        simp only [QueueServer.step, pc, holds.present, Bool.false_eq_true, if_false] at taken
        cases taken
        subst isOver
        rw [none]
        exact ⟨continues_nil, .removed _ rfl holds.messages rests
          ⟨inside.index, inside.within, inside.received⟩ rfl⟩
  | asked round _ holds rests inside more pc =>
      rw [server_waits pc holds.server_other] at taken
      cases taken
  | heard round _ holds pc more count received inside waiting =>
      rw [server_waits waiting holds.empty_msgrcv] at taken
      cases taken
  | replied round _ holds rests inside waiting =>
      have found := holds.client_found
      have one : pair.note args .server = [(.received .server, round)] := by
        simp [note, waiting, found]
      have count := rests.count
      simp only [QueueServer.step, waiting, found, QueueArguments.clientMessage_length,
        Nat.lt_irrefl, if_false] at taken
      cases taken
      rw [one]
      refine ⟨continues_one (queueScript_eq round 3 (by decide)).symm,
        .idle (round + 1) _ ⟨rfl, holds.bytes, holds.present⟩ rests
          ⟨by simp only [inside.index], by omega, ?_⟩ (Or.inl rfl)⟩
      simp [inside.received, List.range_succ]
  | removed _ gone empty rests inside pc => simp [QueueServer.step, pc] at taken

theorem passed_step (trace : List (QueuePair × Peer)) (pair : QueuePair) (peer : Peer) :
    passed args (trace ++ [(pair, peer)]) = passed args trace ++ pair.note args peer := by
  simp [passed]

theorem placed_initial : Placed args bytes 0 (initial args bytes) :=
  .idle 0 _ ⟨rfl, rfl, rfl⟩ ⟨Or.inl rfl, rfl, rfl⟩ ⟨rfl, Nat.zero_le _, rfl⟩ (Or.inl rfl)

theorem placed {trace : List (QueuePair × Peer)} (space : args.size ≤ bytes) (positive : 0 < bytes)
    (run : Run (queueMachine args) (initial args bytes) trace pair) :
    Follows queueScript (passed args trace) ∧ Placed args bytes (passed args trace).length pair := by
  induction run with
  | start => exact ⟨follows_nil, placed_initial⟩
  | step before taken ih =>
      obtain ⟨follows, placed⟩ := ih
      rw [passed_step, List.length_append]
      rename_i trace pair peer next
      cases peer with
      | client =>
          obtain ⟨queue, client, moved, rfl⟩ := Duo.step_client.mp taken
          obtain ⟨continues, reached⟩ := placed.client_step space positive moved
          exact ⟨follows.append continues, reached⟩
      | server =>
          obtain ⟨queue, server, moved, rfl⟩ := Duo.step_server.mp taken
          obtain ⟨continues, reached⟩ := placed.server_step space positive moved
          exact ⟨follows.append continues, reached⟩

theorem ClientRests.calm (rests : ClientRests args round client) :
    client.pc ≠ .failed ∧ client.pc ≠ .send := by
  rcases rests.pc with pc | ⟨pc, _⟩ | ⟨pc, _⟩ <;> simp [pc]

theorem ClientRests.finished (rests : ClientRests args round client) (pc : client.pc = .finished) :
    round = args.count := by
  have count := rests.count
  rcases rests.pc with other | ⟨other, _⟩ | ⟨_, isOver⟩
  · cases pc.symm.trans other
  · cases pc.symm.trans other
  · omega

theorem ClientRests.blocked (rests : ClientRests args round pair.client)
    (blocked : pair.client.step args pair.shared = none) :
    (pair.client.pc = .receive ∧ 0 < pair.client.count) ∨ pair.client.pc = .finished := by
  rcases rests.pc with pc | waiting | ⟨pc, _⟩
  · simp only [QueueClient.step, pc] at blocked
    split at blocked <;> cases blocked
  · exact Or.inl waiting
  · exact Or.inr pc

theorem Placed.alone (placed : Placed args bytes done pair) :
    pair.shared.messages.length ≤ 1 ∧ (pair.server.pc = .send → pair.shared.messages = []) := by
  cases placed with
  | idle _ _ holds => simp [holds.messages]
  | asked _ _ holds _ _ _ pc => simp [holds.messages, pc]
  | heard _ _ holds => simp [holds.messages]
  | replied _ _ holds _ _ waiting => simp [holds.messages, waiting]
  | removed _ _ empty => simp [empty]

theorem Placed.not_failed (placed : Placed args bytes done pair) :
    pair.client.pc ≠ .failed ∧ pair.server.pc ≠ .failed := by
  cases placed with
  | idle _ _ _ rests _ pc =>
      refine ⟨rests.calm.1, ?_⟩
      rcases pc with pc | ⟨pc, _⟩ | ⟨pc, _⟩ <;> simp [pc]
  | asked _ _ _ rests _ _ pc => exact ⟨rests.calm.1, by simp [pc]⟩
  | heard _ _ _ pc _ _ _ _ waiting => simp [pc, waiting]
  | replied _ _ _ rests _ waiting => exact ⟨rests.calm.1, by simp [waiting]⟩
  | removed _ _ _ rests _ pc => exact ⟨rests.calm.1, by simp [pc]⟩

theorem Placed.received (placed : Placed args bytes done pair) :
    (∃ heard, heard ≤ args.count ∧
      pair.client.received = (List.range heard).map args.serverMessage ∧
      (pair.client.pc = .finished → heard = args.count)) ∧
    (∃ answered, answered ≤ args.count ∧
      pair.server.received = (List.range answered).map args.clientMessage ∧
      (pair.server.pc = .finished → answered = args.count)) := by
  cases placed with
  | idle round _ _ rests inside pc =>
      refine ⟨⟨round, inside.within, rests.received, rests.finished⟩,
        ⟨round, inside.within, inside.received, ?_⟩⟩
      rcases pc with pc | ⟨pc, _⟩ | ⟨pc, _⟩ <;> simp [pc]
  | asked round _ _ rests inside _ pc =>
      exact ⟨⟨round, inside.within, rests.received, rests.finished⟩,
        ⟨round, inside.within, inside.received, by simp [pc]⟩⟩
  | heard round _ _ pc more _ received inside waiting =>
      exact ⟨⟨round + 1, more, received, by simp [pc]⟩,
        ⟨round, inside.within, inside.received, by simp [waiting]⟩⟩
  | replied round _ _ rests inside waiting =>
      have count := rests.count
      exact ⟨⟨round + 1, by omega, rests.received, rests.finished⟩,
        ⟨round, inside.within, inside.received, by simp [waiting]⟩⟩
  | removed _ _ _ rests inside =>
      exact ⟨⟨args.count, Nat.le_refl _, rests.received, fun _ => rfl⟩,
        ⟨args.count, Nat.le_refl _, inside.received, fun _ => rfl⟩⟩

theorem Placed.after_cleanup (placed : Placed args bytes done pair)
    (removed : pair.shared.removed = true) :
    pair.client.pc ≠ .send ∧ pair.client.pc ≠ .receive := by
  cases placed with
  | idle _ _ holds => simp [holds.present] at removed
  | asked _ _ holds => simp [holds.present] at removed
  | heard _ _ holds => simp [holds.present] at removed
  | replied _ _ holds => simp [holds.present] at removed
  | removed _ _ _ rests =>
      have count := rests.count
      rcases rests.pc with pc | ⟨_, more⟩ | ⟨pc, _⟩
      · simp [pc]
      · omega
      · simp [pc]

theorem Placed.not_stranded (placed : Placed args bytes done pair) (space : args.size ≤ bytes)
    (positive : 0 < bytes) :
    ¬Stranded (pair.client.pc = .finished) (pair.client.step args pair.shared = none)
      (pair.server.pc = .finished) (pair.server.step args pair.shared = none) := by
  rintro ⟨running, client, server⟩
  cases placed with
  | idle _ _ holds rests inside pc =>
      rcases pc with pc | ⟨pc, more⟩ | ⟨pc, isOver⟩
      · simp only [pc, reduceCtorEq, QueueServer.step, false_or] at server
        split at server <;> cases server
      · simp [pc, QueueServer.step, holds.sends space positive] at server
      · simp [pc, QueueServer.step, holds.present] at server
  | asked round _ holds rests inside more pc =>
      have count := rests.count
      rcases client with finished | blocked
      · have whole := rests.finished finished
        omega
      · rcases rests.blocked blocked with ⟨receiving, _⟩ | finished
        · simp [QueueClient.step, receiving, holds.server_found] at blocked
        · have whole := rests.finished finished
          omega
  | heard round _ holds pc more count =>
      have own : pair.client.round args = round := by
        simp only [QueueClient.round]
        omega
      simp [pc, QueueClient.step, holds.sends space positive] at client
  | replied _ _ holds rests inside waiting =>
      simp [waiting, QueueServer.step, holds.client_found] at server
  | removed _ _ _ rests inside pc =>
      have count := rests.count
      rcases client with finished | blocked
      · exact running ⟨finished, pc⟩
      · rcases rests.blocked blocked with ⟨_, more⟩ | finished
        · omega
        · exact running ⟨finished, pc⟩

end QueuePair

/-- In every order of the calls there is at most one message in the queue, which the server
finds empty when it sends; nothing fails; all messages pass in the order of the rounds; the
client leaves a removed queue alone; and the two never block each other. -/
theorem mq_takes_turns {args : QueueArguments} {bytes : Nat}
    (space : args.limitMessageSize.size ≤ bytes) (positive : 0 < bytes)
    {trace : List (QueuePair × Peer)} {pair : QueuePair}
    (run : Run (queueMachine args.limitMessageSize)
      (QueuePair.initial args.limitMessageSize bytes) trace pair) :
    pair.shared.messages.length ≤ 1 ∧
    (pair.server.pc = .send → pair.shared.messages = []) ∧
    (pair.client.pc ≠ .failed ∧ pair.server.pc ≠ .failed) ∧
    Follows queueScript (QueuePair.passed args.limitMessageSize trace) ∧
    (∃ heard, heard ≤ args.count ∧
      pair.client.received = (List.range heard).map args.limitMessageSize.serverMessage ∧
      (pair.client.pc = .finished → heard = args.count)) ∧
    (∃ answered, answered ≤ args.count ∧
      pair.server.received = (List.range answered).map args.limitMessageSize.clientMessage ∧
      (pair.server.pc = .finished → answered = args.count)) ∧
    (pair.shared.removed = true → pair.client.pc ≠ .send ∧ pair.client.pc ≠ .receive) ∧
    ¬Stranded (pair.client.pc = .finished)
      (pair.client.step args.limitMessageSize pair.shared = none)
      (pair.server.pc = .finished)
      (pair.server.step args.limitMessageSize pair.shared = none) := by
  obtain ⟨follows, placed⟩ := QueuePair.placed space positive run
  rw [← args.limitMessageSize_count]
  exact ⟨placed.alone.1, placed.alone.2, placed.not_failed, follows, placed.received.1,
    placed.received.2, placed.after_cleanup, placed.not_stranded space positive⟩

theorem mq_takes_turns_oneByte : ∃ trace pair,
    Run (queueMachine (QueueArguments.limitMessageSize ⟨1, 1⟩))
      (QueuePair.initial (QueueArguments.limitMessageSize ⟨1, 1⟩) 1) trace pair ∧
    pair.shared.removed = true ∧ (pair.client.pc ≠ .send ∧ pair.client.pc ≠ .receive) := by
  obtain ⟨trace, pair, run, removed⟩ := exists_run_of_execute
    (queueMachine (QueueArguments.limitMessageSize ⟨1, 1⟩))
    (QueuePair.initial (QueueArguments.limitMessageSize ⟨1, 1⟩) 1)
    [.server, .client, .server, .client, .client, .server, .server, .server, .client]
    (fun result => result.2.shared.removed)
    (by decide)
  have kept := mq_takes_turns (by decide) (by decide) run
  exact ⟨trace, pair, run, removed, kept.2.2.2.2.2.2.1 removed⟩

end IpcBench
