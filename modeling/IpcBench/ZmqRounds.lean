import IpcBench.ZeroMq

/-!
The zeromq transport in rounds: the client and the server call their sockets in the order that
requests and replies ask for.
-/

namespace IpcBench

open Transition Requests

namespace ZmqPair

section Messages

variable (args : QueueArguments) {clientBuffer message buffer : List Char} {round : Nat}

@[simp] theorem stars_length : (stars args).length = args.size :=
  List.length_replicate

theorem zmqRequest_succ : zmqRequest args clientBuffer (round + 1) = stars args :=
  if_neg (Nat.succ_ne_zero round)

theorem zmqRequest_length (whole : clientBuffer.length = args.size) :
    (zmqRequest args clientBuffer round).length = args.size := by
  unfold zmqRequest
  split
  · exact whole
  · exact stars_length args

theorem recvInto_whole (same : message.length = buffer.length) :
    recvInto message buffer = message := by
  unfold recvInto
  rw [← same, List.take_length, same, List.drop_length, List.append_nil]

end Messages

section Rounds

variable {Link : Type} (view : Link → Exchange (List Char)) (args : QueueArguments)
  (clientBuffer : List Char)

structure ClientRests (round : Nat) (client : ZmqClient) : Prop where
  pc : client.pc = .test ∨ (client.pc = .send ∧ round < args.count) ∨
    (client.pc = .finished ∧ round = args.count)
  message : client.message = round
  within : round ≤ args.count
  buffer : client.buffer = zmqRequest args clientBuffer round
  received : client.received = List.replicate round (stars args)

structure ClientWaits (round : Nat) (client : ZmqClient) : Prop where
  pc : client.pc = .receive
  message : client.message = round
  more : round < args.count
  buffer : client.buffer = zmqRequest args clientBuffer round
  received : client.received = List.replicate round (stars args)

structure ServerRests (round : Nat) (server : ZmqServer) : Prop where
  pc : server.pc = .test ∨ (server.pc = .receive ∧ round < args.count) ∨
    (server.pc = .finished ∧ round = args.count)
  count : server.count + round = args.count
  received : server.received = (List.range round).map (zmqRequest args clientBuffer)

structure ServerReplies (round : Nat) (server : ZmqServer) : Prop where
  pc : server.pc = .send
  count : server.count + round = args.count
  buffer : server.buffer = stars args
  received : server.received = (List.range (round + 1)).map (zmqRequest args clientBuffer)

inductive Placed : Nat → ZmqPair Link → Prop
  | idle (round pair) (link : view pair.shared = ⟨[], [], true, false⟩)
      (client : ClientRests args clientBuffer round pair.client)
      (server : ServerRests args clientBuffer round pair.server) : Placed (4 * round) pair
  | asked (round pair)
      (link : view pair.shared = ⟨[zmqRequest args clientBuffer round], [], false, false⟩)
      (client : ClientWaits args clientBuffer round pair.client)
      (server : ServerRests args clientBuffer round pair.server) : Placed (4 * round + 1) pair
  | heard (round pair) (link : view pair.shared = ⟨[], [], false, true⟩)
      (client : ClientWaits args clientBuffer round pair.client)
      (server : ServerReplies args clientBuffer round pair.server) : Placed (4 * round + 2) pair
  | replied (round pair) (link : view pair.shared = ⟨[], [stars args], false, false⟩)
      (client : ClientWaits args clientBuffer round pair.client)
      (server : ServerRests args clientBuffer (round + 1) pair.server) :
      Placed (4 * round + 3) pair

variable {view args clientBuffer} {sockets : Sockets (List Char) Link} {round done : Nat}
  {pair : ZmqPair Link} {link : Link} {client : ZmqClient} {server : ZmqServer}

theorem zmqScript_eq (round position : Nat) (inside : position < 4) :
    zmqScript (4 * round + position) = (zmqMove position, round) :=
  rounds_eq zmqMove round inside

theorem placed_initial (fresh : view link = .initial) (serverBuffer : List Char) :
    Placed view args clientBuffer 0 (initial args link clientBuffer serverBuffer) :=
  .idle 0 _ fresh ⟨Or.inl rfl, rfl, Nat.zero_le _, rfl, rfl⟩ ⟨Or.inl rfl, rfl, rfl⟩

theorem ClientWaits.blocked (waits : ClientWaits args clientBuffer round pair.client)
    (conforms : sockets.Conforms view) (none : (view pair.shared).replies = [])
    (turn : (view pair.shared).clientSends = false) :
    pair.client.step sockets args pair.shared = Option.none := by
  have blocked : sockets.receive .client pair.shared = .waits :=
    conforms.receive_waits (by simp [Exchange.receive, none, turn])
  simp [ZmqClient.step, waits.pc, blocked]

theorem ServerRests.test (rests : ServerRests args clientBuffer round pair.server)
    (pc : pair.server.pc = .test) (taken : pair.server.step sockets args pair.shared = some (link, server)) :
    pair.note sockets args .server = [] ∧ link = pair.shared ∧
      ServerRests args clientBuffer round server := by
  have count := rests.count
  simp only [ZmqServer.step, pc] at taken
  refine ⟨by simp [note, pc], ?_⟩
  split at taken
  · cases taken
    exact ⟨rfl, Or.inr (Or.inl ⟨rfl, by omega⟩), count, rests.received⟩
  · cases taken
    exact ⟨rfl, Or.inr (Or.inr ⟨rfl, by omega⟩), count, rests.received⟩

theorem ServerRests.step (rests : ServerRests args clientBuffer round pair.server)
    (conforms : sockets.Conforms view) (none : (view pair.shared).requests = [])
    (turn : (view pair.shared).serverSends = false)
    (taken : pair.server.step sockets args pair.shared = some (link, server)) :
    pair.note sockets args .server = [] ∧ link = pair.shared ∧
      ServerRests args clientBuffer round server := by
  rcases rests.pc with pc | ⟨pc, _⟩ | ⟨pc, _⟩
  · exact rests.test pc taken
  · have blocked : sockets.receive .server pair.shared = .waits :=
      conforms.receive_waits (by simp [Exchange.receive, none, turn])
    simp [ZmqServer.step, pc, blocked] at taken
  · simp [ZmqServer.step, pc] at taken

theorem ClientRests.sends (rests : ClientRests args clientBuffer round pair.client)
    (conforms : sockets.Conforms view) (whole : clientBuffer.length = args.size)
    (idle : view pair.shared = ⟨[], [], true, false⟩) (pc : pair.client.pc = .send) :
    ∃ link, sockets.send .client pair.client.buffer pair.shared = .done link ∧
      view link = ⟨[zmqRequest args clientBuffer round], [], false, false⟩ ∧
      pair.client.step sockets args pair.shared =
        some (link, { pair.client with pc := .receive }) := by
  obtain ⟨link, sent, same⟩ := conforms.send_done (by rw [idle]; rfl)
    (show (view pair.shared).send pair.client.buffer .client = _ by rw [idle]; rfl)
  have length : pair.client.buffer.length = args.size := by
    rw [rests.buffer]
    exact zmqRequest_length args whole
  refine ⟨link, sent, ?_, ?_⟩
  · rw [same, rests.buffer]
    rfl
  · simp [ZmqClient.step, pc, sent, length]

theorem ClientWaits.receives (waits : ClientWaits args clientBuffer round pair.client)
    (conforms : sockets.Conforms view) (whole : clientBuffer.length = args.size)
    (replied : view pair.shared = ⟨[], [stars args], false, false⟩) :
    ∃ link, sockets.receive .client pair.shared = .done (stars args, link) ∧
      view link = ⟨[], [], true, false⟩ ∧
      pair.client.step sockets args pair.shared = some (link, {
        pc := .test
        message := round + 1
        buffer := stars args
        received := List.replicate (round + 1) (stars args) }) := by
  obtain ⟨link, received, same⟩ := conforms.receive_done
    (show (view pair.shared).receive .client = _ by rw [replied]; rfl)
  have buffer : (stars args).length = pair.client.buffer.length := by
    rw [waits.buffer, zmqRequest_length args whole, stars_length]
  refine ⟨link, received, same, ?_⟩
  simp [ZmqClient.step, waits.pc, received, recvInto_whole buffer, waits.message, waits.received,
    List.replicate_succ']

theorem ServerRests.receives (rests : ServerRests args clientBuffer round pair.server)
    (conforms : sockets.Conforms view) (whole : clientBuffer.length = args.size)
    (asked : view pair.shared = ⟨[zmqRequest args clientBuffer round], [], false, false⟩)
    (pc : pair.server.pc = .receive) :
    ∃ link, sockets.receive .server pair.shared =
        .done (zmqRequest args clientBuffer round, link) ∧
      view link = ⟨[], [], false, true⟩ ∧
      pair.server.step sockets args pair.shared = some (link, { pair.server with
        pc := .send
        buffer := stars args
        received := (List.range (round + 1)).map (zmqRequest args clientBuffer) }) := by
  obtain ⟨link, received, same⟩ := conforms.receive_done
    (show (view pair.shared).receive .server = _ by rw [asked]; rfl)
  refine ⟨link, received, same, ?_⟩
  simp [ZmqServer.step, pc, received, zmqRequest_length args whole, rests.received, stars,
    List.range_succ]

theorem ServerReplies.sends (replies : ServerReplies args clientBuffer round pair.server)
    (conforms : sockets.Conforms view) (heard : view pair.shared = ⟨[], [], false, true⟩) :
    ∃ link, sockets.send .server pair.server.buffer pair.shared = .done link ∧
      view link = ⟨[], [stars args], false, false⟩ ∧
      pair.server.step sockets args pair.shared = some (link, { pair.server with
        pc := .test, count := pair.server.count - 1 }) := by
  obtain ⟨link, sent, same⟩ := conforms.send_done (by rw [heard]; rfl)
    (show (view pair.shared).send pair.server.buffer .server = _ by rw [heard]; rfl)
  have length : pair.server.buffer.length = args.size := by
    rw [replies.buffer, stars_length]
  refine ⟨link, sent, ?_, ?_⟩
  · rw [same, replies.buffer]
    rfl
  · simp [ZmqServer.step, replies.pc, sent, length]

theorem Placed.client_step (placed : Placed view args clientBuffer done pair)
    (conforms : sockets.Conforms view) (whole : clientBuffer.length = args.size)
    (taken : pair.client.step sockets args pair.shared = some (link, client)) :
    Continues zmqScript done (pair.note sockets args .client) ∧
      Placed view args clientBuffer (done + (pair.note sockets args .client).length)
        { pair with shared := link, client := client } := by
  cases placed with
  | idle round _ idle rests server =>
      rcases rests.pc with pc | ⟨pc, more⟩ | ⟨pc, _⟩
      · have none : pair.note sockets args .client = [] := by simp [note, pc]
        have message := rests.message
        have within := rests.within
        simp only [ZmqClient.step, pc] at taken
        rw [none]
        refine ⟨continues_nil, ?_⟩
        split at taken
        · cases taken
          exact .idle round _ idle ⟨Or.inr (Or.inl ⟨rfl, by omega⟩), message, within, rests.buffer,
            rests.received⟩ server
        · cases taken
          exact .idle round _ idle ⟨Or.inr (Or.inr ⟨rfl, by omega⟩), message, within, rests.buffer,
            rests.received⟩ server
      · obtain ⟨next, sent, asked, stepped⟩ := rests.sends conforms whole idle pc
        have one : pair.note sockets args .client = [(.sent .client, round)] := by
          simp [note, pc, sent, rests.message]
        rw [stepped] at taken
        cases taken
        rw [one]
        exact ⟨continues_one (zmqScript_eq round 0 (by omega)).symm,
          .asked round _ asked ⟨rfl, rests.message, more, rests.buffer, rests.received⟩ server⟩
      · simp [ZmqClient.step, pc] at taken
  | asked round _ asked waits server =>
      rw [waits.blocked conforms (by rw [asked]) (by rw [asked])] at taken
      cases taken
  | heard round _ heard waits server =>
      rw [waits.blocked conforms (by rw [heard]) (by rw [heard])] at taken
      cases taken
  | replied round _ replied waits server =>
      obtain ⟨next, received, idle, stepped⟩ := waits.receives conforms whole replied
      have one : pair.note sockets args .client = [(.received .client, round)] := by
        simp [note, waits.pc, received, waits.message]
      rw [stepped] at taken
      cases taken
      rw [one]
      exact ⟨continues_one (zmqScript_eq round 3 (by omega)).symm,
        .idle (round + 1) _ idle ⟨Or.inl rfl, rfl, waits.more, (zmqRequest_succ args).symm, rfl⟩
          server⟩

theorem Placed.server_step (placed : Placed view args clientBuffer done pair)
    (conforms : sockets.Conforms view) (whole : clientBuffer.length = args.size)
    (taken : pair.server.step sockets args pair.shared = some (link, server)) :
    Continues zmqScript done (pair.note sockets args .server) ∧
      Placed view args clientBuffer (done + (pair.note sockets args .server).length)
        { pair with shared := link, server := server } := by
  cases placed with
  | idle round _ idle client rests =>
      obtain ⟨none, rfl, kept⟩ := rests.step conforms (by rw [idle]) (by rw [idle]) taken
      rw [none]
      exact ⟨continues_nil, .idle round _ idle client kept⟩
  | asked round _ asked waits rests =>
      have more := waits.more
      rcases rests.pc with pc | ⟨pc, _⟩ | ⟨_, isOver⟩
      · obtain ⟨none, rfl, kept⟩ := rests.test pc taken
        rw [none]
        exact ⟨continues_nil, .asked round _ asked waits kept⟩
      · obtain ⟨next, received, heard, stepped⟩ := rests.receives conforms whole asked pc
        have count := rests.count
        have own : args.count - pair.server.count = round := by omega
        have one : pair.note sockets args .server = [(.received .server, round)] := by
          simp [note, pc, received, own]
        rw [stepped] at taken
        cases taken
        rw [one]
        exact ⟨continues_one (zmqScript_eq round 1 (by omega)).symm,
          .heard round _ heard waits ⟨rfl, count, rfl, rfl⟩⟩
      · omega
  | heard round _ heard waits replies =>
      obtain ⟨next, sent, replied, stepped⟩ := replies.sends conforms heard
      have count := replies.count
      have more := waits.more
      have own : args.count - pair.server.count = round := by omega
      have one : pair.note sockets args .server = [(.sent .server, round)] := by
        simp [note, replies.pc, sent, own]
      rw [stepped] at taken
      cases taken
      rw [one]
      refine ⟨continues_one (zmqScript_eq round 2 (by omega)).symm,
        .replied round _ replied waits ⟨Or.inl rfl, ?_, replies.received⟩⟩
      simp only
      omega
  | replied round _ replied waits rests =>
      obtain ⟨none, rfl, kept⟩ := rests.step conforms (by rw [replied]) (by rw [replied]) taken
      rw [none]
      exact ⟨continues_nil, .replied round _ replied waits kept⟩

theorem passed_step (trace : List (ZmqPair Link × Peer)) (pair : ZmqPair Link) (peer : Peer) :
    passed sockets args (trace ++ [(pair, peer)]) =
      passed sockets args trace ++ pair.note sockets args peer := by
  simp [passed]

theorem placed {serverBuffer : List Char} {trace : List (ZmqPair Link × Peer)}
    (conforms : sockets.Conforms view) (whole : clientBuffer.length = args.size)
    (fresh : view link = .initial)
    (run : Run (zmqMachine sockets args) (initial args link clientBuffer serverBuffer) trace pair) :
    Follows zmqScript (passed sockets args trace) ∧
      Placed view args clientBuffer (passed sockets args trace).length pair := by
  induction run with
  | start => exact ⟨follows_nil, placed_initial fresh serverBuffer⟩
  | step before taken ih =>
      obtain ⟨follows, placed⟩ := ih
      rw [passed_step, List.length_append]
      rename_i trace pair peer next
      cases peer with
      | client =>
          obtain ⟨link, client, moved, rfl⟩ := Duo.step_client.mp taken
          obtain ⟨continues, reached⟩ := placed.client_step conforms whole moved
          exact ⟨follows.append continues, reached⟩
      | server =>
          obtain ⟨link, server, moved, rfl⟩ := Duo.step_server.mp taken
          obtain ⟨continues, reached⟩ := placed.server_step conforms whole moved
          exact ⟨follows.append continues, reached⟩

theorem Placed.not_failed (placed : Placed view args clientBuffer done pair) :
    pair.client.pc ≠ .failed ∧ pair.server.pc ≠ .failed := by
  have clientRests : ∀ {round client}, ClientRests args clientBuffer round client →
      client.pc ≠ .failed := by
    intro round client rests
    rcases rests.pc with pc | ⟨pc, _⟩ | ⟨pc, _⟩ <;> simp [pc]
  have serverRests : ∀ {round server}, ServerRests args clientBuffer round server →
      server.pc ≠ .failed := by
    intro round server rests
    rcases rests.pc with pc | ⟨pc, _⟩ | ⟨pc, _⟩ <;> simp [pc]
  cases placed with
  | idle _ _ _ client server => exact ⟨clientRests client, serverRests server⟩
  | asked _ _ _ waits server => exact ⟨by simp [waits.pc], serverRests server⟩
  | heard _ _ _ waits replies => exact ⟨by simp [waits.pc], by simp [replies.pc]⟩
  | replied _ _ _ waits server => exact ⟨by simp [waits.pc], serverRests server⟩

theorem Placed.alone (placed : Placed view args clientBuffer done pair) :
    (view pair.shared).requests.length + (view pair.shared).replies.length ≤ 1 := by
  cases placed with
  | idle _ _ link => simp [link]
  | asked _ _ link => simp [link]
  | heard _ _ link => simp [link]
  | replied _ _ link => simp [link]

theorem Placed.received (placed : Placed view args clientBuffer done pair) :
    (∃ heard, heard ≤ args.count ∧ pair.client.received = List.replicate heard (stars args) ∧
      (pair.client.pc = .finished → heard = args.count)) ∧
    (∃ answered, answered ≤ args.count ∧
      pair.server.received = (List.range answered).map (zmqRequest args clientBuffer) ∧
      (pair.server.pc = .finished → answered = args.count)) := by
  have serverRests : ∀ {round server}, ServerRests args clientBuffer round server →
      ∃ answered, answered ≤ args.count ∧
        server.received = (List.range answered).map (zmqRequest args clientBuffer) ∧
        (server.pc = .finished → answered = args.count) := by
    intro round server rests
    have count := rests.count
    refine ⟨round, by omega, rests.received, ?_⟩
    rcases rests.pc with pc | ⟨pc, _⟩ | ⟨pc, isOver⟩ <;> simp [pc]
    exact isOver
  have clientWaits : ∀ {round client}, ClientWaits args clientBuffer round client →
      ∃ heard, heard ≤ args.count ∧ client.received = List.replicate heard (stars args) ∧
        (client.pc = .finished → heard = args.count) := by
    intro round client waits
    exact ⟨round, Nat.le_of_lt waits.more, waits.received, by simp [waits.pc]⟩
  cases placed with
  | idle round _ _ client server =>
      refine ⟨⟨round, client.within, client.received, ?_⟩, serverRests server⟩
      rcases client.pc with pc | ⟨pc, _⟩ | ⟨pc, isOver⟩ <;> simp [pc]
      exact isOver
  | asked _ _ _ waits server => exact ⟨clientWaits waits, serverRests server⟩
  | heard round _ _ waits replies =>
      have count := replies.count
      have more := waits.more
      exact ⟨clientWaits waits, round + 1, more, replies.received, by simp [replies.pc]⟩
  | replied _ _ _ waits server => exact ⟨clientWaits waits, serverRests server⟩

theorem Placed.not_stranded (placed : Placed view args clientBuffer done pair)
    (conforms : sockets.Conforms view) (whole : clientBuffer.length = args.size) :
    ¬Stranded (pair.client.pc = .finished) (pair.client.step sockets args pair.shared = none)
      (pair.server.pc = .finished) (pair.server.step sockets args pair.shared = none) := by
  rintro ⟨running, client, server⟩
  cases placed with
  | idle round _ idle rests waits =>
      have count := waits.count
      have clientDone : pair.client.pc = .finished := by
        rcases rests.pc with pc | ⟨pc, _⟩ | ⟨pc, _⟩
        · rcases client with finished | blocked
          · exact finished
          · simp only [ZmqClient.step, pc] at blocked
            split at blocked <;> cases blocked
        · obtain ⟨_, _, _, stepped⟩ := rests.sends conforms whole idle pc
          rcases client with finished | blocked
          · exact finished
          · cases stepped.symm.trans blocked
        · exact pc
      have all : round = args.count := by
        rcases rests.pc with pc | ⟨pc, _⟩ | ⟨_, isOver⟩
        · cases pc.symm.trans clientDone
        · cases pc.symm.trans clientDone
        · exact isOver
      rcases waits.pc with pc | ⟨_, more⟩ | ⟨pc, _⟩
      · rcases server with finished | blocked
        · cases pc.symm.trans finished
        · simp only [ZmqServer.step, pc] at blocked
          split at blocked <;> cases blocked
      · omega
      · exact running ⟨clientDone, pc⟩
  | asked round _ asked waits rests =>
      have more := waits.more
      rcases rests.pc with pc | ⟨pc, _⟩ | ⟨_, isOver⟩
      · rcases server with finished | blocked
        · cases pc.symm.trans finished
        · simp only [ZmqServer.step, pc] at blocked
          split at blocked <;> cases blocked
      · obtain ⟨_, _, _, stepped⟩ := rests.receives conforms whole asked pc
        rcases server with finished | blocked
        · cases pc.symm.trans finished
        · cases stepped.symm.trans blocked
      · omega
  | heard _ _ heard waits replies =>
      obtain ⟨_, _, _, stepped⟩ := replies.sends conforms heard
      rcases server with finished | blocked
      · cases replies.pc.symm.trans finished
      · cases stepped.symm.trans blocked
  | replied _ _ replied waits rests =>
      obtain ⟨_, _, _, stepped⟩ := waits.receives conforms whole replied
      rcases client with finished | blocked
      · cases waits.pc.symm.trans finished
      · cases stepped.symm.trans blocked

/-! How much is left to do. -/

def clientWork (args : QueueArguments) (client : ZmqClient) : Nat :=
  match client.pc with
  | .test => 3 * (args.count - client.message) + 1
  | .send => 3 * (args.count - client.message)
  | .receive => 3 * (args.count - client.message) - 1
  | .finished => 0
  | .failed => 0

def serverWork (server : ZmqServer) : Nat :=
  match server.pc with
  | .test => 3 * server.count + 1
  | .receive => 3 * server.count
  | .send => 3 * server.count - 1
  | .finished => 0
  | .failed => 0

theorem Placed.busy (placed : Placed view args clientBuffer done pair) :
    (pair.client.pc = .send ∨ pair.client.pc = .receive → pair.client.message < args.count) ∧
    (pair.server.pc = .receive ∨ pair.server.pc = .send → 0 < pair.server.count) := by
  have serverRests : ∀ {round server}, ServerRests args clientBuffer round server →
      (server.pc = .receive ∨ server.pc = .send → 0 < server.count) := by
    intro round server rests
    have count := rests.count
    rcases rests.pc with pc | ⟨_, more⟩ | ⟨pc, _⟩
    · simp [pc]
    · intro _
      omega
    · simp [pc]
  have clientWaits : ∀ {round client}, ClientWaits args clientBuffer round client →
      (client.pc = .send ∨ client.pc = .receive → client.message < args.count) := by
    intro round client waits _
    rw [waits.message]
    exact waits.more
  cases placed with
  | idle _ _ _ rests server =>
      refine ⟨?_, serverRests server⟩
      rw [rests.message]
      rcases rests.pc with pc | ⟨_, more⟩ | ⟨pc, _⟩
      · simp [pc]
      · exact fun _ => more
      · simp [pc]
  | asked _ _ _ waits server => exact ⟨clientWaits waits, serverRests server⟩
  | heard _ _ _ waits replies =>
      have count := replies.count
      have more := waits.more
      exact ⟨clientWaits waits, fun _ => by omega⟩
  | replied _ _ _ waits server => exact ⟨clientWaits waits, serverRests server⟩

theorem client_lowers
    (busy : pair.client.pc = .send ∨ pair.client.pc = .receive → pair.client.message < args.count)
    (taken : pair.client.step sockets args pair.shared = some (link, client)) :
    clientWork args client < clientWork args pair.client := by
  cases pc : pair.client.pc with
  | test =>
      simp only [ZmqClient.step, pc] at taken
      split at taken <;> cases taken <;> simp only [clientWork, pc] <;> omega
  | send =>
      have more := busy (Or.inl pc)
      simp only [ZmqClient.step, pc] at taken
      split at taken
      · split at taken <;> cases taken <;> simp only [clientWork, pc] <;> omega
      · cases taken
      · cases taken
        simp only [clientWork, pc]
        omega
  | receive =>
      have more := busy (Or.inr pc)
      simp only [ZmqClient.step, pc] at taken
      split at taken
      · split at taken <;> cases taken <;> simp only [clientWork, pc] <;> omega
      · cases taken
      · cases taken
        simp only [clientWork, pc]
        omega
  | finished => simp [ZmqClient.step, pc] at taken
  | failed => simp [ZmqClient.step, pc] at taken

theorem server_lowers
    (busy : pair.server.pc = .receive ∨ pair.server.pc = .send → 0 < pair.server.count)
    (taken : pair.server.step sockets args pair.shared = some (link, server)) :
    serverWork server < serverWork pair.server := by
  cases pc : pair.server.pc with
  | test =>
      simp only [ZmqServer.step, pc] at taken
      split at taken <;> cases taken <;> simp only [serverWork, pc] <;> omega
  | receive =>
      have more := busy (Or.inl pc)
      simp only [ZmqServer.step, pc] at taken
      split at taken
      · split at taken <;> cases taken <;> simp only [serverWork, pc] <;> omega
      · cases taken
      · cases taken
        simp only [serverWork, pc]
        omega
  | send =>
      have more := busy (Or.inr pc)
      simp only [ZmqServer.step, pc] at taken
      split at taken
      · split at taken <;> cases taken <;> simp only [serverWork, pc] <;> omega
      · cases taken
      · cases taken
        simp only [serverWork, pc]
        omega
  | finished => simp [ZmqServer.step, pc] at taken
  | failed => simp [ZmqServer.step, pc] at taken

theorem ends {serverBuffer : List Char} (conforms : sockets.Conforms view)
    (whole : clientBuffer.length = args.size) (fresh : view link = .initial) :
    (zmqMachine sockets args).Ends (initial args link clientBuffer serverBuffer)
      fun pair => pair.client.pc = .finished ∧ pair.server.pc = .finished := by
  apply ends_of_measure (fun pair => ∃ done, Placed view args clientBuffer done pair)
    fun pair => clientWork args pair.client + serverWork pair.server
  · exact ⟨0, placed_initial fresh serverBuffer⟩
  · rintro pair peer next ⟨done, placed⟩ taken
    cases peer with
    | client =>
        obtain ⟨link, client, moved, rfl⟩ := Duo.step_client.mp taken
        have lower := client_lowers placed.busy.1 moved
        exact ⟨⟨_, (placed.client_step conforms whole moved).2⟩, by simp only; omega⟩
    | server =>
        obtain ⟨link, server, moved, rfl⟩ := Duo.step_server.mp taken
        have lower := server_lowers placed.busy.2 moved
        exact ⟨⟨_, (placed.server_step conforms whole moved).2⟩, by simp only; omega⟩
  · rintro pair ⟨done, placed⟩
    have free := placed.not_stranded conforms whole
    refine Classical.byContradiction fun stuck => free ?_
    rw [not_or] at stuck
    obtain ⟨running, stuck⟩ := stuck
    refine ⟨running, Or.inr ?_, Or.inr ?_⟩
    · refine Option.eq_none_iff_forall_not_mem.mpr ?_
      rintro ⟨link, client⟩ moved
      exact stuck ⟨.client, _, Duo.step_client.mpr ⟨link, client, moved, rfl⟩⟩
    · refine Option.eq_none_iff_forall_not_mem.mpr ?_
      rintro ⟨link, server⟩ moved
      exact stuck ⟨.server, _, Duo.step_server.mpr ⟨link, server, moved, rfl⟩⟩

end Rounds

end ZmqPair

/-- Over any sockets that conform to an exchange, in every order of the calls: no call is made
out of turn or fails; the calls are completed in the order of the rounds; at most one message is
under way; the server receives the client's first buffer and then stars, and the client stars;
and every run comes to the end of both. -/
theorem zeromq_exchanges {Link : Type} {sockets : Sockets (List Char) Link}
    {view : Link → Exchange (List Char)} {args : QueueArguments} {link : Link}
    {clientBuffer serverBuffer : List Char} (conforms : sockets.Conforms view)
    (fresh : view link = .initial) (whole : clientBuffer.length = args.size)
    {trace : List (ZmqPair Link × Peer)} {pair : ZmqPair Link}
    (run : Run (zmqMachine sockets args) (ZmqPair.initial args link clientBuffer serverBuffer)
      trace pair) :
    (pair.client.pc ≠ .failed ∧ pair.server.pc ≠ .failed) ∧
    Follows zmqScript (ZmqPair.passed sockets args trace) ∧
    (view pair.shared).requests.length + (view pair.shared).replies.length ≤ 1 ∧
    (∃ heard, heard ≤ args.count ∧ pair.client.received = List.replicate heard (stars args) ∧
      (pair.client.pc = .finished → heard = args.count)) ∧
    (∃ answered, answered ≤ args.count ∧
      pair.server.received = (List.range answered).map (zmqRequest args clientBuffer) ∧
      (pair.server.pc = .finished → answered = args.count)) ∧
    (zmqMachine sockets args).Ends (ZmqPair.initial args link clientBuffer serverBuffer)
      (fun pair => pair.client.pc = .finished ∧ pair.server.pc = .finished) := by
  obtain ⟨follows, placed⟩ := ZmqPair.placed conforms whole fresh run
  exact ⟨placed.not_failed, follows, placed.alone, placed.received.1, placed.received.2,
    ZmqPair.ends conforms whole fresh⟩

/-- Two rounds over the exchange itself. -/
theorem zeromq_exchanges_twice : ∃ trace pair,
    Run (zmqMachine .plain ⟨1, 2⟩) (ZmqPair.initial ⟨1, 2⟩ .initial ['a'] ['b']) trace pair ∧
      (pair.client.pc = .finished ∧ pair.server.pc = .finished ∧
        pair.server.received = [['a'], ['*']]) ∧
      Follows zmqScript (ZmqPair.passed .plain ⟨1, 2⟩ trace) := by
  obtain ⟨trace, pair, run, finished⟩ := exists_run_of_execute
    (zmqMachine .plain ⟨1, 2⟩) (ZmqPair.initial ⟨1, 2⟩ .initial ['a'] ['b'])
    [.client, .client, .server, .server, .server, .client, .client, .client, .server, .server,
      .server, .client, .client, .server]
    (fun result => result.2.client.pc == .finished && result.2.server.pc == .finished &&
      result.2.server.received == [['a'], ['*']])
    (by decide)
  simp only [Bool.and_eq_true, beq_iff_eq, and_assoc] at finished
  have kept := zeromq_exchanges Sockets.plain_conforms rfl rfl run
  exact ⟨trace, pair, run, finished, kept.2.1⟩

end IpcBench
