import IpcBench.Mapping

/-!
What the two loops over a mapping are doing at every point of a run: which of them has
the turn, what the memory holds and how far the script of accesses has come. This does
not depend on where the payload lies.
-/

namespace IpcBench

open Transition

namespace Mapping

variable (mapping : Mapping)

/-- The value that a notification leaves in the guard. -/
def signalled : Peer → Char
  | .client => 's'
  | .server => 'c'

def found (message : Peer × Nat) (index : Nat) : Cell :=
  if mapping.payload + index = 0 then ⟨signalled message.1, none⟩ else ⟨'*', some message⟩

def prefixOf (message : Peer × Nat) (length : Nat) : List Cell :=
  (List.range length).map (mapping.found message)

def messages (peer : Peer) (rounds : Nat) : List (List Cell) :=
  (List.range rounds).map fun round => mapping.prefixOf (peer, round) mapping.size

def Written (message : Peer × Nat) (index : Nat) (memory : Memory) : Prop :=
  ∀ earlier, earlier < index → memory (mapping.payload + earlier) = ⟨'*', some message⟩

def Sealed (message : Peer × Nat) (memory : Memory) : Prop :=
  ∀ index, index < mapping.size → memory (mapping.payload + index) = mapping.found message index

structure ClientRests (round : Nat) (client : MappedClient) : Prop where
  pc : client.pc = .test ∨ (client.pc = .wait ∧ 0 < client.count) ∨
    (client.pc = .finished ∧ client.count = 0)
  count : client.count + round = mapping.count
  copies : client.copies = mapping.messages .server round

structure ClientIn (round copied : Nat) (client : MappedClient) : Prop where
  more : 0 < client.count
  count : client.count + round = mapping.count
  copies : client.copies = mapping.messages .server copied

structure ServerIn (round : Nat) (server : MappedServer) : Prop where
  message : server.message = round
  within : round ≤ mapping.count
  copies : server.copies = mapping.messages .client round

inductive Placed : Nat → MappedPair → Prop
  | init (pair) (client : pair.client = .initial mapping) (server : pair.server = .initial) :
      Placed 0 pair
  | idle (round pair) (client : mapping.ClientRests round pair.client)
      (server : mapping.ServerIn round pair.server)
      (pc : pair.server.pc = .start ∨ pair.server.pc = .test ∨
        (pair.server.pc = .finished ∧ round = mapping.count))
      (guard : (pair.shared 0).value = 's') : Placed (8 * round) pair
  | asking (round index pair) (client : mapping.ClientRests round pair.client)
      (server : mapping.ServerIn round pair.server) (more : round < mapping.count)
      (pc : pair.server.pc = .memset index) (inside : index ≤ mapping.size)
      (guard : (pair.shared 0).value ≠ 'c') (first : index = 0 → (pair.shared 0).value = 's')
      (written : mapping.Written (.server, round) index pair.shared) : Placed (8 * round + 1) pair
  | asked (round pair) (client : mapping.ClientRests round pair.client)
      (server : mapping.ServerIn round pair.server) (more : round < mapping.count)
      (pc : pair.server.pc = .notify) (guard : (pair.shared 0).value ≠ 'c')
      (written : mapping.Written (.server, round) mapping.size pair.shared) :
      Placed (8 * round + 2) pair
  | hearing (round pair) (client : mapping.ClientIn round round pair.client)
      (server : mapping.ServerIn round pair.server) (waiting : pair.server.pc = .wait)
      (pc : pair.client.pc = .test ∨ pair.client.pc = .wait)
      (guard : (pair.shared 0).value = 'c')
      (held : mapping.Sealed (.server, round) pair.shared) : Placed (8 * round + 2) pair
  | copying (round index pair) (client : mapping.ClientIn round round pair.client)
      (server : mapping.ServerIn round pair.server) (waiting : pair.server.pc = .wait)
      (pc : pair.client.pc = .memcpy index) (inside : index ≤ mapping.size)
      (guard : (pair.shared 0).value = 'c')
      (held : mapping.Sealed (.server, round) pair.shared)
      (buffer : pair.client.buffer = mapping.prefixOf (.server, round) index) :
      Placed (8 * round + 3) pair
  | replying (round index pair) (client : mapping.ClientIn round (round + 1) pair.client)
      (server : mapping.ServerIn round pair.server) (waiting : pair.server.pc = .wait)
      (pc : pair.client.pc = .memset index) (inside : index ≤ mapping.size)
      (guard : (pair.shared 0).value ≠ 's') (first : index = 0 → (pair.shared 0).value = 'c')
      (written : mapping.Written (.client, round) index pair.shared) : Placed (8 * round + 5) pair
  | replied (round pair) (client : mapping.ClientIn round (round + 1) pair.client)
      (server : mapping.ServerIn round pair.server) (waiting : pair.server.pc = .wait)
      (pc : pair.client.pc = .notify) (guard : (pair.shared 0).value ≠ 's')
      (written : mapping.Written (.client, round) mapping.size pair.shared) :
      Placed (8 * round + 6) pair
  | answered (round pair) (client : mapping.ClientRests (round + 1) pair.client)
      (server : mapping.ServerIn round pair.server) (waiting : pair.server.pc = .wait)
      (guard : (pair.shared 0).value = 's')
      (held : mapping.Sealed (.client, round) pair.shared) : Placed (8 * round + 6) pair
  | collecting (round index pair) (client : mapping.ClientRests (round + 1) pair.client)
      (server : mapping.ServerIn round pair.server) (pc : pair.server.pc = .memcpy index)
      (inside : index ≤ mapping.size) (guard : (pair.shared 0).value = 's')
      (held : mapping.Sealed (.client, round) pair.shared)
      (buffer : pair.server.buffer = mapping.prefixOf (.client, round) index) :
      Placed (8 * round + 7) pair

section Memory

variable {mapping} {message : Peer × Nat} {index : Nat} {memory : Memory} {value : Char}

theorem Written.none : mapping.Written message 0 memory :=
  fun _ below => absurd below (Nat.not_lt_zero _)

theorem Written.put (written : mapping.Written message index memory) :
    mapping.Written message (index + 1) (mapping.put index message memory) := by
  intro earlier below
  by_cases last : earlier = index
  · rw [last, Mapping.put, Function.update_self]
  · rw [Mapping.put, Function.update_of_ne (by omega)]
    exact written earlier (by omega)

theorem Written.notify (written : mapping.Written message mapping.size memory) :
    mapping.Sealed message (guardStore (signalled message.1) memory) := by
  intro index inside
  by_cases first : mapping.payload + index = 0
  · rw [found, if_pos first, guardStore, first, Function.update_self]
  · rw [found, if_neg first, guardStore, Function.update_of_ne first]
    exact written index inside

theorem put_guard (quiet : (memory 0).value ≠ value) (other : '*' ≠ value) :
    (mapping.put index message memory 0).value ≠ value := by
  by_cases first : mapping.payload + index = 0
  · rw [Mapping.put, first, Function.update_self]
    exact other
  · rw [Mapping.put, Function.update_of_ne (Ne.symm first)]
    exact quiet

theorem guardStore_guard (value : Char) (memory : Memory) :
    (guardStore value memory 0).value = value := by
  rw [guardStore, Function.update_self]

theorem prefixOf_succ : mapping.prefixOf message (index + 1) =
    mapping.prefixOf message index ++ [mapping.found message index] := by
  simp [prefixOf, List.range_succ]

theorem messages_succ {peer : Peer} {round : Nat} : mapping.messages peer (round + 1) =
    mapping.messages peer round ++ [mapping.prefixOf (peer, round) mapping.size] := by
  simp [messages, List.range_succ]

end Memory

section Steps

variable {mapping} {round done : Nat} {pair : MappedPair} {memory : Memory}
  {client : MappedClient} {server : MappedServer}

theorem ClientRests.step (rests : mapping.ClientRests round pair.client)
    (quiet : (pair.shared 0).value ≠ 'c')
    (taken : pair.client.step mapping pair.shared = some (memory, client)) :
    mapping.note pair .client = [] ∧ memory = pair.shared ∧ mapping.ClientRests round client := by
  have silent : clientWait pair.shared = false := by simp [clientWait, guardIs, quiet]
  rcases rests.pc with pc | ⟨pc, more⟩ | ⟨pc, isOver⟩
  · simp only [MappedClient.step, pc] at taken
    refine ⟨by simp [note, pc], ?_⟩
    split at taken <;> cases taken
    · rename_i more
      exact ⟨rfl, Or.inr (Or.inl ⟨rfl, more⟩), rests.count, rests.copies⟩
    · rename_i isOver
      exact ⟨rfl, Or.inr (Or.inr ⟨rfl, by simpa using isOver⟩), rests.count, rests.copies⟩
  · simp only [MappedClient.step, pc, silent] at taken
    cases taken
    exact ⟨by simp [note, pc, silent], rfl, rests⟩
  · simp [MappedClient.step, pc] at taken

theorem server_waits (waiting : pair.server.pc = .wait) (quiet : (pair.shared 0).value ≠ 's')
    (taken : pair.server.step mapping pair.shared = some (memory, server)) :
    mapping.note pair .server = [] ∧ memory = pair.shared ∧ server = pair.server := by
  have silent : serverWait pair.shared = false := by simp [serverWait, guardIs, quiet]
  simp only [MappedServer.step, waiting, silent] at taken
  cases taken
  exact ⟨by simp [note, waiting, silent], rfl, rfl⟩

theorem ClientIn.round_eq {copied : Nat} (inside : mapping.ClientIn round copied pair.client) :
    pair.client.round mapping = round := by
  have := inside.count
  simp only [MappedClient.round]
  omega

theorem ClientIn.round_lt {copied : Nat} (inside : mapping.ClientIn round copied client) :
    round < mapping.count := by
  have more := inside.more
  have count := inside.count
  omega

theorem accessScript_eq (round position : Nat) (inside : position < 8) :
    accessScript (8 * round + position) = (accessMove position, round) :=
  rounds_eq accessMove round inside

theorem Placed.client_step (placed : mapping.Placed done pair)
    (taken : pair.client.step mapping pair.shared = some (memory, client)) :
    Continues accessScript done (mapping.note pair .client) ∧
      mapping.Placed (done + (mapping.note pair .client).length)
        { pair with shared := memory, client := client } := by
  cases placed with
  | init _ first server =>
      have pc : pair.client.pc = .init := by rw [first]; rfl
      simp only [MappedClient.step, pc] at taken
      cases taken
      have none : mapping.note pair .client = [] := by simp [note, pc]
      rw [none]
      refine ⟨continues_nil, Placed.idle 0 _ ?_ ?_ ?_ (guardStore_guard 's' pair.shared)⟩
      · exact ⟨Or.inl rfl, by simp [first, MappedClient.initial],
          by simp [first, MappedClient.initial, messages]⟩
      · exact ⟨by simp [server, MappedServer.initial], Nat.zero_le _,
          by simp [server, MappedServer.initial, messages]⟩
      · exact Or.inl (by simp [server, MappedServer.initial])
  | idle round _ rests server pc guard =>
      obtain ⟨none, rfl, kept⟩ := rests.step (by rw [guard]; decide) taken
      rw [none]
      exact ⟨continues_nil, .idle round _ kept server pc guard⟩
  | asking round index _ rests server more pc inside guard first written =>
      obtain ⟨none, rfl, kept⟩ := rests.step guard taken
      rw [none]
      exact ⟨continues_nil, .asking round index _ kept server more pc inside guard first written⟩
  | asked round _ rests server more pc guard written =>
      obtain ⟨none, rfl, kept⟩ := rests.step guard taken
      rw [none]
      exact ⟨continues_nil, .asked round _ kept server more pc guard written⟩
  | hearing round _ inside server waiting pc guard held =>
      rcases pc with pc | pc
      · have none : mapping.note pair .client = [] := by simp [note, pc]
        simp only [MappedClient.step, pc, inside.more, if_true] at taken
        cases taken
        rw [none]
        exact ⟨continues_nil, .hearing round _ ⟨inside.more, inside.count, inside.copies⟩ server
          waiting (Or.inr rfl) guard held⟩
      · have called : clientWait pair.shared = true := by simp [clientWait, guardIs, guard]
        have one : mapping.note pair .client = [(.enter .clientMemcpy, round)] := by
          simp [note, pc, called, inside.round_eq]
        simp only [MappedClient.step, pc, called, if_true] at taken
        cases taken
        rw [one]
        exact ⟨continues_one (accessScript_eq round 2 (by decide)).symm,
          .copying round 0 _ ⟨inside.more, inside.count, inside.copies⟩ server waiting rfl
            (Nat.zero_le _) guard held rfl⟩
  | copying round index _ inside server waiting pc bound guard held buffer =>
      simp only [MappedClient.step, pc] at taken
      split at taken <;> cases taken
      · rename_i more
        have none : mapping.note pair .client = [] := by simp [note, pc, more]
        rw [none]
        refine ⟨continues_nil, .copying round (index + 1) _
          ⟨inside.more, inside.count, inside.copies⟩ server waiting rfl more guard held ?_⟩
        rw [prefixOf_succ, ← held index more, ← buffer]
      · rename_i full
        have two : mapping.note pair .client =
            [(.leave .clientMemcpy, round), (.enter .clientMemset, round)] := by
          simp [note, pc, full, inside.round_eq]
        have whole : index = mapping.size := by omega
        subst whole
        rw [two]
        refine ⟨continues_two (accessScript_eq round 3 (by decide)).symm
          (accessScript_eq round 4 (by decide)).symm,
          .replying round 0 _ ⟨inside.more, inside.count, ?_⟩ server waiting rfl
            (Nat.zero_le _) (by rw [guard]; decide) (fun _ => guard) Written.none⟩
        rw [messages_succ, ← inside.copies, ← buffer]
  | replying round index _ inside server waiting pc bound guard first written =>
      simp only [MappedClient.step, pc, inside.round_eq] at taken
      split at taken <;> cases taken
      · rename_i more
        have none : mapping.note pair .client = [] := by simp [note, pc, more]
        rw [none]
        exact ⟨continues_nil, .replying round (index + 1) _
          ⟨inside.more, inside.count, inside.copies⟩ server waiting rfl more
          (put_guard guard (by decide)) (by simp) written.put⟩
      · rename_i full
        have one : mapping.note pair .client = [(.leave .clientMemset, round)] := by
          simp [note, pc, full, inside.round_eq]
        have whole : index = mapping.size := by omega
        subst whole
        rw [one]
        exact ⟨continues_one (accessScript_eq round 5 (by decide)).symm,
          .replied round _ ⟨inside.more, inside.count, inside.copies⟩ server waiting rfl guard
            written⟩
  | replied round _ inside server waiting pc guard written =>
      have none : mapping.note pair .client = [] := by simp [note, pc]
      have more := inside.more
      have count := inside.count
      simp only [MappedClient.step, pc] at taken
      cases taken
      rw [none]
      refine ⟨continues_nil, .answered round _ ⟨Or.inl rfl, ?_, inside.copies⟩ server waiting
        (guardStore_guard 's' pair.shared) written.notify⟩
      simp only
      omega
  | answered round _ rests server waiting guard held =>
      obtain ⟨none, rfl, kept⟩ := rests.step (by rw [guard]; decide) taken
      rw [none]
      exact ⟨continues_nil, .answered round _ kept server waiting guard held⟩
  | collecting round index _ rests server pc inside guard held buffer =>
      obtain ⟨none, rfl, kept⟩ := rests.step (by rw [guard]; decide) taken
      rw [none]
      exact ⟨continues_nil, .collecting round index _ kept server pc inside guard held buffer⟩

theorem Placed.server_step (placed : mapping.Placed done pair)
    (later : pair.client.pc = .init → (pair.shared 0).value ≠ 's')
    (taken : pair.server.step mapping pair.shared = some (memory, server)) :
    Continues accessScript done (mapping.note pair .server) ∧
      mapping.Placed (done + (mapping.note pair .server).length)
        { pair with shared := memory, server := server } := by
  cases placed with
  | init _ first same =>
      have silent : serverWait pair.shared = false := by
        simp [serverWait, guardIs, later (by rw [first]; rfl)]
      have pc : pair.server.pc = .start := by rw [same]; rfl
      have none : mapping.note pair .server = [] := by simp [note, pc]
      simp only [MappedServer.step, pc, silent] at taken
      cases taken
      rw [none]
      exact ⟨continues_nil, .init _ first same⟩
  | idle round _ rests inside pc guard =>
      rcases pc with pc | pc | ⟨pc, isOver⟩
      · have called : serverWait pair.shared = true := by simp [serverWait, guardIs, guard]
        have none : mapping.note pair .server = [] := by simp [note, pc]
        simp only [MappedServer.step, pc, called, if_true] at taken
        cases taken
        rw [none]
        exact ⟨continues_nil, .idle round _ rests ⟨inside.message, inside.within, inside.copies⟩
          (Or.inr (Or.inl rfl)) guard⟩
      · simp only [MappedServer.step, pc, inside.message] at taken
        split at taken <;> cases taken
        · rename_i more
          have one : mapping.note pair .server = [(.enter .serverMemset, round)] := by
            simp [note, pc, inside.message, more]
          rw [one]
          exact ⟨continues_one (accessScript_eq round 0 (by decide)).symm,
            .asking round 0 _ rests ⟨rfl, inside.within, inside.copies⟩ more rfl
              (Nat.zero_le _) (by rw [guard]; decide) (fun _ => guard) Written.none⟩
        · rename_i isOver
          have none : mapping.note pair .server = [] := by simp [note, pc, inside.message, isOver]
          have within := inside.within
          rw [none]
          exact ⟨continues_nil, .idle round _ rests
            ⟨rfl, inside.within, inside.copies⟩ (Or.inr (Or.inr ⟨rfl, by omega⟩)) guard⟩
      · simp [MappedServer.step, pc] at taken
  | asking round index _ rests inside more pc bound guard first written =>
      simp only [MappedServer.step, pc, inside.message] at taken
      split at taken <;> cases taken
      · rename_i further
        have none : mapping.note pair .server = [] := by simp [note, pc, further]
        rw [none]
        exact ⟨continues_nil, .asking round (index + 1) _ rests
          ⟨rfl, inside.within, inside.copies⟩ more rfl further
          (put_guard guard (by decide)) (by simp) written.put⟩
      · rename_i full
        have one : mapping.note pair .server = [(.leave .serverMemset, round)] := by
          simp [note, pc, inside.message, full]
        have whole : index = mapping.size := by omega
        subst whole
        rw [one]
        exact ⟨continues_one (accessScript_eq round 1 (by decide)).symm,
          .asked round _ rests ⟨rfl, inside.within, inside.copies⟩ more rfl guard
            written⟩
  | asked round _ rests inside more pc guard written =>
      have none : mapping.note pair .server = [] := by simp [note, pc]
      simp only [MappedServer.step, pc] at taken
      cases taken
      rw [none]
      have count := rests.count
      refine ⟨continues_nil, .hearing round _ ⟨by simp only; omega, count, rests.copies⟩
        ⟨inside.message, inside.within, inside.copies⟩ rfl ?_
        (guardStore_guard 'c' pair.shared) written.notify⟩
      rcases rests.pc with pc | ⟨pc, _⟩ | ⟨_, isOver⟩
      · exact Or.inl pc
      · exact Or.inr pc
      · omega
  | hearing round _ inside rests waiting pc guard held =>
      obtain ⟨none, rfl, rfl⟩ := server_waits waiting (by rw [guard]; decide) taken
      rw [none]
      exact ⟨continues_nil, .hearing round _ inside rests waiting pc guard held⟩
  | copying round index _ inside rests waiting pc bound guard held buffer =>
      obtain ⟨none, rfl, rfl⟩ := server_waits waiting (by rw [guard]; decide) taken
      rw [none]
      exact ⟨continues_nil, .copying round index _ inside rests waiting pc bound guard held buffer⟩
  | replying round index _ inside rests waiting pc bound guard first written =>
      obtain ⟨none, rfl, rfl⟩ := server_waits waiting guard taken
      rw [none]
      exact ⟨continues_nil, .replying round index _ inside rests waiting pc bound guard first written⟩
  | replied round _ inside rests waiting pc guard written =>
      obtain ⟨none, rfl, rfl⟩ := server_waits waiting guard taken
      rw [none]
      exact ⟨continues_nil, .replied round _ inside rests waiting pc guard written⟩
  | answered round _ rests inside waiting guard held =>
      have called : serverWait pair.shared = true := by simp [serverWait, guardIs, guard]
      have one : mapping.note pair .server = [(.enter .serverMemcpy, round)] := by
        simp [note, waiting, called, inside.message]
      simp only [MappedServer.step, waiting, called, if_true] at taken
      cases taken
      rw [one]
      exact ⟨continues_one (accessScript_eq round 6 (by decide)).symm,
        .collecting round 0 _ rests ⟨inside.message, inside.within, inside.copies⟩ rfl
          (Nat.zero_le _) guard held rfl⟩
  | collecting round index _ rests inside pc bound guard held buffer =>
      simp only [MappedServer.step, pc] at taken
      split at taken <;> cases taken
      · rename_i more
        have none : mapping.note pair .server = [] := by simp [note, pc, more]
        rw [none]
        refine ⟨continues_nil, .collecting round (index + 1) _ rests
          ⟨inside.message, inside.within, inside.copies⟩ rfl more guard held ?_⟩
        rw [prefixOf_succ, ← held index more, ← buffer]
      · rename_i full
        have one : mapping.note pair .server = [(.leave .serverMemcpy, round)] := by
          simp [note, pc, inside.message, full]
        have whole : index = mapping.size := by omega
        subst whole
        have count := rests.count
        rw [one]
        refine ⟨continues_one (accessScript_eq round 7 (by decide)).symm,
          .idle (round + 1) _ rests ⟨by simp only [inside.message], by omega, ?_⟩
            (Or.inr (Or.inl rfl)) guard⟩
        rw [messages_succ, ← inside.copies, ← buffer]

theorem client_started {after : Memory} {place : MappedClient}
    (taken : client.step mapping memory = some (after, place)) : place.pc ≠ .init := by
  intro pc
  unfold MappedClient.step at taken
  split at taken
  · cases taken
    cases pc
  · split at taken <;> cases taken <;> cases pc
  · split at taken <;> cases taken
    · cases pc
    · simp_all
  · split at taken <;> cases taken <;> cases pc
  · split at taken <;> cases taken <;> cases pc
  · cases taken
    cases pc
  · cases taken

theorem accesses_step (trace : List (MappedPair × Peer)) (pair : MappedPair) (peer : Peer) :
    mapping.accesses (trace ++ [(pair, peer)]) = mapping.accesses trace ++ mapping.note pair peer := by
  simp [accesses]

inductive Sides (mapping : Mapping) (pair : MappedPair) : Prop
  | apart (client : pair.client = .initial mapping) (server : pair.server = .initial)
  | resting (heard answered : Nat) (client : mapping.ClientRests heard pair.client)
      (server : mapping.ServerIn answered pair.server) (order : answered ≤ heard)
      (start : pair.server.pc = .start → answered = heard)
      (finished : pair.server.pc = .finished → answered = mapping.count)
  | busy (round copied : Nat) (client : mapping.ClientIn round copied pair.client)
      (server : mapping.ServerIn round pair.server) (waiting : pair.server.pc = .wait)
      (within : copied ≤ mapping.count) (pc : pair.client.pc ≠ .init ∧ pair.client.pc ≠ .finished)

theorem Placed.sides (placed : mapping.Placed done pair) : mapping.Sides pair := by
  cases placed with
  | init _ client server => exact .apart client server
  | idle round _ rests server pc =>
      refine .resting round round rests server (Nat.le_refl _) (fun _ => rfl) ?_
      intro finished
      simpa [finished] using pc
  | asking round _ _ rests server _ pc =>
      exact .resting round round rests server (Nat.le_refl _) (fun _ => rfl) (by simp [pc])
  | asked round _ rests server _ pc =>
      exact .resting round round rests server (Nat.le_refl _) (fun _ => rfl) (by simp [pc])
  | hearing round _ inside server waiting pc =>
      refine .busy round round inside server waiting server.within ?_
      rcases pc with pc | pc <;> simp [pc]
  | copying round _ _ inside server waiting pc =>
      exact .busy round round inside server waiting server.within (by simp [pc])
  | replying round _ _ inside server waiting pc =>
      exact .busy round (round + 1) inside server waiting inside.round_lt (by simp [pc])
  | replied round _ inside server waiting pc =>
      exact .busy round (round + 1) inside server waiting inside.round_lt (by simp [pc])
  | answered round _ rests server waiting =>
      exact .resting (round + 1) round rests server (Nat.le_succ _) (by simp [waiting])
        (by simp [waiting])
  | collecting round _ _ rests server pc =>
      exact .resting (round + 1) round rests server (Nat.le_succ _) (by simp [pc]) (by simp [pc])

theorem ClientRests.started (rests : mapping.ClientRests round client) : client.pc ≠ .init := by
  rcases rests.pc with pc | ⟨pc, _⟩ | ⟨pc, _⟩ <;> simp [pc]

theorem Placed.start (placed : mapping.Placed done pair) (pc : pair.client.pc = .init) :
    pair.server = .initial := by
  cases placed.sides with
  | apart _ server => exact server
  | resting _ _ rests => exact absurd pc rests.started
  | busy _ _ _ _ _ _ other => exact absurd pc other.1

theorem placed {start : Memory} {trace : List (MappedPair × Peer)}
    (run : Run mapping.machine (mapping.initial start) trace pair)
    (quiet : (start 0).value ≠ 's') :
    Follows accessScript (mapping.accesses trace) ∧
      mapping.Placed (mapping.accesses trace).length pair ∧
      (pair.client.pc = .init → (pair.shared 0).value ≠ 's') := by
  induction run with
  | start => exact ⟨follows_nil, .init _ rfl rfl, fun _ => quiet⟩
  | step before taken ih =>
      rename_i trace pair peer next
      obtain ⟨follows, placed, later⟩ := ih
      rw [accesses_step, List.length_append]
      cases peer with
      | client =>
          obtain ⟨memory, client, moved, rfl⟩ := Duo.step_client.mp taken
          obtain ⟨continues, reached⟩ := placed.client_step moved
          exact ⟨follows.append continues, reached, fun pc => absurd pc (client_started moved)⟩
      | server =>
          obtain ⟨memory, server, moved, rfl⟩ := Duo.step_server.mp taken
          obtain ⟨continues, reached⟩ := placed.server_step later moved
          refine ⟨follows.append continues, reached, ?_⟩
          intro pc
          have first := placed.start pc
          have silent : serverWait pair.shared = false := by
            simp [serverWait, guardIs, later pc]
          simp only [MappedServer.step, first, MappedServer.initial, silent] at moved
          cases moved
          exact later pc

end Steps

section Consequences

variable {mapping} {round done : Nat} {pair : MappedPair} {client : MappedClient}

theorem ClientRests.outside (rests : mapping.ClientRests round client) :
    client.pc.inside = false := by
  rcases rests.pc with pc | ⟨pc, _⟩ | ⟨pc, _⟩ <;> rw [pc] <;> rfl

theorem ClientRests.finished (rests : mapping.ClientRests round client)
    (pc : client.pc = .finished) : round = mapping.count := by
  have count := rests.count
  rcases rests.pc with other | ⟨other, _⟩ | ⟨_, isOver⟩
  · cases pc.symm.trans other
  · cases pc.symm.trans other
  · omega

theorem ClientRests.heard_le (rests : mapping.ClientRests round client) :
    round ≤ mapping.count := by
  have count := rests.count
  omega

theorem Placed.exclusive (placed : mapping.Placed done pair) :
    ¬(pair.client.pc.inside = true ∧ pair.server.pc.inside = true) := by
  rintro ⟨clientInside, serverInside⟩
  cases placed.sides with
  | apart client => simp [client, MappedClient.initial, MappedClientPc.inside] at clientInside
  | resting _ _ rests => simp [rests.outside] at clientInside
  | busy _ _ _ _ waiting => simp [waiting, MappedServerPc.inside] at serverInside

theorem Placed.copies (placed : mapping.Placed done pair) :
    (∃ heard, heard ≤ mapping.count ∧ pair.client.copies = mapping.messages .server heard ∧
      (pair.client.pc = .finished → heard = mapping.count)) ∧
    (∃ answered, answered ≤ mapping.count ∧
      pair.server.copies = mapping.messages .client answered ∧
      (pair.server.pc = .finished → answered = mapping.count)) := by
  cases placed.sides with
  | apart client server =>
      rw [client, server]
      exact ⟨⟨0, Nat.zero_le _, rfl, by simp [MappedClient.initial]⟩,
        ⟨0, Nat.zero_le _, rfl, by simp [MappedServer.initial]⟩⟩
  | resting heard answered rests server _ _ finished =>
      exact ⟨⟨heard, rests.heard_le, rests.copies, rests.finished⟩,
        ⟨answered, server.within, server.copies, finished⟩⟩
  | busy round copied inside server waiting within pc =>
      exact ⟨⟨copied, within, inside.copies, fun finished => absurd finished pc.2⟩,
        ⟨round, server.within, server.copies, by simp [waiting]⟩⟩

theorem Placed.client_complete (placed : mapping.Placed done pair)
    (pc : pair.client.pc = .finished) : pair.client.count = 0 := by
  cases placed.sides with
  | apart client => simp [client, MappedClient.initial] at pc
  | resting heard _ rests =>
      have count := rests.count
      have whole := rests.finished pc
      omega
  | busy _ _ _ _ _ _ other => exact absurd pc other.2

theorem Placed.server_complete (placed : mapping.Placed done pair)
    (pc : pair.server.pc = .finished) : pair.server.message = mapping.count := by
  cases placed.sides with
  | apart _ server => simp [server, MappedServer.initial] at pc
  | resting _ _ _ server _ _ finished => rw [server.message, finished pc]
  | busy _ _ _ _ waiting => simp [pc] at waiting

theorem Placed.not_spins (placed : mapping.Placed done pair) : ¬Spins pair := by
  rintro ⟨running, client, server⟩
  cases placed with
  | init _ first => simp [first, MappedClient.initial] at client
  | idle _ _ rests _ pc guard =>
      rcases pc with pc | pc | ⟨pc, isOver⟩
      · simp [pc, serverWait, guardIs, guard] at server
      · simp [pc] at server
      · have count := rests.count
        rcases rests.pc with other | ⟨_, more⟩ | ⟨other, _⟩
        · simp [other] at client
        · omega
        · exact running ⟨other, pc⟩
  | asking _ _ _ _ _ _ pc => simp [pc] at server
  | asked _ _ _ _ _ pc => simp [pc] at server
  | hearing _ _ _ _ _ pc guard =>
      rcases pc with pc | pc
      · simp [pc] at client
      · simp [pc, clientWait, guardIs, guard] at client
  | copying _ _ _ _ _ _ pc => simp [pc] at client
  | replying _ _ _ _ _ _ pc => simp [pc] at client
  | replied _ _ _ _ _ pc => simp [pc] at client
  | answered _ _ _ _ waiting guard => simp [waiting, serverWait, guardIs, guard] at server
  | collecting _ _ _ _ _ pc => simp [pc] at server

theorem Placed.server_of_finished (placed : mapping.Placed done pair)
    (pc : pair.client.pc = .finished) (counted : 0 < mapping.count) :
    pair.server ≠ .initial := by
  intro same
  cases placed.sides with
  | apart client => simp [client, MappedClient.initial] at pc
  | resting heard answered rests server _ start =>
      have whole := rests.finished pc
      have message := server.message
      have none := start (by rw [same]; rfl)
      simp only [same, MappedServer.initial] at message
      omega
  | busy _ _ _ _ _ _ other => exact absurd pc other.2

theorem Placed.server_of_inside (placed : mapping.Placed done pair)
    (inside : pair.client.pc.inside = true) : pair.server.pc = .wait := by
  cases placed.sides with
  | apart client => simp [client, MappedClient.initial, MappedClientPc.inside] at inside
  | resting _ _ rests => simp [rests.outside] at inside
  | busy _ _ _ _ waiting => exact waiting

theorem Placed.with_memory (placed : mapping.Placed done pair) (same : pair.server = .initial)
    {memory : Memory} (guard : memory 0 = pair.shared 0) :
    mapping.Placed done { pair with shared := memory } := by
  cases placed with
  | init _ client server => exact .init _ client server
  | idle round _ rests server pc called =>
      exact .idle round _ rests server pc (by simp only [guard]; exact called)
  | asking _ _ _ _ _ _ serverPc => simp [same, MappedServer.initial] at serverPc
  | asked _ _ _ _ _ serverPc => simp [same, MappedServer.initial] at serverPc
  | hearing _ _ _ _ waiting => simp [same, MappedServer.initial] at waiting
  | copying _ _ _ _ _ waiting => simp [same, MappedServer.initial] at waiting
  | replying _ _ _ _ _ waiting => simp [same, MappedServer.initial] at waiting
  | replied _ _ _ _ waiting => simp [same, MappedServer.initial] at waiting
  | answered _ _ _ _ waiting => simp [same, MappedServer.initial] at waiting
  | collecting _ _ _ _ _ serverPc => simp [same, MappedServer.initial] at serverPc

theorem Placed.message_le (placed : mapping.Placed done pair) :
    pair.server.message ≤ mapping.count - pair.client.count := by
  cases placed.sides with
  | apart _ server => simp [server, MappedServer.initial]
  | resting heard answered rests server order =>
      have count := rests.count
      have message := server.message
      omega
  | busy round _ inside server =>
      have count := inside.count
      have message := server.message
      omega

end Consequences

end Mapping

end IpcBench
