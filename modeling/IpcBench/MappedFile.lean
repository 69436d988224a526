import IpcBench.MappingRounds

/-!
The mmap transport, whose payload begins at the guard: every message overwrites the guard
and every notification the first byte of a message.
-/

namespace IpcBench

open Transition

def Mapping.Stores (mapping : Mapping) (index : Nat) (pair : MappedPair) : Peer → Prop
  | .client => pair.client.pc = .memset index ∧ index < mapping.size
  | .server => pair.server.pc = .memset index ∧ index < mapping.size

def payloadBytes (size : Nat) : List Char :=
  List.replicate size '*'

structure Mapping.Intact (mapping : Mapping) (trace : List (MappedPair × Peer))
    (pair : MappedPair) : Prop where
  client : ∀ copy ∈ pair.client.copies, copy.map Cell.value = payloadBytes mapping.size
  server : ∀ copy ∈ pair.server.copies, copy.map Cell.value = payloadBytes mapping.size
  guard : ∀ index before peer next, (before, peer) ∈ trace → mapping.Stores index before peer →
    mapping.machine.step before peer = some next →
    (next.shared 0).value = (before.shared 0).value

section Guard

variable {size done : Nat} {trace : List (MappedPair × Peer)} {pair next : MappedPair}
  {peer : Peer}

theorem put_overwrites {mapping : Mapping} {message : Peer × Nat} {memory : Memory}
    (atGuard : mapping.payload = 0) : (mapping.put 0 message memory 0).value = '*' := by
  simp [Mapping.put, atGuard]

theorem Mapping.Placed.guard_before {mapping : Mapping} (placed : mapping.Placed done pair)
    (stores : mapping.Stores 0 pair peer) : (pair.shared 0).value ≠ '*' := by
  cases peer with
  | client =>
      obtain ⟨atFirst, inside⟩ := stores
      cases placed with
      | init _ client => simp [client, MappedClient.initial] at atFirst
      | idle _ _ rests => simpa [atFirst, MappedClientPc.inside] using rests.outside
      | asking _ _ _ rests => simpa [atFirst, MappedClientPc.inside] using rests.outside
      | asked _ _ rests => simpa [atFirst, MappedClientPc.inside] using rests.outside
      | hearing _ _ _ _ _ pc => simp [atFirst] at pc
      | copying _ _ _ _ _ _ pc => simp [atFirst] at pc
      | replying _ index _ _ _ _ pc _ _ first =>
          have zero : index = 0 := by simpa [atFirst] using pc.symm
          rw [first zero]
          decide
      | replied _ _ _ _ _ pc => simp [atFirst] at pc
      | answered _ _ rests => simpa [atFirst, MappedClientPc.inside] using rests.outside
      | collecting _ _ _ rests => simpa [atFirst, MappedClientPc.inside] using rests.outside
  | server =>
      obtain ⟨atFirst, inside⟩ := stores
      cases placed with
      | init _ _ server => simp [server, MappedServer.initial] at atFirst
      | idle _ _ _ _ pc => simp [atFirst] at pc
      | asking _ index _ _ _ _ pc _ _ first =>
          have zero : index = 0 := by simpa [atFirst] using pc.symm
          rw [first zero]
          decide
      | asked _ _ _ _ _ pc => simp [atFirst] at pc
      | hearing _ _ _ _ waiting => simp [atFirst] at waiting
      | copying _ _ _ _ _ waiting => simp [atFirst] at waiting
      | replying _ _ _ _ _ waiting => simp [atFirst] at waiting
      | replied _ _ _ _ waiting => simp [atFirst] at waiting
      | answered _ _ _ _ waiting => simp [atFirst] at waiting
      | collecting _ _ _ _ _ pc => simp [atFirst] at pc

theorem guard_after {mapping : Mapping} (atGuard : mapping.payload = 0)
    (stores : mapping.Stores 0 pair peer) (taken : mapping.machine.step pair peer = some next) :
    (next.shared 0).value = '*' := by
  cases peer with
  | client =>
      obtain ⟨atFirst, inside⟩ := stores
      obtain ⟨memory, client, moved, rfl⟩ := Duo.step_client.mp taken
      simp only [MappedClient.step, atFirst, inside, if_true] at moved
      cases moved
      exact put_overwrites atGuard
  | server =>
      obtain ⟨atFirst, inside⟩ := stores
      obtain ⟨memory, server, moved, rfl⟩ := Duo.step_server.mp taken
      simp only [MappedServer.step, atFirst, inside, if_true] at moved
      cases moved
      exact put_overwrites atGuard

theorem mmap_messages_head {count rounds : Nat} {copy : List Cell} (sized : 0 < size)
    (member : copy ∈ (mmap size count).messages peer rounds) :
    (copy.map Cell.value).head? = some (Mapping.signalled peer) := by
  obtain ⟨round, _, rfl⟩ := List.mem_map.mp member
  obtain ⟨rest, rfl⟩ : ∃ rest, size = rest + 1 := ⟨size - 1, by omega⟩
  simp [Mapping.prefixOf, mmap, List.range_succ_eq_map, Mapping.found]

theorem payloadBytes_head (sized : 0 < size) : (payloadBytes size).head? = some '*' := by
  obtain ⟨rest, rfl⟩ : ∃ rest, size = rest + 1 := ⟨size - 1, by omega⟩
  rfl

end Guard

def mmapStarted (size count : Nat) : MappedPair where
  shared := clientNotify zeroFilled
  client := { MappedClient.initial (mmap size count) with pc := .test }
  server := { MappedServer.initial with pc := .memset 0 }

theorem mmapStarted_reached (size : Nat) {count : Nat} (counted : 0 < count) : ∃ trace,
    Run (mmap size count).machine ((mmap size count).initial zeroFilled) trace
      (mmapStarted size count) := by
  have first : (mmap size count).machine.step ((mmap size count).initial zeroFilled) .client =
      some { mmapStarted size count with server := .initial } := rfl
  have second : (mmap size count).machine.step
      { mmapStarted size count with server := .initial } .server =
      some { mmapStarted size count with server := { MappedServer.initial with pc := .test } } := rfl
  have third : (mmap size count).machine.step
      { mmapStarted size count with server := { MappedServer.initial with pc := .test } } .server =
      some (mmapStarted size count) := by
    apply Duo.step_server.mpr
    simp [MappedServer.step, MappedServer.initial, mmap, counted, mmapStarted]
  exact ⟨_, Run.step (Run.step (Run.step Run.start first) second) third⟩

theorem mmap_breaks {size count : Nat} (sized : 0 < size) (counted : 0 < count) : ∃ trace pair,
    Run (mmap size count).machine ((mmap size count).initial zeroFilled) trace pair ∧
    ¬(mmap size count).Intact trace pair := by
  obtain ⟨trace, run⟩ := mmapStarted_reached size counted
  have stores : (mmap size count).Stores 0 (mmapStarted size count) .server := ⟨rfl, sized⟩
  have stored : (mmapStarted size count).server.step (mmap size count)
      (mmapStarted size count).shared =
      some ((mmap size count).put 0 (.server, 0) (clientNotify zeroFilled),
        { MappedServer.initial with pc := .memset 1 }) := if_pos sized
  obtain ⟨next, taken⟩ : ∃ next,
      (mmap size count).machine.step (mmapStarted size count) .server = some next :=
    ⟨_, Duo.step_server.mpr ⟨_, _, stored, rfl⟩⟩
  refine ⟨_, next, Run.step run taken, ?_⟩
  intro intact
  have kept := intact.guard 0 _ .server next (by simp) stores taken
  have notified : ((mmapStarted size count).shared 0).value = 's' := rfl
  rw [guard_after rfl stores taken, notified] at kept
  exact absurd kept (by decide)

/-- For every size and count: some run breaks what is promised of the payload and the
guard. In every run the first byte of every message overwrites the guard, and every
message copied begins with the notification. -/
theorem mmap_payload_meets_guard (size count : Nat) (sized : 0 < size) (counted : 0 < count) :
    (∃ trace pair, Run (mmap size count).machine ((mmap size count).initial zeroFilled) trace pair ∧
      ¬(mmap size count).Intact trace pair) ∧
    ∀ trace pair, Run (mmap size count).machine ((mmap size count).initial zeroFilled) trace pair →
      (∀ before peer next, (before, peer) ∈ trace → (mmap size count).Stores 0 before peer →
        (mmap size count).machine.step before peer = some next →
        (next.shared 0).value ≠ (before.shared 0).value) ∧
      (∀ copy ∈ pair.client.copies, copy.map Cell.value ≠ payloadBytes size) ∧
      (∀ copy ∈ pair.server.copies, copy.map Cell.value ≠ payloadBytes size) := by
  refine ⟨mmap_breaks sized counted, ?_⟩
  intro trace pair run
  obtain ⟨_, placed, _⟩ := Mapping.placed run (by decide)
  obtain ⟨⟨heard, _, heardCopies, _⟩, ⟨answered, _, answeredCopies, _⟩⟩ := placed.copies
  refine ⟨?_, ?_, ?_⟩
  · intro before peer next member stores taken
    obtain ⟨earlier, reached⟩ := run.reached _ member
    obtain ⟨_, placed, _⟩ := Mapping.placed reached (by decide)
    rw [guard_after rfl stores taken]
    exact (placed.guard_before stores).symm
  · intro copy member same
    rw [heardCopies] at member
    have head := mmap_messages_head sized member
    rw [same, payloadBytes_head sized] at head
    exact absurd head (by decide)
  · intro copy member same
    rw [answeredCopies] at member
    have head := mmap_messages_head sized member
    rw [same, payloadBytes_head sized] at head
    exact absurd head (by decide)

theorem mmap_payload_meets_guard_oneByte : ∃ trace pair,
    Run (mmap 1 1).machine ((mmap 1 1).initial zeroFilled) trace pair ∧
    pair.client.copies.length = 1 ∧
    ∀ copy ∈ pair.client.copies, copy.map Cell.value ≠ payloadBytes 1 := by
  obtain ⟨trace, pair, run, copied⟩ := exists_run_of_execute
    (mmap 1 1).machine ((mmap 1 1).initial zeroFilled)
    [.client, .server, .server, .server, .server, .server, .client, .client, .client, .client]
    (fun result => result.2.client.copies.length == 1)
    (by decide)
  have broken := mmap_payload_meets_guard 1 1 (by decide) (by decide)
  exact ⟨trace, pair, run, eq_of_beq copied, (broken.2 trace pair run).2.1⟩

/-- One message of one byte: it replaces the client's notification. -/
theorem mmap_message_replaces_guard : ¬∀ trace pair,
    Run (mmap 1 1).machine ((mmap 1 1).initial zeroFilled) trace pair →
    (mmap 1 1).Intact trace pair := by
  intro intact
  obtain ⟨trace, pair, run, broken⟩ := mmap_breaks Nat.one_pos Nat.one_pos
  exact broken (intact trace pair run)

end IpcBench
