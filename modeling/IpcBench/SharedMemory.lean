import IpcBench.MappingRounds

/-!
The shm transport, whose payload lies behind the guard: every message is handed over
whole, once and in its turn.
-/

namespace IpcBench

open Transition

def wholeMessage (size : Nat) (peer : Peer) (round : Nat) : List Cell :=
  List.replicate size ⟨'*', some (peer, round)⟩

theorem shm_messages (size count : Nat) (peer : Peer) (rounds : Nat) :
    (shm size count).messages peer rounds = (List.range rounds).map (wholeMessage size peer) := by
  unfold Mapping.messages
  apply List.map_congr_left
  intro round _
  unfold Mapping.prefixOf wholeMessage
  rw [List.eq_replicate_iff]
  constructor
  · simp [shm]
  · intro cell member
    obtain ⟨index, _, rfl⟩ := List.mem_map.mp member
    simp [Mapping.found, shm]

variable {size count : Nat} {trace : List (MappedPair × Peer)} {pair : MappedPair}

theorem zeroFilled_quiet : (zeroFilled 0).value ≠ 's' := by
  decide

/-- Never are both processes in the payload; the accesses follow each other round by round;
each side has the messages of the other, all of them in the end; and nobody spins for good. -/
theorem shm_takes_turns
    (run : Run (shm size count).machine ((shm size count).initial zeroFilled) trace pair) :
    ¬(pair.client.pc.inside = true ∧ pair.server.pc.inside = true) ∧
    Follows accessScript ((shm size count).accesses trace) ∧
    (∃ heard, heard ≤ count ∧
      pair.client.copies = (List.range heard).map (wholeMessage size .server) ∧
      (pair.client.pc = .finished → heard = count)) ∧
    (∃ answered, answered ≤ count ∧
      pair.server.copies = (List.range answered).map (wholeMessage size .client) ∧
      (pair.server.pc = .finished → answered = count)) ∧
    ¬Mapping.Spins pair := by
  obtain ⟨follows, placed, _⟩ := Mapping.placed run zeroFilled_quiet
  obtain ⟨heard, answered⟩ := placed.copies
  simp only [shm_messages] at heard answered
  exact ⟨placed.exclusive, follows, heard, answered, placed.not_spins⟩

theorem shm_takes_turns_oneByte : ∃ trace pair,
    Run (shm 1 1).machine ((shm 1 1).initial zeroFilled) trace pair ∧
    (pair.client.pc = .finished ∧ pair.server.pc = .finished) ∧
    Follows accessScript ((shm 1 1).accesses trace) := by
  obtain ⟨trace, pair, run, finished⟩ := exists_run_of_execute
    (shm 1 1).machine ((shm 1 1).initial zeroFilled)
    [.server, .client, .server, .server, .client, .client, .server, .server, .server, .client,
      .client, .client, .client, .client, .client, .server, .server, .server, .server, .client]
    (fun result => result.2.client.pc == .finished && result.2.server.pc == .finished)
    (by decide)
  simp only [Bool.and_eq_true, beq_iff_eq] at finished
  exact ⟨trace, pair, run, finished, (shm_takes_turns run).2.1⟩

end IpcBench
