import IpcBench.Pair
import IpcBench.Stamps

/-!
The latencies of the tcp client. It stamps the requests that its window lacks before it
knows how much its `send` will accept, so stamps and requests keep together exactly as
long as every iteration begins the requests it has stamped.
-/

namespace IpcBench

open Words Transition Stretches

variable {Byte : Type} {config : Config}

namespace Client

/-- Stamps belong to the requests they time: after each iteration as many requests are
counted as sent as have had a byte handed over; every converted entry was stamped in the
iteration that handed over the first byte of its request, and is converted once; and at the
exit every entry that is left is a converted latency. -/
structure StampsBelong (config : Config) (trace : List (Client Byte × Action Byte))
    (client : Client Byte) : Prop where
  sent : client.pc = .loop → client.numReqsSent = bytesSent trace ⌈/⌉ config.size
  converted : ∀ conversion ∈ (ledger config.arguments trace).conversions,
    ∀ index < config.count, conversion.Covers index →
      (∃ stamp ∈ (ledger config.arguments trace).stamps, stamp.Covers index ∧
        stamp.label.iteration < conversion.label.iteration ∧
        WrittenIn (ledger config.arguments trace).writes stamp.label.iteration
          (config.size * index)) ∧
      (ledger config.arguments trace).conversions.countP
        (fun conversion => conversion.Covers index) = 1
  ended : client.pc = .exit → ∀ index : Nat, index < client.count →
    ∃ conversion ∈ (ledger config.arguments trace).conversions,
      ∃ stamp ∈ (ledger config.arguments trace).stamps,
        conversion.Covers index ∧ stamp.Covers index ∧
        stamp.label.time ≤ conversion.label.time ∧
        client.times.getD index 0 = conversion.label.time - stamp.label.time

variable {memory : ClientMemory Byte config} {trace : List (Client Byte × Action Byte)}
  {client next : Client Byte} {action : Action Byte} {received sent : Nat}

theorem Step.of_accepted {amount : Nat} (taken : Step config.arguments client action next)
    (ended : client.accepted config.arguments action = some amount) :
    client.pc.stamped = true ∧ client.pc.pushed = amount ∧ action.sent = 0 ∧
      next.pc = .loop ∧ next.numReqsSent = client.numReqsSent := by
  cases taken with
  | skipWrite time canWrite pc skipped =>
      simp only [accepted, pc, Option.ite_none_left_eq_some, Option.some.injEq] at ended
      exact ⟨by simp [pc, ClientPc.stamped], by simp [pc, ClientPc.pushed, ended.2], rfl, rfl, rfl⟩
  | accountWrite time info pc =>
      simp only [accepted, pc, Option.some.injEq] at ended
      exact ⟨by simp [pc, ClientPc.stamped], by simp [pc, ClientPc.pushed, ended], rfl, rfl, rfl⟩
  | startWrite time pc room running =>
      simp [accepted, pc, running] at ended
      rw [Config.maxOutstandingBytes_eq] at room
      omega
  | enter time pc | finish time pc | skipRead time canRead canWrite pc
  | readNothing time canWrite pc | startRead time canWrite pc
  | accountRead time canWrite info pc | stamp time canWrite pc => simp [accepted, pc] at ended
  | _ => simp [accepted] at ended

theorem Step.loop_inv (taken : Step config.arguments client action next)
    (loop : next.pc = .loop) :
    (client.pc = .loop ∧ action = .signal ∧ next.numReqsSent = client.numReqsSent) ∨
      ∃ amount, client.accepted config.arguments action = some amount := by
  cases taken with
  | signal => exact Or.inl ⟨loop, rfl, rfl⟩
  | skipWrite time canWrite pc skipped =>
      refine Or.inr ⟨0, ?_⟩
      simp only [accepted, pc]
      rw [if_neg]
      rintro ⟨writable, room, running⟩
      rcases skipped with refused | full | quit
      · simp [writable] at refused
      · omega
      · simp [running] at quit
  | accountWrite time info pc => exact Or.inr ⟨info.totalBytes, by simp [accepted, pc]⟩
  | _ => simp [goto, leave] at loop

/-- At the end of an iteration the requests that were sent agree exactly if the bytes that
were accepted begin the requests that were stamped. -/
theorem Timed.sent_iff {Fits : Nat → Nat → Nat → Prop} {log : Ledger} {seen : List Nat}
    {amount : Nat} (timed : Timed Fits config log seen client) (written : log.written = sent)
    (balanced : Balanced config received sent client)
    (taken : Step config.arguments client action next)
    (ended : client.accepted config.arguments action = some amount) :
    next.numReqsSent = (sent + action.sent) ⌈/⌉ config.size ↔
      Begins config.size (sent - amount) amount (config.rate - client.outstandingReqs) := by
  obtain ⟨stamped, pushed, none, _, same⟩ := taken.of_accepted ended
  have balance := balanced.balance
  have fetched := balanced.fetched
  have running : ¬client.Finished config := not_finished_of_stamped stamped
  have total := timed.sent running
  rw [written, pushed, ahead, if_pos stamped] at total
  rw [begins_iff config.size_pos, same, total, none, Nat.add_zero,
    Nat.sub_add_cancel (by omega)]
  exact eq_comm

theorem Timed.stampsBelong (timed : Timed (Begins config.size) config
      (ledger config.arguments trace) (readings trace) client)
    (logged : Logged config (ledger config.arguments trace) client)
    (sent : client.pc = .loop → client.numReqsSent = bytesSent trace ⌈/⌉ config.size) :
    client.StampsBelong config trace where
  sent := sent
  converted := by
    intro conversion member index below covers
    obtain ⟨stamp, stampMember, times, _⟩ := timed.converted conversion member index below covers
    obtain ⟨before, accepted, begins, start, handed⟩ := times.settled
    have before_le : before ≤ config.size * (before ⌈/⌉ config.size) :=
      (ceilDiv_le_iff_le_mul config.size_pos).mp (Nat.le_refl _)
    have reached := (begins_iff config.size_pos).mp begins
    have stamped := times.covers
    refine ⟨⟨stamp, stampMember, stamped, times.earlier, handed _ ?_ ?_⟩, ?_⟩
    · have first : before ⌈/⌉ config.size ≤ index := start ▸ stamped.1
      exact Nat.le_trans before_le (Nat.mul_le_mul_left _ first)
    · have last : index < (before + accepted) ⌈/⌉ config.size := by
        rw [reached, ← start]
        exact stamped.2
      exact (lt_ceilDiv_iff config.size_pos).mp last
    · rw [logged.conversions.countP_covers, if_pos (logged.conversions.lt_of_covers member covers)]
  ended := by
    intro exit index below
    rw [logged.counted exit] at below
    have answered : index < client.numReqsRead := by omega
    obtain ⟨conversion, member, covers⟩ := logged.conversions.exists_covers answered
    obtain ⟨stamp, stampMember, times, value⟩ :=
      timed.converted conversion member index (by omega) covers
    exact ⟨conversion, member, stamp, stampMember, covers, times.covers, times.ordered, value⟩

section Runs

theorem Timed.ofBegins
    (run : Run (machine config.arguments) (Client.initial memory) trace client)
    (clock : ClockRises trace)
    (begins : Throughout (EndsWith (Begins config.size) config) trace) :
    Timed (Begins config.size) config (ledger config.arguments trace) (readings trace) client := by
  refine Timed.run (fun _ _ _ => (begins_iff config.size_pos).mp) run clock ?_
  intro earlier state action later split
  exact Or.inr (begins earlier state action later split)

theorem StampsBelong.run
    (run : Run (machine config.arguments) (Client.initial memory) trace client)
    (clock : ClockRises trace)
    (begins : Throughout (EndsWith (Begins config.size) config) trace) :
    Throughout (fun earlier client _ => client.StampsBelong config earlier) trace ∧
      client.StampsBelong config trace := by
  induction run with
  | start =>
      refine ⟨throughout_nil, ?_⟩
      have run : Run (machine config.arguments) (Client.initial memory) []
        (Client.initial memory) := Run.start
      have timed := Timed.ofBegins run clock throughout_nil
      exact timed.stampsBelong (Logged.initial memory) (fun _ => by simp [Client.initial])
  | step run taken ih =>
      rename_i trace client action next
      obtain ⟨earlier, last⟩ := throughout_step.mp begins
      have old := ih clock.earlier earlier
      have timed := Timed.ofBegins run clock.earlier earlier
      have own := step_inv taken
      have after := Run.step run taken
      refine ⟨throughout_step.mpr old, ?_⟩
      refine (Timed.ofBegins after clock begins).stampsBelong (Logged.run after) ?_
      intro loop
      rw [bytesSent_step]
      rcases own.loop_inv loop with ⟨before, signal, same⟩ | ⟨amount, ended⟩
      · rw [same, signal]
        exact old.2.sent before
      · exact (timed.sent_iff (ledger_written _ _) (Balanced.run run) own ended).mpr
          (last amount ended)

theorem StampsBelong.begins
    (run : Run (machine config.arguments) (Client.initial memory) trace client)
    (clock : ClockRises trace)
    (belong : Throughout (fun earlier client _ => client.StampsBelong config earlier) trace)
    (last : client.StampsBelong config trace) :
    Throughout (EndsWith (Begins config.size) config) trace := by
  induction run with
  | start => exact throughout_nil
  | step run taken ih =>
      rename_i trace client action next
      obtain ⟨earlier, before⟩ := throughout_step.mp belong
      have old := ih clock.earlier earlier before
      have timed := Timed.ofBegins run clock.earlier old
      have own := step_inv taken
      refine throughout_step.mpr ⟨old, ?_⟩
      intro amount ended
      have sent := last.sent (own.of_accepted ended).2.2.2.1
      rw [bytesSent_step] at sent
      exact (timed.sent_iff (ledger_written _ _) (Balanced.run run) own ended).mp sent

end Runs

end Client

/-- In a run of the tcp client, whatever its polls report and its transfers move: stamps
belong to their requests in every state reached if and only if in every iteration the bytes
that `send` accepts (none where the write is skipped) reach into the last of the requests by
which the window falls short of its rate, and not beyond. -/
theorem tcp_stamps_belong_iff {memory : ClientMemory Byte config}
    {trace : List (Client Byte × Action Byte)} {client : Client Byte}
    (run : Run (Client.machine config.arguments) (Client.initial memory) trace client)
    (clock : ClockRises trace) :
    (Throughout (fun earlier client _ => Client.StampsBelong config earlier client) trace ∧
        client.StampsBelong config trace) ↔
      Throughout (Client.EndsWith (Begins config.size) config) trace := by
  constructor
  · rintro ⟨belong, last⟩
    exact Client.StampsBelong.begins run clock belong last
  · exact Client.StampsBelong.run run clock

/-- One request of two bytes, answered four ticks after it was stamped. -/
theorem tcp_stamps_belong_iff_answered : ∃ trace client,
    Run (Client.machine Config.twoBytes.arguments)
      (Client.initial (Setup.uniform Config.twoBytes (0 : Nat) 2).clientMemory) trace client ∧
    (client.pc = .exit ∧ client.times = [4]) ∧
    client.StampsBelong Config.twoBytes trace := by
  obtain ⟨trace, client, run, reached⟩ := exists_run_of_execute
    (Client.machine Config.twoBytes.arguments)
    (Client.initial (Setup.uniform Config.twoBytes (0 : Nat) 2).clientMemory)
    [.advance 0, .poll (some (false, true)), .advance 1, .advance 3, .advance 3, .send 2,
      .advance 4, .advance 4, .poll (some (true, true)), .advance 5, .recv [0, 0], .advance 7,
      .advance 8, .advance 8, .send 2, .advance 9, .advance 9]
    (fun result => decide (ClockRises result.1) &&
      decide (Throughout (Client.EndsWith (Begins 2) Config.twoBytes) result.1) &&
      (result.2.pc == .exit && result.2.times == [4]))
    (by decide)
  simp only [Bool.and_eq_true, decide_eq_true_eq, beq_iff_eq] at reached
  obtain ⟨⟨clock, begins⟩, ended⟩ := reached
  exact ⟨trace, client, run, ended, ((tcp_stamps_belong_iff run clock).mpr begins).2⟩

/-- `send` accepts one byte of a request of two: the request is not counted, and the next
iteration stamps another one while it sends the second byte. -/
theorem tcp_stamps_stray : ∃ trace client,
    Run (Client.machine Config.twoBytes.arguments)
      (Client.initial (Setup.uniform Config.twoBytes (0 : Nat) 2).clientMemory) trace client ∧
    ClockRises trace ∧ ¬client.StampsBelong Config.twoBytes trace := by
  obtain ⟨trace, client, run, reached⟩ := exists_run_of_execute
    (Client.machine Config.twoBytes.arguments)
    (Client.initial (Setup.uniform Config.twoBytes (0 : Nat) 2).clientMemory)
    [.advance 0, .poll (some (false, true)), .advance 1, .advance 2, .advance 3, .send 1, .stop,
      .advance 4, .advance 5, .poll (some (false, true)), .advance 6, .advance 7, .advance 8,
      .send 1, .advance 9]
    (fun result => decide (ClockRises result.1) && (result.2.pc == .loop &&
      result.2.numReqsSent == 2 && bytesSent result.1 == 2))
    (by decide)
  simp only [Bool.and_eq_true, decide_eq_true_eq, beq_iff_eq] at reached
  obtain ⟨clock, ⟨pc, stamped⟩, bytes⟩ := reached
  refine ⟨trace, client, run, clock, ?_⟩
  intro belong
  have sent := belong.sent pc
  rw [stamped, bytes] at sent
  exact absurd sent (by decide)

end IpcBench
