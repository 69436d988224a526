import IpcBench.BlockingStamps
import IpcBench.Stays
import Mathlib.Algebra.BigOperators.Fin
import Mathlib.Algebra.Order.Field.Rat
import Mathlib.Tactic.FieldSimp

/-!
How many requests a client of a blocking transport has under way at a time, and what that
says about the latencies it reports.
-/

namespace IpcBench

open Transition Stretches Stays

variable {Byte : Type} {config : Config} {transport : Transport}

/-- The mean that `analyze_array` computes in microseconds, here without rounding. -/
def meanLatency (array : List Nat) : ℚ :=
  (array.map fun entry : Nat => (entry : ℚ) / array.length / 1000).sum

/-- `(mean / rate) * size`. -/
def expectedTotalTime (array : List Nat) (rate : Nat) : ℚ :=
  meanLatency array / rate * array.length

/-- The conversions of a client follow on its stamps: what is stamped beyond a conversion is
stamped after it. -/
structure Paced (config : Config) (ledger : Ledger) (seen : List Nat) : Prop where
  clock : ∀ conversion ∈ ledger.conversions, conversion.label.time ∈ seen
  short : ∀ conversion ∈ ledger.conversions, conversion.length ≤ config.rate
  apart : ∀ conversion ∈ ledger.conversions, ∀ stamp ∈ ledger.stamps, ∀ index,
    stamp.Covers index → conversion.start + conversion.length ≤ index →
      conversion.label.time ≤ stamp.label.time

structure Client.Drains (config : Config) (ledger : Ledger) (client : Client Byte)
    (info : MetaData) : Prop where
  short : info.wholeReqs ≤ config.rate
  all : ∀ stamp ∈ ledger.stamps, ∀ index, stamp.Covers index →
    index < client.numReqsRead + info.wholeReqs

section Ledgers

variable {log : Ledger} {seen later : List Nat} {client : Client Byte} {action : Action Byte}

theorem Paced.initial : Paced config Ledger.empty [] where
  clock := by simp [Ledger.empty]
  short := by simp [Ledger.empty]
  apart := by simp [Ledger.empty]

theorem Paced.keep (paced : Paced config log seen) {next : Ledger}
    (more : ∀ time ∈ seen, time ∈ later) (stamps : next.stamps = log.stamps)
    (conversions : next.conversions = log.conversions) : Paced config next later where
  clock := by
    rw [conversions]
    intro conversion member
    exact more _ (paced.clock conversion member)
  short := by
    rw [conversions]
    exact paced.short
  apart := by
    rw [conversions, stamps]
    exact paced.apart

theorem Paced.convert (paced : Paced config log seen) {info : MetaData} {time : Nat}
    (more : ∀ time ∈ seen, time ∈ later) (now : time ∈ later)
    (drains : client.Drains config log info) :
    Paced config { log with conversions := log.conversions ++
      [⟨⟨log.iteration, time⟩, client.numReqsRead, info.wholeReqs⟩] } later where
  clock := by
    intro conversion member
    rcases List.mem_append.mp member with old | new
    · exact more _ (paced.clock conversion old)
    · rw [List.mem_singleton.mp new]
      exact now
  short := by
    intro conversion member
    rcases List.mem_append.mp member with old | new
    · exact paced.short conversion old
    · rw [List.mem_singleton.mp new]
      exact drains.short
  apart := by
    intro conversion member stamp stamped index covers beyond
    rcases List.mem_append.mp member with old | new
    · exact paced.apart conversion old stamp stamped index covers beyond
    · rw [List.mem_singleton.mp new] at beyond
      have inside := drains.all stamp stamped index covers
      exact absurd beyond (Nat.not_le_of_lt inside)

theorem Paced.stamp (paced : Paced config log seen) {time length : Nat}
    (more : ∀ time ∈ seen, time ∈ later) (latest : ∀ earlier ∈ seen, earlier ≤ time) :
    Paced config { log with stamps := log.stamps ++
      [⟨⟨log.iteration, time⟩, client.numReqsSent, length⟩] } later where
  clock := fun conversion member => more _ (paced.clock conversion member)
  short := paced.short
  apart := by
    intro conversion member stamp stamped index covers beyond
    rcases List.mem_append.mp stamped with old | new
    · exact paced.apart conversion member stamp old index covers beyond
    · rw [List.mem_singleton.mp new]
      exact latest _ (paced.clock conversion member)

theorem Paced.step (paced : Paced config log seen) (more : ∀ time ∈ seen, time ∈ later)
    (latest : ∀ time, action = .advance time → (∀ earlier ∈ seen, earlier ≤ time) ∧ time ∈ later)
    (drains : ∀ canWrite info, client.pc = .readDone canWrite info →
      client.Drains config log info) :
    Paced config (log.note config.arguments client action) later := by
  cases action with
  | advance time =>
      obtain ⟨rises, now⟩ := latest time rfl
      cases pc : client.pc with
      | readDone canWrite info =>
          simp only [Ledger.note, pc]
          exact paced.convert more now (drains canWrite info pc)
      | stamp canWrite =>
          simp only [Ledger.note, pc]
          split
          · exact paced.stamp more rises
          · exact paced.keep more rfl rfl
      | _ =>
          simp only [Ledger.note, pc]
          exact paced.keep more rfl rfl
  | poll ready => exact paced.keep more rfl rfl
  | send amount => exact paced.keep more rfl rfl
  | _ => exact paced.keep more rfl rfl

end Ledgers

theorem Client.Windowed.drains {log : Ledger} {seen : List Nat} {client : Client Byte}
    {received sent : Nat} {left : Bool} {canWrite : Bool} {info : MetaData}
    (windowed : client.Windowed config left) (windows : client.InWindows config left)
    (timed : Client.Timed (Whole config.size) config log seen client)
    (balanced : client.Balanced config received sent) (written : log.written = sent)
    (pc : client.pc = .readDone canWrite info) : client.Drains config log info := by
  have running := balanced.running (by simp [pc, ClientPc.beforeRead])
  have requests := windowed.requests fun _ => running
  have answered := windowed.answered
  have everything := windows.readAll canWrite info pc
  have stamped := timed.sent (Client.not_finished (by simp [pc]) (by simp [pc]))
  have read := balanced.read
  have balance := balanced.balance
  have window := balanced.window
  have helper := balanced.helper
  simp only [pc, ClientPc.fetched, ClientPc.pushed, ClientPc.HelperOk, MetaData.Consistent,
    Client.ahead, ClientPc.stamped, Bool.false_eq_true, if_false, Nat.add_zero, Nat.sub_zero,
    written] at read balance window helper stamped
  have whole : info.wholeReqs = client.outstandingReqs := by
    rw [helper, everything, ← requests]
    exact Nat.mul_div_cancel_left _ config.size_pos
  have all : sent = config.size * (client.numReqsRead + info.wholeReqs) := by
    rw [whole, Nat.mul_add, requests]
    omega
  have sentAll : client.numReqsSent = client.numReqsRead + info.wholeReqs := by
    rw [stamped, all]
    exact smul_ceilDiv config.size_pos _
  constructor
  · refine Nat.le_of_mul_le_mul_left ?_ config.size_pos
    rw [whole, requests]
    exact window
  · intro stamp member index covers
    rw [← sentAll]
    exact timed.stamps.lt_of_covers member covers

/-- A request is under way from its stamp to its conversion. -/
def UnderWay (log : Ledger) (time index : Nat) : Prop :=
  ∃ stamp ∈ log.stamps, ∃ conversion ∈ log.conversions, stamp.Covers index ∧
    conversion.Covers index ∧ stamp.label.time ≤ time ∧ time < conversion.label.time

theorem Paced.few {log : Ledger} {seen : List Nat} (paced : Paced config log seen) {time : Nat}
    {requests : Finset Nat} (underWay : ∀ index ∈ requests, UnderWay log time index) :
    requests.card ≤ config.rate := by
  rcases requests.eq_empty_or_nonempty with none | some
  · rw [none, Finset.card_empty]
    exact Nat.zero_le _
  · obtain ⟨least, member, below⟩ := Finset.exists_min_image requests id some
    obtain ⟨_, _, conversion, converted, _, covers, _, before⟩ := underWay least member
    have inside : requests ⊆
        Finset.Ico conversion.start (conversion.start + conversion.length) := by
      intro index other
      obtain ⟨stamp, stamped, _, _, entered, _, after, _⟩ := underWay index other
      rw [Finset.mem_Ico]
      refine ⟨Nat.le_trans covers.1 (below index other), Nat.lt_of_not_le ?_⟩
      intro beyond
      have apart := paced.apart conversion converted stamp stamped index entered beyond
      omega
    calc requests.card
        ≤ (Finset.Ico conversion.start (conversion.start + conversion.length)).card :=
          Finset.card_le_card inside
      _ = conversion.length := by rw [Nat.card_Ico, Nat.add_sub_cancel_left]
      _ ≤ config.rate := paced.short conversion converted

theorem Paced.sum_le {log : Ledger} {seen : List Nat} (paced : Paced config log seen)
    {times : List Nat} {answered start finish : Nat}
    (entries : ∀ index < answered, ∃ stamp ∈ log.stamps, ∃ conversion ∈ log.conversions,
      stamp.Covers index ∧ conversion.Covers index ∧
        times.getD index 0 = conversion.label.time - stamp.label.time)
    (later : ∀ stamp ∈ log.stamps, start ≤ stamp.label.time)
    (before : ∀ conversion ∈ log.conversions, conversion.label.time ≤ finish) :
    ∑ index ∈ Finset.range answered, times.getD index 0 ≤ config.rate * (finish - start) := by
  have inhabited : Nonempty (Stretch Reading) := ⟨⟨⟨0, 0⟩, 0, 0⟩⟩
  choose! stamp stamped conversion converted enters leaves value using entries
  have member : ∀ {index}, index ∈ Finset.range answered → index < answered :=
    fun inside => Finset.mem_range.mp inside
  calc ∑ index ∈ Finset.range answered, times.getD index 0
      = ∑ index ∈ Finset.range answered,
          ((conversion index).label.time - (stamp index).label.time) :=
        Finset.sum_congr rfl fun index inside => value index (member inside)
    _ ≤ config.rate * (finish - start) := by
        apply sum_stays_le
        · intro index inside
          exact ⟨later _ (stamped index (member inside)), before _ (converted index (member inside))⟩
        · intro time
          refine @Paced.few config log seen paced time _ fun index there => ?_
          obtain ⟨inside, entered, left⟩ := mem_present.mp there
          exact ⟨_, stamped index (member inside), _, converted index (member inside),
            enters index (member inside), leaves index (member inside), entered, left⟩

theorem sum_take (times : List Nat) (answered : Nat) :
    (times.take answered).sum = ∑ index ∈ Finset.range answered, times.getD index 0 := by
  induction answered with
  | zero => rfl
  | succ answered ih =>
      rw [Finset.sum_range_succ, ← ih, List.take_add_one, List.sum_append, List.getD]
      cases times[answered]? <;> simp

theorem meanLatency_eq (array : List Nat) :
    meanLatency array = (array.sum : ℚ) / array.length / 1000 := by
  have each : ∀ (entries : List Nat) (length : ℚ),
      (entries.map fun (entry : Nat) => (entry : ℚ) / length / 1000).sum =
        (entries.sum : ℚ) / length / 1000 := by
    intro entries length
    induction entries with
    | nil => simp
    | cons entry rest ih =>
        rw [List.map_cons, List.sum_cons, List.sum_cons, ih, Nat.cast_add, add_div, add_div]
  unfold meanLatency
  exact each array array.length

theorem expectedTotalTime_eq (array : List Nat) (rate : Nat) :
    expectedTotalTime array rate = (array.sum : ℚ) / rate / 1000 := by
  rw [expectedTotalTime, meanLatency_eq]
  rcases array with _ | ⟨first, rest⟩
  · simp
  · have length : ((first :: rest).length : ℚ) ≠ 0 := Nat.cast_ne_zero.mpr (by simp)
    field_simp

section Runs

variable [DecidableEq Byte] {setup : Setup Byte config}
  {trace : List (Pair Byte × PairAction Byte)} {pair : Pair Byte}

theorem Pair.paced
    (run : Run ((machine transport config.arguments).restrict blocking)
      (Pair.initial transport setup) trace pair)
    (clock : ClockRises (clientTrace trace)) :
    Paced config (ledger config.arguments (clientTrace trace)) (readings (clientTrace trace)) := by
  induction run with
  | start => exact Paced.initial
  | step before taken ih =>
      rename_i trace pair action next
      cases action with
      | server action =>
          rw [clientTrace_server] at clock ⊢
          exact ih clock
      | client action =>
          rw [clientTrace_client] at clock
          have own := Pair.run_client before.of_restrict
          have timely := Pair.Timely.run before
          have timed := Client.Timed.run (fun _ _ _ => Whole.adds config.size_pos) own
            clock.earlier timely.ends
          rw [clientTrace_client, ledger_step, readings_step]
          refine (ih clock.earlier).step (fun time member => List.mem_append_left _ member) ?_ ?_
          · intro time now
            subst now
            exact ⟨clock.latest.1, List.mem_append_right _ (by simp [readings])⟩
          · intro canWrite info pc
            have windows := Pair.InWindows.run before
            exact timely.windowed.drains windows.client timed windows.linked.client
              (Client.ledger_written _ _) pc

end Runs

/-- Never more than `rate` requests are under way by their stamps and conversions, so that the
latencies add up to no more than `rate` times the time that the loop takes; at the exit the
total time that is printed as expected is not more than that time. -/
theorem expected_time_fits [DecidableEq Byte] {setup : Setup Byte config}
    {trace : List (Pair Byte × PairAction Byte)} {pair : Pair Byte} {start finish : Nat}
    (run : Run ((Pair.machine transport config.arguments).restrict Pair.blocking)
      (Pair.initial transport setup) trace pair)
    (clock : ClockRises (clientTrace trace))
    (within : ∀ time ∈ readings (clientTrace trace), start ≤ time ∧ time ≤ finish) :
    (∀ time (requests : Finset Nat),
      (∀ index ∈ requests, UnderWay (ledger config.arguments (clientTrace trace)) time index) →
        requests.card ≤ config.rate) ∧
    (pair.client.times.take (min config.count pair.client.numReqsRead)).sum ≤
      config.rate * (finish - start) ∧
    (pair.client.pc = .exit →
      expectedTotalTime (pair.client.times.take pair.client.count.toNat) config.rate ≤
        ((finish - start : Nat) : ℚ) / 1000) := by
  have own := Pair.run_client run.of_restrict
  have timely := Pair.Timely.run run
  have logged := Client.Logged.run own
  have timed := Client.Timed.run (fun _ _ _ => Whole.adds config.size_pos) own clock timely.ends
  have latencies := timed.latencies logged
  have paced := Pair.paced run clock
  have sum : (pair.client.times.take (min config.count pair.client.numReqsRead)).sum ≤
      config.rate * (finish - start) := by
    rw [sum_take]
    refine paced.sum_le ?_ (fun stamp member => (within _ (timed.clock stamp member)).1)
      (fun conversion member => (within _ (paced.clock conversion member)).2)
    intro index below
    obtain ⟨counted, answered⟩ := Nat.lt_min.mp below
    obtain ⟨conversion, converted, leaves⟩ := logged.conversions.exists_covers answered
    obtain ⟨stamp, stamped, enters, _, _, _, value⟩ :=
      latencies.converted conversion converted index counted leaves
    exact ⟨stamp, stamped, conversion, converted, enters, leaves, value⟩
  refine ⟨fun time requests => paced.few, sum, ?_⟩
  intro exit
  have ratePos : (0 : ℚ) < config.rate := Nat.cast_pos.mpr config.rate_pos
  have bound : (((pair.client.times.take (min config.count pair.client.numReqsRead)).sum : Nat) : ℚ) ≤
      config.rate * ((finish - start : Nat) : ℚ) := by
    exact_mod_cast sum
  rw [logged.counted exit, Int.toNat_natCast, expectedTotalTime_eq]
  refine div_le_div_of_nonneg_right ?_ (by norm_num)
  rw [div_le_iff₀ ratePos, mul_comm]
  exact bound

/-- One request in a window of two, which takes 6 of the 8 units that the loop takes. -/
theorem expected_time_fits_halfWindow : ∃ trace pair,
    Run ((Pair.machine .fifo Config.halfWindow.arguments).restrict Pair.blocking)
      (Pair.initial .fifo (Setup.uniform Config.halfWindow (0 : Nat) 1)) trace pair ∧
    (pair.client.pc = .exit ∧ pair.client.times = [6]) ∧
    expectedTotalTime (pair.client.times.take pair.client.count.toNat) 2 ≤
      ((9 - 1 : Nat) : ℚ) / 1000 := by
  obtain ⟨trace, pair, run, reached⟩ := exists_run_of_execute
    ((Pair.machine .fifo Config.halfWindow.arguments).restrict Pair.blocking)
    (Pair.initial .fifo (Setup.uniform Config.halfWindow 0 1))
    [.client (.advance 1), .client (.poll (some (false, true))), .client (.advance 1),
      .client (.advance 1), .client (.advance 1), .client (.send 1),
      .server (.advance 1), .server (.poll (some (true, true))), .server (.advance 1),
      .server (.recv [0]), .client (.send 1), .client (.advance 3), .server (.recv [0]),
      .server (.advance 3), .server (.advance 3), .server (.advance 3),
      .server (.poll (some (false, true))), .server (.advance 4), .server (.advance 4),
      .server (.send 1), .client (.advance 5), .client (.poll (some (true, true))),
      .client (.advance 5), .client (.recv [0]), .server (.send 1), .server (.advance 6),
      .server (.advance 6), .client (.recv [0]), .client (.advance 7), .client (.advance 8),
      .client (.advance 8), .client .broken, .client (.advance 9), .client (.advance 9)]
    (fun result => decide (ClockRises (clientTrace result.1)) &&
      (readings (clientTrace result.1)).all (fun time => 1 ≤ time && time ≤ 9) &&
      (result.2.client.pc == .exit && result.2.client.times == [6]))
    (by decide)
  simp only [Bool.and_eq_true, decide_eq_true_eq, beq_iff_eq, List.all_eq_true] at reached
  obtain ⟨⟨clock, within⟩, ended⟩ := reached
  exact ⟨trace, pair, run, ended, (expected_time_fits run clock within).2.2 ended.1⟩

end IpcBench
