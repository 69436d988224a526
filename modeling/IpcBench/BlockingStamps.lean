import IpcBench.BlockingWindows
import IpcBench.Stamps

/-!
The latencies of the domain and fifo clients. Whole windows are stamped, written, read
and converted, each in one iteration, so stamps and requests cannot drift apart.
-/

namespace IpcBench

open Words Transition Stretches

variable {Byte : Type} {config : Config} {transport : Transport}

structure Whole (size before accepted stamped : Nat) : Prop where
  aligned : size ∣ before
  written : accepted = size * stamped

theorem Whole.adds {size before accepted stamped : Nat} (positive : 0 < size)
    (whole : Whole size before accepted stamped) :
    (before + accepted) ⌈/⌉ size = before ⌈/⌉ size + stamped := by
  obtain ⟨⟨begun, rfl⟩, rfl⟩ := whole
  have multiple : ∀ requests, (size * requests) ⌈/⌉ size = requests :=
    fun requests => smul_ceilDiv positive requests
  rw [← Nat.mul_add, multiple, multiple]

def RequestWrittenIn (config : Config) (writes : List (Stretch Nat))
    (iteration index : Nat) : Prop :=
  ∀ offset, config.size * index ≤ offset → offset < config.size * (index + 1) →
    WrittenIn writes iteration offset

theorem Settled.whole {writes : List (Stretch Nat)} {stamp : Stretch Reading} {index : Nat}
    (settled : Settled (Whole config.size) config writes stamp) (covers : stamp.Covers index) :
    RequestWrittenIn config writes stamp.label.iteration index := by
  obtain ⟨_, _, ⟨⟨begun, rfl⟩, rfl⟩, start, handed⟩ := settled
  have first : stamp.start = begun := start.trans (smul_ceilDiv config.size_pos begun)
  obtain ⟨lower, upper⟩ := covers
  intro offset above below
  refine handed offset ?_ ?_
  · exact Nat.le_trans (Nat.mul_le_mul_left _ (first ▸ lower)) above
  · rw [← Nat.mul_add]
    exact Nat.lt_of_lt_of_le below (Nat.mul_le_mul_left _ (by omega))

/-- A client whose window is empty can write: what its poll has reported is kept until
the write. -/
def ClientPc.CanWrite (outstandingBytes : Nat) : ClientPc → Prop
  | .read canRead canWrite => canRead = true ∨ outstandingBytes = 0 → canWrite = true
  | .reading canWrite _ => canWrite = true
  | .readDone canWrite _ => canWrite = true
  | .stamp canWrite => outstandingBytes = 0 → canWrite = true
  | .write canWrite => outstandingBytes = 0 → canWrite = true
  | _ => True

namespace Client

structure Windowed (config : Config) (left : Bool) (client : Client Byte) : Prop where
  requests : (left = true → client.totalBytesRead < config.total) →
    config.size * client.outstandingReqs = client.outstandingBytes
  answered : (config.size * client.numReqsRead : Nat) = client.totalBytesRead
  canWrite : client.pc.CanWrite client.outstandingBytes

variable {received sent : Nat} {client next : Client Byte} {action : Action Byte} {left : Bool}
  {log : Ledger}

theorem Windowed.initial (memory : ClientMemory Byte config) :
    Windowed config left (Client.initial memory) where
  requests := fun _ => Nat.mul_zero _
  answered := by simp [Client.initial]
  canWrite := trivial

theorem Windowed.goto (windowed : Windowed config left client) (pc : ClientPc)
    (canWrite : pc.CanWrite client.outstandingBytes) : Windowed config left (client.goto pc) :=
  ⟨windowed.requests, windowed.answered, canWrite⟩

theorem Windowed.leave (windowed : Windowed config left client) :
    Windowed config left client.leave :=
  ⟨windowed.requests, windowed.answered, trivial⟩

theorem Windowed.weaken (windowed : Windowed config left client) {gone : Bool}
    (stays : left = true → gone = true) : Windowed config gone client :=
  ⟨fun unfinished => windowed.requests fun already => unfinished (stays already),
    windowed.answered, windowed.canWrite⟩

theorem Windowed.accountRead (windowed : Windowed config left client)
    (windows : InWindows config left client) (logged : Logged config log client)
    (before : Balanced config received sent client) {canWrite : Bool} {info : MetaData}
    {time : Nat} (after : Balanced config received sent
      ((client.accountRead time info).goto (.stamp canWrite)))
    (pc : client.pc = .readDone canWrite info) :
    Windowed config left ((client.accountRead time info).goto (.stamp canWrite)) := by
  have running := before.running (by simp [pc, ClientPc.beforeRead])
  have all := windows.readAll canWrite info pc
  have requests := windowed.requests fun _ => running
  have answered := windowed.answered
  have helper := before.helper
  have read := before.read
  have laterRead := after.read
  have balance := before.balance
  have laterBalance := after.balance
  simp only [pc, ClientPc.HelperOk, MetaData.Consistent, ClientPc.fetched, ClientPc.pushed]
    at helper read balance
  simp only [Client.goto, ClientPc.fetched, ClientPc.pushed] at laterRead laterBalance
  have whole : info.wholeReqs = client.outstandingReqs := by
    rw [helper, all, ← requests]
    exact Nat.mul_div_cancel_left _ config.size_pos
  have numReqsRead := before.numReqsRead_accountRead logged pc time
  have none : (client.accountRead time info).outstandingReqs = 0 := by
    simp only [Client.accountRead, whole]
    split
    · rw [Int.sub_self]
      rfl
    · omega
  have empty : (client.accountRead time info).outstandingBytes = 0 := by omega
  have ready := windowed.canWrite
  simp only [pc, ClientPc.CanWrite] at ready
  refine ⟨?_, ?_, fun _ => ready⟩
  · intro _
    simp only [Client.goto, none, empty, Nat.mul_zero]
  · simp only [Client.goto, numReqsRead, whole, Nat.mul_add, requests]
    omega

theorem Windowed.accountWrite (windowed : Windowed config left client)
    (windows : InWindows config left client) (before : Balanced config received sent client)
    {info : MetaData} (after : Balanced config received sent ((client.accountWrite info).goto .loop))
    (pc : client.pc = .writeDone info) :
    Windowed config left ((client.accountWrite info).goto .loop) := by
  refine ⟨?_, windowed.answered, trivial⟩
  intro unfinished
  obtain ⟨empty, all⟩ := windows.wroteAll unfinished info pc
  have requests := windowed.requests unfinished
  have helper := before.helper
  have balance := before.balance
  have laterBalance := after.balance
  simp only [pc, ClientPc.HelperOk, MetaData.Consistent, ClientPc.fetched, ClientPc.pushed]
    at helper balance
  simp only [Client.goto, ClientPc.fetched, ClientPc.pushed] at laterBalance
  have none : client.outstandingReqs = 0 := by
    rw [empty] at requests
    exact (Nat.mul_eq_zero.mp requests).resolve_left (Nat.pos_iff_ne_zero.mp config.size_pos)
  have whole : info.wholeReqs = config.rate := by
    rw [helper, all]
    exact Nat.mul_div_cancel_left _ config.size_pos
  have rateInt := config.rate_int
  have rate : (client.accountWrite info).outstandingReqs = config.rate := by
    simp only [Client.accountWrite, none, whole, if_pos config.rate_pos]
    rw [sizeT_add (by omega), Nat.zero_add]
  change config.size * (client.accountWrite info).outstandingReqs =
    (client.accountWrite info).outstandingBytes
  rw [rate]
  change config.window = _
  omega

/-- A client step keeps requests and bytes together, provided that a poll that finds input
or an empty window also finds room for output. -/
theorem Windowed.step (windowed : Windowed config left client)
    (windows : InWindows config left client) (logged : Logged config log client)
    (before : Balanced config received sent client)
    (after : Balanced config (received + action.received) (sent + action.sent) next)
    (taken : Step config.arguments client action next)
    (ready : ∀ canRead canWrite, action = .poll (some (canRead, canWrite)) →
      canRead = true ∨ client.outstandingBytes = 0 → canWrite = true) :
    Windowed config left next := by
  have canWrite := windowed.canWrite
  cases taken with
  | signal => exact ⟨windowed.requests, windowed.answered, canWrite⟩
  | finish time pc isOver => exact windowed.leave
  | pollFailed ready pc failed => exact windowed.leave
  | polled canRead canWrite pc running =>
      exact windowed.goto _ (ready canRead canWrite rfl)
  | skipRead time canRead canWrite' pc skipped =>
      simp only [pc, ClientPc.CanWrite] at canWrite
      exact windowed.goto _ fun empty => canWrite (Or.inr empty)
  | readNothing time canWrite' pc running empty =>
      simp only [pc, ClientPc.CanWrite] at canWrite
      exact windowed.goto _ (canWrite (Or.inl trivial))
  | startRead time canWrite' pc running nonempty =>
      simp only [pc, ClientPc.CanWrite] at canWrite
      exact windowed.goto _ (canWrite (Or.inl trivial))
  | recvSome data canWrite' transfer pc | recvLast data canWrite' transfer pc
  | recvStop canWrite' transfer pc =>
      simp only [pc, ClientPc.CanWrite] at canWrite
      exact windowed.goto _ canWrite
  | accountRead time canWrite' info pc =>
      exact windowed.accountRead windows logged before after pc
  | stamp time canWrite' pc =>
      simp only [pc, ClientPc.CanWrite] at canWrite
      unfold stampWrites
      split
      · exact ⟨windowed.requests, windowed.answered, canWrite⟩
      · exact windowed.goto _ canWrite
  | sendBroken transfer pc => exact ⟨windowed.requests, windowed.answered, trivial⟩
  | accountWrite time info pc => exact windowed.accountWrite windows before after pc
  | enter time pc | skipWrite time canWrite' pc | startWrite time pc
  | sendSome amount transfer pc | sendLast amount transfer pc | sendStop transfer pc =>
      exact windowed.goto _ trivial

theorem Windowed.endsWith (windowed : Windowed config left client)
    (windows : InWindows config left client) (balanced : Balanced config received sent client)
    (more : client.totalBytesRead < config.total)
    (running : client.pc.pushed = 0 → client.outstandingBytes = 0 → client.quit = false)
    {amount : Nat}
    (ended : client.accepted config.arguments action = some amount) :
    Whole config.size (sent - amount) amount (config.rate - client.outstandingReqs) := by
  have requests := windowed.requests fun _ => more
  have outstanding := windows.outstanding fun _ => more
  have balance := balanced.balance
  have read := balanced.read
  have answered := windowed.answered
  have aligned : config.size ∣ received - client.pc.fetched :=
    ⟨client.numReqsRead, by omega⟩
  rcases accepted_inv ended with ⟨canWrite, pc, none, skipped⟩ | ⟨info, pc, all⟩
  · have ready := windowed.canWrite
    simp only [pc, ClientPc.CanWrite, ClientPc.fetched, ClientPc.pushed, Nat.sub_zero]
      at ready balance aligned
    rcases outstanding with empty | full
    · rcases skipped with refused | room | quit
      · simp [ready empty] at refused
      · have windowPos := config.window_pos
        rw [Config.maxOutstandingBytes_eq, empty] at room
        omega
      · simp [running (by simp [pc, ClientPc.pushed]) empty] at quit
    · have rate : client.outstandingReqs = config.rate :=
        Nat.eq_of_mul_eq_mul_left config.size_pos (requests.trans full)
      have window : config.size ∣ config.window := Nat.dvd_mul_right _ _
      refine ⟨?_, by rw [none, rate, Nat.sub_self, Nat.mul_zero]⟩
      have total : sent - amount = received + config.window := by omega
      rw [total]
      exact Nat.dvd_add aligned window
  · obtain ⟨empty, whole⟩ := windows.wroteAll (fun _ => more) info pc
    simp only [pc, ClientPc.fetched, ClientPc.pushed, Nat.sub_zero] at balance aligned
    have none : client.outstandingReqs = 0 := by
      rw [empty] at requests
      exact (Nat.mul_eq_zero.mp requests).resolve_left (Nat.pos_iff_ne_zero.mp config.size_pos)
    have total : sent - amount = received := by omega
    refine ⟨by rw [total]; exact aligned, ?_⟩
    rw [none, Nat.sub_zero, all, whole]
    rfl

end Client

/-- What the latencies of a client are to be. Every entry that was converted had been
stamped once, in an earlier iteration that wrote the whole request; it is converted once and
holds the time that has passed in between. At the exit all entries are converted. -/
structure Client.Latencies (config : Config) (trace : List (Client Byte × Action Byte))
    (client : Client Byte) : Prop where
  converted : ∀ conversion ∈ (ledger config.arguments trace).conversions,
    ∀ index < config.count, conversion.Covers index →
      ∃ stamp ∈ (ledger config.arguments trace).stamps, stamp.Covers index ∧
        stamp.label.iteration < conversion.label.iteration ∧
        RequestWrittenIn config (ledger config.arguments trace).writes stamp.label.iteration
          index ∧
        stamp.label.time ≤ conversion.label.time ∧
        client.times.getD index 0 = conversion.label.time - stamp.label.time
  once : ∀ conversion ∈ (ledger config.arguments trace).conversions,
    ∀ index < config.count, conversion.Covers index →
      (ledger config.arguments trace).stamps.countP (fun stamp => stamp.Covers index) = 1 ∧
      (ledger config.arguments trace).conversions.countP
        (fun conversion => conversion.Covers index) = 1

theorem Client.Timed.latencies {client : Client Byte} {trace : List (Client Byte × Action Byte)}
    {seen : List Nat} (timed : Timed (Whole config.size) config (ledger config.arguments trace)
      seen client)
    (logged : Logged config (ledger config.arguments trace) client) :
    client.Latencies config trace where
  converted := by
    intro conversion member index below covers
    obtain ⟨stamp, stampMember, times, value⟩ :=
      timed.converted conversion member index below covers
    exact ⟨stamp, stampMember, times.covers, times.earlier, times.settled.whole times.covers,
      times.ordered, value⟩
  once := by
    intro conversion member index below covers
    obtain ⟨stamp, stampMember, times, _⟩ := timed.converted conversion member index below covers
    constructor
    · rw [timed.stamps.countP_covers, if_pos (timed.stamps.lt_of_covers stampMember times.covers)]
    · rw [logged.conversions.countP_covers, if_pos (logged.conversions.lt_of_covers member covers)]

namespace Pair

variable {setup : Setup Byte config} {trace : List (Pair Byte × PairAction Byte)}
  {pair next : Pair Byte}

theorem InWindows.requestsEmpty (windows : InWindows config transport trace pair)
    (pc : pair.client.pc = .poll)
    (idle : pair.client.outstandingBytes = 0 ∨ pair.responses.content ≠ []) :
    pair.requests.content = [] := by
  have underway := windows.linked.underway
  have running := windows.linked.client.running (by simp [pc, ClientPc.beforeRead])
  have outstanding := windows.client.outstanding fun _ => running
  have clientRead := windows.linked.client.read
  have clientBalance := windows.linked.client.balance
  have serverRead := windows.linked.server.read
  have serverWritten := windows.linked.server.written
  have serverBalance := windows.linked.server.balance
  have pushed := windows.linked.server.pushed
  have serverOutstanding := windows.server.outstanding
  have ordered := windows.linked.server.sent_le
  simp only [pc, ClientPc.fetched, ClientPc.pushed] at clientRead clientBalance
  refine List.length_eq_zero_iff.mp ?_
  rcases idle with empty | some
  · omega
  · have response := List.length_pos_iff.mpr some
    -- The server has begun to answer the window that is outstanding.
    have begun : pair.client.totalBytesRead ≤ pair.server.totalBytesWritten := by
      rcases Int.lt_or_le pair.server.totalBytesWritten pair.client.totalBytesRead
        with behind | reached
      · have whole := add_le_of_dvd windows.server.written windows.client.read behind
        omega
      · exact reached
    rcases serverOutstanding with none | full
    · have strictly : pair.client.totalBytesRead < pair.server.totalBytesWritten := by omega
      have whole := add_le_of_dvd windows.client.read windows.server.written strictly
      omega
    · omega

theorem InWindows.running (windows : InWindows config transport trace pair)
    (more : pair.client.totalBytesRead < config.total) (idle : pair.client.pc.pushed = 0)
    (empty : pair.client.outstandingBytes = 0) : pair.client.quit = false := by
  refine Bool.eq_false_iff.mpr fun quit => ?_
  rcases windows.quits quit with reached | interrupted
  · omega
  · obtain ⟨_, _, received, _⟩ := windows.left_eq (windows.interrupted interrupted)
    have ahead := windows.clientAhead
    have covered := config.total_le_covered
    omega

structure Timely (config : Config) (trace : List (Pair Byte × PairAction Byte))
    (pair : Pair Byte) : Prop where
  windowed : pair.client.Windowed config pair.left
  ends : Throughout (fun earlier (client : Client Byte) action =>
    config.total ≤ client.totalBytesRead ∨
      Client.EndsWith (Whole config.size) config earlier client action) (clientTrace trace)

theorem Timely.initial : Timely config [] (Pair.initial transport setup) where
  windowed := Client.Windowed.initial setup.clientMemory
  ends := throughout_nil

theorem Timely.endsWith (timely : Timely config trace pair)
    (windows : InWindows config transport trace pair) (action : Action Byte) :
    config.total ≤ pair.client.totalBytesRead ∨
      Client.EndsWith (Whole config.size) config (clientTrace trace) pair.client action := by
  rcases Int.lt_or_le pair.client.totalBytesRead config.total with more | reached
  · refine Or.inr fun amount ended => ?_
    have balanced := windows.linked.client
    have windowed := timely.windowed
    exact windowed.endsWith windows.client balanced more (windows.running more) ended
  · exact Or.inl reached

variable [DecidableEq Byte]

theorem Timely.stepClient (timely : Timely config trace pair)
    (windows : InWindows config transport trace pair)
    (logged : Client.Logged config (ledger config.arguments (clientTrace trace)) pair.client)
    {action : Action Byte} (taken : pair.step transport config.arguments (.client action) = some next)
    (allowed : pair.blocking (.client action) = true) :
    Timely config (trace ++ [(pair, .client action)]) next := by
  have after := (windows.linked.step taken).client
  rw [clientTrace_client, bytesReceived_step, bytesSent_step] at after
  obtain ⟨_, stepped, kept⟩ := step_client taken
  have own := Client.step_inv stepped
  have left : next.left = pair.left := by rw [Pair.left, Pair.left, kept]
  constructor
  · rw [left]
    refine timely.windowed.step windows.client logged windows.linked.client after own ?_
    intro canRead canWrite polled idle
    subst polled
    have pc : pair.client.pc = .poll := by
      simp only [Client.step] at stepped
      split at stepped
      · assumption
      · cases stepped
    simp only [blocking, truthful, Bool.and_eq_true, Bool.or_eq_true, Bool.not_eq_true',
      List.isEmpty_eq_false_iff] at allowed
    have empty := windows.requestsEmpty pc (by
      rcases idle with readable | empty
      · exact Or.inr (allowed.1.resolve_left (by simp [readable]))
      · exact Or.inl empty)
    exact allowed.2.resolve_right (by simp [empty])
  · rw [clientTrace_client]
    exact throughout_step.mpr ⟨timely.ends, timely.endsWith windows action⟩

theorem Timely.stepServer (timely : Timely config trace pair) {action : Action Byte}
    (taken : pair.step transport config.arguments (.server action) = some next) :
    Timely config (trace ++ [(pair, .server action)]) next := by
  obtain ⟨_, stepped, kept⟩ := step_server taken
  have own := Server.step_inv stepped
  constructor
  · rw [kept]
    refine timely.windowed.weaken ?_
    intro exited
    simp only [Pair.left, decide_eq_true_eq] at exited ⊢
    exact own.stays exited
  · rw [clientTrace_server]
    exact timely.ends

theorem Timely.run
    (run : Run ((machine transport config.arguments).restrict blocking)
      (Pair.initial transport setup) trace pair) : Timely config trace pair := by
  refine run.invariant (fun trace pair => Timely config trace pair) Timely.initial ?_
  intro trace pair action next before timely taken
  have windows := InWindows.run before
  obtain ⟨allowed, taken⟩ := restrict_step.mp taken
  cases action with
  | client action =>
      exact timely.stepClient windows (Client.Logged.run (run_client before.of_restrict)) taken
        allowed
  | server action => exact timely.stepServer taken

end Pair

/-- The latencies of a client on a blocking transport, under a clock that never decreases,
in every state of every run; and at the exit of a client that no signal has interrupted the
count is unchanged and every entry was converted. -/
theorem blocking_latencies [DecidableEq Byte] {setup : Setup Byte config}
    {trace : List (Pair Byte × PairAction Byte)} {pair : Pair Byte}
    (run : Run ((Pair.machine transport config.arguments).restrict Pair.blocking)
      (Pair.initial transport setup) trace pair)
    (clock : ClockRises (clientTrace trace)) :
    pair.client.Latencies config (clientTrace trace) ∧
    (pair.client.pc = .exit → ¬Interrupted trace → pair.client.count = config.count ∧
      ∀ index < config.count,
        ∃ conversion ∈ (ledger config.arguments (clientTrace trace)).conversions,
          conversion.Covers index) := by
  have own := Pair.run_client run.of_restrict
  have timely := Pair.Timely.run run
  have logged := Client.Logged.run own
  have timed := Client.Timed.run (fun _ _ _ => Whole.adds config.size_pos) own clock timely.ends
  constructor
  · exact timed.latencies logged
  · intro exit calm
    have windows := Pair.InWindows.run run
    have reached := (windows.ended exit).resolve_right calm
    have answered := timely.windowed.answered
    have all : config.count ≤ pair.client.numReqsRead := by
      refine Nat.le_of_mul_le_mul_left ?_ config.size_pos
      change config.total ≤ _
      omega
    refine ⟨?_, ?_⟩
    · rw [logged.counted exit, Nat.min_eq_left all]
    · intro index below
      exact logged.conversions.exists_covers (by omega)

/-- One request in a window of two: its entry is converted, the surplus window is not. -/
theorem blocking_latencies_halfWindow : ∃ trace pair,
    Run ((Pair.machine .fifo Config.halfWindow.arguments).restrict Pair.blocking)
      (Pair.initial .fifo (Setup.uniform Config.halfWindow (0 : Nat) 1)) trace pair ∧
    (pair.client.pc = .exit ∧ pair.client.times = [6]) ∧
    pair.client.Latencies Config.halfWindow (clientTrace trace) ∧ pair.client.count = 1 := by
  obtain ⟨trace, pair, run, reached⟩ := exists_run_of_execute
    ((Pair.machine .fifo Config.halfWindow.arguments).restrict Pair.blocking)
    (Pair.initial .fifo (Setup.uniform Config.halfWindow 0 1))
    [.client (.advance 1), .client (.poll (some (false, true))), .client (.advance 2),
      .client (.advance 3), .client (.advance 4), .client (.send 1),
      .server (.advance 0), .server (.poll (some (true, true))), .server (.advance 0),
      .server (.recv [0]), .client (.send 1), .client (.advance 5), .server (.recv [0]),
      .server (.advance 0), .server (.advance 0), .server (.advance 0),
      .server (.poll (some (false, true))), .server (.advance 0), .server (.advance 0),
      .server (.send 1), .client (.advance 6), .client (.poll (some (true, true))),
      .client (.advance 7), .client (.recv [0]), .server (.send 1), .server (.advance 0),
      .server (.advance 0), .client (.recv [0]), .client (.advance 9), .client (.advance 9),
      .client (.advance 9), .client .broken, .client (.advance 9), .client (.advance 9)]
    (fun result => decide (ClockRises (clientTrace result.1)) &&
      !result.1.any (fun entry => entry.2.interrupts) &&
      (result.2.client.pc == .exit && result.2.client.times == [6]))
    (by decide)
  simp only [Bool.and_eq_true, decide_eq_true_eq, beq_iff_eq, Bool.not_eq_true'] at reached
  obtain ⟨⟨clock, calm⟩, ended⟩ := reached
  obtain ⟨latencies, counted⟩ := blocking_latencies run clock
  refine ⟨trace, pair, run, ended, latencies, (counted ended.1 ?_).1⟩
  rintro ⟨entry, member, interrupts⟩
  exact Bool.false_ne_true (calm.symm.trans (List.any_eq_true.mpr ⟨entry, member, interrupts⟩))

end IpcBench
