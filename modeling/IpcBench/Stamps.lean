import IpcBench.Ledger

/-!
The latency array of a client in terms of its ledger. As long as every iteration hands
over the requests it has stamped, stamps and conversions each cover the requests one
after the other, and every converted entry is the time since the stamp of its request.
-/

namespace IpcBench

open Words Transition Stretches

variable {Byte : Type} {config : Config}

namespace ClientPc

def unstamped : ClientPc → Bool
  | .read _ _ => true
  | .reading _ _ => true
  | .readDone _ _ => true
  | .stamp _ => true
  | _ => false

def stamped : ClientPc → Bool
  | .write _ => true
  | .writing _ => true
  | .writeDone _ => true
  | _ => false

end ClientPc

def Settled (Fits : Nat → Nat → Nat → Prop) (config : Config) (writes : List (Stretch Nat))
    (stamp : Stretch Reading) : Prop :=
  ∃ before accepted, Fits before accepted stamp.length ∧ stamp.start = before ⌈/⌉ config.size ∧
    ∀ offset, before ≤ offset → offset < before + accepted →
      WrittenIn writes stamp.label.iteration offset

structure Times (Fits : Nat → Nat → Nat → Prop) (config : Config) (writes : List (Stretch Nat))
    (index : Nat) (stamp conversion : Stretch Reading) : Prop where
  covers : stamp.Covers index
  settled : Settled Fits config writes stamp
  earlier : stamp.label.iteration < conversion.label.iteration
  ordered : stamp.label.time ≤ conversion.label.time

theorem Settled.mono {Fits : Nat → Nat → Nat → Prop} {writes later : List (Stretch Nat)}
    {stamp : Stretch Reading} (settled : Settled Fits config writes stamp)
    (more : ∀ write ∈ writes, write ∈ later) : Settled Fits config later stamp := by
  obtain ⟨before, accepted, fits, start, covered⟩ := settled
  refine ⟨before, accepted, fits, start, ?_⟩
  intro offset lower upper
  obtain ⟨write, member, covers, label⟩ := covered offset lower upper
  exact ⟨write, more write member, covers, label⟩

theorem Times.mono {Fits : Nat → Nat → Nat → Prop} {writes later : List (Stretch Nat)}
    {index : Nat} {stamp conversion : Stretch Reading}
    (times : Times Fits config writes index stamp conversion)
    (more : ∀ write ∈ writes, write ∈ later) :
    Times Fits config later index stamp conversion :=
  ⟨times.covers, times.settled.mono more, times.earlier, times.ordered⟩

namespace Client

variable {ledger : Ledger} {received sent : Nat} {client next : Client Byte}
  {action : Action Byte}

structure Logged (config : Config) (ledger : Ledger) (client : Client Byte) : Prop where
  conversions : Consecutive ledger.conversions client.numReqsRead
  writes : Consecutive ledger.writes ledger.written
  current : ∀ offset, ledger.written ≤ offset + client.pc.pushed → offset < ledger.written →
    WrittenIn ledger.writes ledger.iteration offset
  readWhole : (config.size * client.numReqsRead : Nat) ≤ client.totalBytesRead
  counting : client.pc ≠ .exit → client.count = config.count
  counted : client.pc = .exit → client.count = (min config.count client.numReqsRead : Nat)
  length : client.times.length = config.count

theorem Logged.initial (memory : ClientMemory Byte config) :
    Logged config Ledger.empty (Client.initial memory) where
  conversions := Consecutive.nil
  writes := Consecutive.nil
  current := by simp [Ledger.empty]
  readWhole := by simp [Client.initial]
  counting := fun _ => rfl
  counted := by simp [Client.initial]
  length := memory.times_length

theorem Logged.goto (logged : Logged config ledger client) (pc : ClientPc)
    (pushed : pc.pushed = client.pc.pushed) (stays : client.pc ≠ .exit) (exit : pc ≠ .exit) :
    Logged config ledger (client.goto pc) where
  conversions := logged.conversions
  writes := logged.writes
  current := by
    intro offset
    simp only [Client.goto, pushed]
    exact logged.current offset
  readWhole := logged.readWhole
  counting := fun _ => logged.counting stays
  counted := fun exits => absurd exits exit
  length := logged.length

theorem Logged.iterate (logged : Logged config ledger client) (idle : client.pc.pushed = 0)
    (iteration : Nat) (stamps : List (Stretch Reading)) :
    Logged config { ledger with iteration := iteration, stamps := stamps } client where
  conversions := logged.conversions
  writes := logged.writes
  current := by
    intro offset lower upper
    change ledger.written ≤ offset + client.pc.pushed at lower
    change offset < ledger.written at upper
    omega
  readWhole := logged.readWhole
  counting := logged.counting
  counted := logged.counted
  length := logged.length

theorem Logged.numReqsRead_lt (logged : Logged config ledger client)
    (balanced : Balanced config received sent client) :
    client.numReqsRead < 9223372036854775808 := by
  have read := balanced.read
  have bound := balanced.bound
  have whole := logged.readWhole
  have totalBound := config.total_lt
  have windowBound := config.window_lt
  have least := Nat.le_mul_of_pos_left client.numReqsRead config.size_pos
  omega

theorem Logged.leave (logged : Logged config ledger client)
    (balanced : Balanced config received sent client) (stays : client.pc ≠ .exit)
    (idle : client.pc.pushed = 0) : Logged config ledger client.leave where
  conversions := logged.conversions
  writes := logged.writes
  current := by
    intro offset
    have current := logged.current offset
    rw [idle] at current
    exact current
  readWhole := logged.readWhole
  counting := by simp [Client.leave]
  counted := by
    intro _
    have count := logged.counting stays
    have countInt := config.count_int
    have readBound := logged.numReqsRead_lt balanced
    simp only [Client.leave, count]
    rw [sizeT_natCast (by omega)]
    split
    · omega
    · rw [intT_eq (by omega) (by omega)]
      omega
  length := logged.length

theorem Balanced.converts (balanced : Balanced config received sent client)
    (logged : Logged config ledger client) {canWrite : Bool} {info : MetaData}
    (pc : client.pc = .readDone canWrite info) :
    config.size * (client.numReqsRead + info.wholeReqs) ≤ received ∧
      client.numReqsRead + info.wholeReqs < 9223372036854775808 := by
  have helper := balanced.helper
  have read := balanced.read
  have bound := balanced.bound
  have whole := logged.readWhole
  simp only [pc, ClientPc.HelperOk, ClientPc.fetched, MetaData.Consistent] at helper read
  have answered := Nat.mul_div_le info.totalBytes config.size
  rw [← helper] at answered
  have product : config.size * (client.numReqsRead + info.wholeReqs) ≤ received := by
    rw [Nat.mul_add]
    omega
  have least := Nat.le_mul_of_pos_left (client.numReqsRead + info.wholeReqs) config.size_pos
  have totalBound := config.total_lt
  have windowBound := config.window_lt
  exact ⟨product, by omega⟩

theorem Balanced.numReqsRead_accountRead (balanced : Balanced config received sent client)
    (logged : Logged config ledger client) {canWrite : Bool} {info : MetaData}
    (pc : client.pc = .readDone canWrite info) (time : Nat) :
    (client.accountRead time info).numReqsRead = client.numReqsRead + info.wholeReqs := by
  have bound := (balanced.converts logged pc).2
  simp only [Client.accountRead, Client.toUpdateRead_eq]
  exact sizeT_add (by omega)

theorem Logged.accountRead (logged : Logged config ledger client)
    (balanced : Balanced config received sent client) {canWrite : Bool} {info : MetaData}
    {time : Nat} (after : Balanced config received sent
      ((client.accountRead time info).goto (.stamp canWrite)))
    (pc : client.pc = .readDone canWrite info) :
    Logged config (ledger.note config.arguments client (.advance time))
      ((client.accountRead time info).goto (.stamp canWrite)) := by
  have numReqsRead := balanced.numReqsRead_accountRead logged pc time
  have answered := (balanced.converts logged pc).1
  have laterRead := after.read
  simp only [Client.goto, ClientPc.fetched] at laterRead
  have same : ledger.note config.arguments client (.advance time) =
      { ledger with conversions := ledger.conversions ++
          [⟨⟨ledger.iteration, time⟩, client.numReqsRead, info.wholeReqs⟩] } := by
    simp [Ledger.note, pc]
  rw [same]
  exact {
    conversions := by
      change Consecutive _ (client.accountRead time info).numReqsRead
      rw [numReqsRead]
      exact logged.conversions.next _ _
    writes := logged.writes
    current := by
      intro offset lower upper
      change ledger.written ≤ offset + 0 at lower
      change offset < ledger.written at upper
      omega
    readWhole := by
      simp only [Client.goto, numReqsRead]
      omega
    counting := fun _ => logged.counting (by simp [pc])
    counted := by simp [Client.goto]
    length := by simpa [Client.goto, Client.accountRead] using logged.length
  }

theorem Logged.send {amount : Nat} {transfer : Transfer} (logged : Logged config ledger client)
    (pc : client.pc = .writing transfer) (next : ClientPc)
    (pushed : next.pushed = transfer.total + amount) (exit : next ≠ .exit) :
    Logged config (ledger.note config.arguments client (.send amount)) (client.goto next) where
  conversions := logged.conversions
  writes := logged.writes.next _ _
  current := by
    intro offset lower upper
    have current := logged.current offset
    simp only [pc, ClientPc.pushed] at current
    change ledger.written + amount ≤ offset + next.pushed at lower
    change offset < ledger.written + amount at upper
    rw [pushed] at lower
    by_cases old : offset < ledger.written
    · obtain ⟨write, member, covers, label⟩ := current (by omega) old
      exact ⟨write, List.mem_append_left _ member, covers, label⟩
    · exact ⟨⟨ledger.iteration, ledger.written, amount⟩, by simp [Ledger.note],
        ⟨by simp only; omega, upper⟩, rfl⟩
  readWhole := logged.readWhole
  counting := fun _ => logged.counting (by simp [pc])
  counted := fun exits => absurd exits exit
  length := logged.length

theorem Logged.step (logged : Logged config ledger client)
    (before : Balanced config received sent client)
    (after : Balanced config (received + action.received) (sent + action.sent) next)
    (taken : Step config.arguments client action next) :
    Logged config (ledger.note config.arguments client action) next := by
  cases taken with
  | signal => exact ⟨logged.conversions, logged.writes, logged.current, logged.readWhole,
      logged.counting, logged.counted, logged.length⟩
  | finish time pc isOver =>
      have same : ledger.note config.arguments client (.advance time) = ledger := by
        simp [Ledger.note, pc]
      rw [same]
      exact logged.leave before (by simp [pc]) (by simp [pc, ClientPc.pushed])
  | pollFailed ready pc failed =>
      have left := logged.leave before (by simp [pc]) (by simp [pc, ClientPc.pushed])
      exact left.iterate rfl _ _
  | polled canRead canWrite pc running =>
      have moved := logged.goto (.read canRead canWrite) (by simp [pc, ClientPc.pushed])
        (by simp [pc]) (by simp)
      exact moved.iterate rfl _ _
  | accountRead time canWrite info pc => exact logged.accountRead before after pc
  | stamp time canWrite pc =>
      have moved := logged.goto (.write canWrite) (by simp [pc, ClientPc.pushed])
        (by simp [pc]) (by simp)
      simp only [Ledger.note, pc, stampWrites]
      split
      · have stamped := moved.iterate rfl ledger.iteration (ledger.stamps ++
          [⟨⟨ledger.iteration, time⟩, client.numReqsSent,
            config.arguments.maxOutstandingReqs - client.outstandingReqs⟩])
        exact ⟨stamped.conversions, stamped.writes, stamped.current, stamped.readWhole,
          stamped.counting, stamped.counted, by simpa [Client.goto] using logged.length⟩
      · exact moved
  | sendSome amount transfer pc nonempty fits more => exact logged.send pc _ rfl (by simp)
  | sendLast amount transfer pc nonempty fits full => exact logged.send pc _ rfl (by simp)
  | sendBroken transfer pc =>
      have quitting : Logged config ledger { client with quit := true } :=
        ⟨logged.conversions, logged.writes, logged.current, logged.readWhole, logged.counting,
          logged.counted, logged.length⟩
      exact quitting.goto _ (by simp [pc, ClientPc.pushed]) (by simp [pc]) (by simp)
  | accountWrite time info pc =>
      have same : ledger.note config.arguments client (.advance time) = ledger := by
        simp [Ledger.note, pc]
      rw [same]
      exact ⟨logged.conversions, logged.writes,
        by intro offset lower upper; simp only [Client.goto, ClientPc.pushed] at lower; omega,
        logged.readWhole, fun _ => logged.counting (by simp [pc]), by simp [Client.goto],
        logged.length⟩
  | recvSome data canWrite transfer pc | recvLast data canWrite transfer pc
  | recvStop canWrite transfer pc | sendStop transfer pc =>
      exact logged.goto _ (by simp [pc, ClientPc.pushed]) (by simp [pc]) (by simp)
  | enter time pc | skipRead time canRead canWrite pc | readNothing time canWrite pc
  | startRead time canWrite pc | skipWrite time canWrite pc | startWrite time pc =>
      have same : ledger.note config.arguments client (.advance time) = ledger := by
        simp [Ledger.note, pc]
      rw [same]
      exact logged.goto _ (by simp [pc, ClientPc.pushed]) (by simp [pc]) (by simp)

def Finished (config : Config) (client : Client Byte) : Prop :=
  (client.pc = .loop ∨ client.pc = .exit) ∧ config.total ≤ client.totalBytesRead

def ahead (config : Config) (client : Client Byte) : Nat :=
  if client.pc.stamped = true then config.rate - client.outstandingReqs else 0

structure Open (config : Config) (ledger : Ledger) (client : Client Byte)
    (stamp : Stretch Reading) : Prop where
  stamped : client.pc.stamped = true
  iteration : stamp.label.iteration = ledger.iteration
  start : stamp.start = (ledger.written - client.pc.pushed) ⌈/⌉ config.size
  length : stamp.length = config.rate - client.outstandingReqs

/-- Stamps and conversions of a client whose iterations hand over bytes that fit what they
stamped, except perhaps the last one. -/
structure Timed (Fits : Nat → Nat → Nat → Prop) (config : Config) (ledger : Ledger)
    (seen : List Nat) (client : Client Byte) : Prop where
  sent : ¬client.Finished config → client.numReqsSent =
    (ledger.written - client.pc.pushed) ⌈/⌉ config.size + client.ahead config
  stamps : Consecutive ledger.stamps client.numReqsSent
  earlier : ∀ stamp ∈ ledger.stamps, stamp.label.iteration ≤ ledger.iteration
  past : client.pc.unstamped = true → ∀ stamp ∈ ledger.stamps,
    stamp.label.iteration < ledger.iteration
  clock : ∀ stamp ∈ ledger.stamps, stamp.label.time ∈ seen
  settled : ¬client.Finished config → ∀ stamp ∈ ledger.stamps,
    Settled Fits config ledger.writes stamp ∨ client.Open config ledger stamp
  waiting : ∀ stamp ∈ ledger.stamps, ∀ index < config.count, client.numReqsRead ≤ index →
    stamp.Covers index → client.times.getD index 0 = stamp.label.time
  converted : ∀ conversion ∈ ledger.conversions, ∀ index < config.count,
    conversion.Covers index → ∃ stamp ∈ ledger.stamps,
      Times Fits config ledger.writes index stamp conversion ∧
      client.times.getD index 0 = conversion.label.time - stamp.label.time

variable {Fits : Nat → Nat → Nat → Prop} {seen : List Nat} {later : Ledger}

theorem Timed.initial (memory : ClientMemory Byte config) :
    Timed Fits config Ledger.empty [] (Client.initial memory) where
  sent := by simp [Client.initial, Ledger.empty, ahead, ClientPc.stamped]
  stamps := Consecutive.nil
  earlier := by simp [Ledger.empty]
  past := by simp [Ledger.empty]
  clock := by simp [Ledger.empty]
  settled := by simp [Ledger.empty]
  waiting := by simp [Ledger.empty]
  converted := by simp [Ledger.empty]

structure Quiet (ledger : Ledger) (client : Client Byte) (later : Ledger)
    (next : Client Byte) : Prop where
  stamps : later.stamps = ledger.stamps
  conversions : later.conversions = ledger.conversions
  writes : ∀ write ∈ ledger.writes, write ∈ later.writes
  offset : later.written - next.pc.pushed = ledger.written - client.pc.pushed
  iteration : later.iteration = ledger.iteration + if client.pc = .poll then 1 else 0
  stamped : next.pc.stamped = client.pc.stamped
  unstamped : next.pc.unstamped = true → client.pc.unstamped = true ∨ client.pc = .poll
  numReqsSent : next.numReqsSent = client.numReqsSent
  numReqsRead : next.numReqsRead = client.numReqsRead
  outstandingReqs : next.outstandingReqs = client.outstandingReqs
  times : next.times = client.times

theorem Timed.quiet (timed : Timed Fits config ledger seen client)
    (quiet : Quiet ledger client later next) (more : ∀ time ∈ seen, time ∈ moreSeen)
    (unfinished : ¬next.Finished config → ¬client.Finished config) :
    Timed Fits config later moreSeen next where
  sent := by
    intro running
    rw [quiet.numReqsSent, quiet.offset, ahead, quiet.stamped, quiet.outstandingReqs]
    exact timed.sent (unfinished running)
  stamps := by
    rw [quiet.stamps, quiet.numReqsSent]
    exact timed.stamps
  earlier := by
    intro stamp member
    rw [quiet.stamps] at member
    have old := timed.earlier stamp member
    have iteration := quiet.iteration
    omega
  past := by
    intro unstamped stamp member
    rw [quiet.stamps] at member
    have old := timed.earlier stamp member
    have iteration := quiet.iteration
    rcases quiet.unstamped unstamped with before | polled
    · have strict := timed.past before stamp member
      omega
    · rw [if_pos polled] at iteration
      omega
  clock := by
    intro stamp member
    rw [quiet.stamps] at member
    exact more _ (timed.clock stamp member)
  settled := by
    intro running stamp member
    rw [quiet.stamps] at member
    rcases timed.settled (unfinished running) stamp member with settled | opened
    · exact Or.inl (settled.mono quiet.writes)
    · refine Or.inr ⟨quiet.stamped.trans opened.stamped, ?_, ?_, ?_⟩
      · have between : client.pc ≠ .poll := by
          intro polling
          have stamped := opened.stamped
          simp [polling, ClientPc.stamped] at stamped
        rw [quiet.iteration, if_neg between]
        exact opened.iteration
      · rw [quiet.offset]
        exact opened.start
      · rw [quiet.outstandingReqs]
        exact opened.length
  waiting := by
    intro stamp member
    rw [quiet.stamps] at member
    rw [quiet.numReqsRead, quiet.times]
    exact timed.waiting stamp member
  converted := by
    intro conversion member index below covers
    rw [quiet.conversions] at member
    obtain ⟨stamp, stamped, times, value⟩ :=
      timed.converted conversion member index below covers
    refine ⟨stamp, ?_, times.mono quiet.writes, ?_⟩
    · rw [quiet.stamps]
      exact stamped
    · rw [quiet.times]
      exact value

theorem not_finished (loop : client.pc ≠ .loop) (exit : client.pc ≠ .exit) :
    ¬client.Finished config := by
  rintro ⟨either, _⟩
  exact either.elim loop exit

theorem not_finished_of_stamped (stamped : client.pc.stamped = true) :
    ¬client.Finished config := by
  apply not_finished
  · intro loop
    simp [loop, ClientPc.stamped] at stamped
  · intro exit
    simp [exit, ClientPc.stamped] at stamped

theorem Timed.numReqsSent_lt (timed : Timed Fits config ledger seen client)
    (balanced : Balanced config received sent client) (written : ledger.written = sent)
    (running : ¬client.Finished config) :
    client.numReqsSent + config.rate < 18446744073709551616 := by
  have rate : client.ahead config ≤ config.rate := by
    unfold ahead
    split <;> omega
  have begun : (ledger.written - client.pc.pushed) ⌈/⌉ config.size ≤
      ledger.written - client.pc.pushed := by
    rw [ceilDiv_le_iff_le_mul config.size_pos]
    exact Nat.le_mul_of_pos_left _ config.size_pos
  have total := timed.sent running
  have balance := balanced.balance
  have window := balanced.window
  have bound := balanced.bound
  have rateInt := config.rate_int
  have totalBound := config.total_lt
  have windowBound := config.window_lt
  omega

theorem Timed.answered_le (timed : Timed Fits config ledger seen client)
    (balanced : Balanced config received sent client) (written : ledger.written = sent)
    (running : ¬client.Finished config) {answered : Nat}
    (whole : config.size * answered ≤ received) (idle : client.pc.pushed = 0) :
    answered ≤ client.numReqsSent := by
  have balance := balanced.balance
  have fetched := balanced.fetched
  have reached : ledger.written ≤ config.size * (ledger.written ⌈/⌉ config.size) :=
    (ceilDiv_le_iff_le_mul config.size_pos).mp (Nat.le_refl _)
  have product : config.size * answered ≤ config.size * (ledger.written ⌈/⌉ config.size) := by
    omega
  have begun := Nat.le_of_mul_le_mul_left product config.size_pos
  have total := timed.sent running
  rw [idle, Nat.sub_zero] at total
  omega

theorem Logged.sizeT_count (logged : Logged config ledger client) (stays : client.pc ≠ .exit) :
    sizeT client.count = config.count := by
  have countInt := config.count_int
  rw [logged.counting stays]
  exact sizeT_natCast (by omega)

theorem Logged.times_accountRead (logged : Logged config ledger client)
    (balanced : Balanced config received sent client) {canWrite : Bool} {info : MetaData}
    (pc : client.pc = .readDone canWrite info) (time : Nat) {index : Nat}
    (below : index < config.count) :
    (client.accountRead time info).times.getD index 0 =
      if client.numReqsRead ≤ index ∧ index < client.numReqsRead + info.wholeReqs then
        sizeT (time - (client.times.getD index 0 : Nat))
      else client.times.getD index 0 := by
  have bound := (balanced.converts logged pc).2
  have length := logged.length
  simp only [Client.accountRead, Client.readTimes, Client.toUpdateRead_eq]
  have fits : client.numReqsRead + info.wholeReqs < 18446744073709551616 := by omega
  rw [LatencyArray.updateReadWriteTimes_getD, logged.sizeT_count (by simp [pc])]
  simp only [LatencyArray.mem_updateRange fits]
  by_cases inside : client.numReqsRead ≤ index ∧ index < client.numReqsRead + info.wholeReqs
  · rw [if_pos inside, if_pos ⟨⟨inside.1, inside.2, below⟩, by omega⟩]
  · rw [if_neg inside, if_neg (fun all => inside ⟨all.1.1, all.1.2.1⟩)]

theorem Timed.accountRead (timed : Timed Fits config ledger seen client)
    (logged : Logged config ledger client) (balanced : Balanced config received sent client)
    (written : ledger.written = sent) {canWrite : Bool} {info : MetaData} {time : Nat}
    (pc : client.pc = .readDone canWrite info) (latest : ∀ earlier ∈ seen, earlier ≤ time)
    (fits : time < 18446744073709551616) (more : ∀ time ∈ seen, time ∈ moreSeen) :
    Timed Fits config (ledger.note config.arguments client (.advance time)) moreSeen
      ((client.accountRead time info).goto (.stamp canWrite)) := by
  have running : ¬client.Finished config := not_finished (by simp [pc]) (by simp [pc])
  have idle : client.pc.pushed = 0 := by simp [pc, ClientPc.pushed]
  obtain ⟨whole, _⟩ := balanced.converts logged pc
  have stamped := timed.answered_le balanced written running whole idle
  have numReqsRead := balanced.numReqsRead_accountRead logged pc time
  have same : ledger.note config.arguments client (.advance time) =
      { ledger with conversions := ledger.conversions ++
          [⟨⟨ledger.iteration, time⟩, client.numReqsRead, info.wholeReqs⟩] } := by
    simp [Ledger.note, pc]
  have settled : ∀ stamp ∈ ledger.stamps, Settled Fits config ledger.writes stamp := by
    intro stamp member
    rcases timed.settled running stamp member with settled | opened
    · exact settled
    · have stamps := opened.stamped
      simp [pc, ClientPc.stamped] at stamps
  rw [same]
  exact {
    sent := by
      intro _
      have total := timed.sent running
      simpa [idle, ahead, pc, Client.goto, Client.accountRead, ClientPc.stamped,
        ClientPc.pushed] using total
    stamps := timed.stamps
    earlier := timed.earlier
    past := fun _ => timed.past (by simp [pc, ClientPc.unstamped])
    clock := fun stamp member => more _ (timed.clock stamp member)
    settled := fun _ stamp member => Or.inl (settled stamp member)
    waiting := by
      intro stamp member index below unread covers
      simp only [Client.goto, numReqsRead] at unread
      simp only [Client.goto]
      rw [logged.times_accountRead balanced pc time below, if_neg (by omega)]
      exact timed.waiting stamp member index below (by omega) covers
    converted := by
      intro conversion member index below covers
      simp only [Client.goto]
      rw [logged.times_accountRead balanced pc time below]
      rcases List.mem_append.mp member with old | new
      · have before := logged.conversions.lt_of_covers old covers
        rw [if_neg (by omega)]
        exact timed.converted conversion old index below covers
      · -- The entry still holds the stamp, which an earlier iteration has made.
        rw [List.mem_singleton] at new
        subst new
        have inside : client.numReqsRead ≤ index ∧
            index < client.numReqsRead + info.wholeReqs := covers
        obtain ⟨stamp, stampMember, stampCovers⟩ :=
          timed.stamps.exists_covers (Nat.lt_of_lt_of_le inside.2 stamped)
        have value := timed.waiting stamp stampMember index below inside.1 stampCovers
        have ordered := latest _ (timed.clock stamp stampMember)
        refine ⟨stamp, stampMember, ⟨stampCovers, settled stamp stampMember, ?_, ordered⟩, ?_⟩
        · exact timed.past (by simp [pc, ClientPc.unstamped]) stamp stampMember
        · rw [if_pos inside, value]
          exact sizeT_sub fits ordered
  }

theorem Logged.times_stampWrites (logged : Logged config ledger client)
    (short : client.outstandingReqs < config.rate) (stays : client.pc ≠ .exit)
    (fits : client.numReqsSent + (config.rate - client.outstandingReqs) < 18446744073709551616)
    (time : Nat) {index : Nat} (below : index < config.count) :
    (client.stampWrites config.arguments time).times.getD index 0 =
      if client.numReqsSent ≤ index ∧
          index < client.numReqsSent + (config.rate - client.outstandingReqs) then time
      else client.times.getD index 0 := by
  have length := logged.length
  rw [stampWrites, Config.maxOutstandingReqs_eq, if_pos short]
  simp only
  rw [Client.stampTimes, LatencyArray.updateWriteTimes_getD, Config.maxOutstandingReqs_eq,
    logged.sizeT_count stays]
  simp only [LatencyArray.mem_updateRange fits]
  by_cases inside : client.numReqsSent ≤ index ∧
      index < client.numReqsSent + (config.rate - client.outstandingReqs)
  · rw [if_pos inside, if_pos ⟨⟨inside.1, inside.2, below⟩, by omega⟩]
  · rw [if_neg inside, if_neg (fun all => inside ⟨all.1.1, all.1.2.1⟩)]

theorem Timed.stampSome (timed : Timed Fits config ledger seen client)
    (logged : Logged config ledger client) (balanced : Balanced config received sent client)
    (written : ledger.written = sent) {canWrite : Bool} {time : Nat}
    (pc : client.pc = .stamp canWrite) (short : client.outstandingReqs < config.rate)
    (now : time ∈ moreSeen) (more : ∀ time ∈ seen, time ∈ moreSeen) :
    Timed Fits config (ledger.note config.arguments client (.advance time)) moreSeen
      ((client.stampWrites config.arguments time).goto (.write canWrite)) := by
  have running : ¬client.Finished config := not_finished (by simp [pc]) (by simp [pc])
  have idle : client.pc.pushed = 0 := by simp [pc, ClientPc.pushed]
  have bound := timed.numReqsSent_lt balanced written running
  have readWhole : config.size * client.numReqsRead ≤ received := by
    have read := balanced.read
    have whole := logged.readWhole
    omega
  have stamped := timed.answered_le balanced written running readWhole idle
  have total := timed.sent running
  rw [idle, Nat.sub_zero, ahead, pc, if_neg (by simp [ClientPc.stamped]), Nat.add_zero] at total
  have fits : client.numReqsSent + (config.rate - client.outstandingReqs) <
      18446744073709551616 := by omega
  have times := fun index (below : index < config.count) =>
    logged.times_stampWrites short (by simp [pc]) fits time below
  have numReqsSent : (client.stampWrites config.arguments time).numReqsSent =
      client.numReqsSent + (config.rate - client.outstandingReqs) := by
    rw [stampWrites, Config.maxOutstandingReqs_eq, if_pos short]
    exact sizeT_add fits
  have outstandingReqs := stampWrites_outstandingReqs config.arguments time client
  have numReqsRead := stampWrites_numReqsRead config.arguments time client
  have same : ledger.note config.arguments client (.advance time) =
      { ledger with stamps := ledger.stamps ++ [⟨⟨ledger.iteration, time⟩, client.numReqsSent,
          config.rate - client.outstandingReqs⟩] } := by
    simp [Ledger.note, pc, short]
  rw [same]
  exact {
    sent := by
      intro _
      simp only [Client.goto, numReqsSent, ahead, outstandingReqs, ClientPc.stamped,
        ClientPc.pushed, total, if_true, Nat.sub_zero]
    stamps := by
      simp only [Client.goto, numReqsSent]
      exact timed.stamps.next _ _
    earlier := by
      intro stamp member
      rcases List.mem_append.mp member with old | new
      · exact timed.earlier stamp old
      · rw [List.mem_singleton] at new
        subst new
        exact Nat.le_refl _
    past := by simp [Client.goto, ClientPc.unstamped]
    clock := by
      intro stamp member
      rcases List.mem_append.mp member with old | new
      · exact more _ (timed.clock stamp old)
      · rw [List.mem_singleton] at new
        subst new
        exact now
    settled := by
      intro _ stamp member
      rcases List.mem_append.mp member with old | new
      · rcases timed.settled running stamp old with settled | opened
        · exact Or.inl settled
        · have stamps := opened.stamped
          simp [pc, ClientPc.stamped] at stamps
      · rw [List.mem_singleton] at new
        subst new
        refine Or.inr ⟨rfl, rfl, total, ?_⟩
        simp only [Client.goto, outstandingReqs]
    waiting := by
      intro stamp member index below unread covers
      simp only [Client.goto, numReqsRead] at unread ⊢
      rw [times index below]
      rcases List.mem_append.mp member with old | new
      · have before := timed.stamps.lt_of_covers old covers
        rw [if_neg (by omega)]
        exact timed.waiting stamp old index below unread covers
      · rw [List.mem_singleton] at new
        subst new
        exact if_pos covers
    converted := by
      intro conversion member index below covers
      simp only [Client.goto]
      have before := logged.conversions.lt_of_covers member covers
      rw [times index below, if_neg (by omega)]
      obtain ⟨stamp, stampMember, rest⟩ :=
        timed.converted conversion member index below covers
      exact ⟨stamp, List.mem_append_left _ stampMember, rest⟩
  }

theorem Timed.stampNone (timed : Timed Fits config ledger seen client) {canWrite : Bool}
    (pc : client.pc = .stamp canWrite) (full : ¬client.outstandingReqs < config.rate)
    (more : ∀ time ∈ seen, time ∈ moreSeen) :
    Timed Fits config ledger moreSeen (client.goto (.write canWrite)) := by
  have running : ¬client.Finished config := not_finished (by simp [pc]) (by simp [pc])
  have total := timed.sent running
  refine {
    sent := ?_
    stamps := timed.stamps
    earlier := timed.earlier
    past := by simp [Client.goto, ClientPc.unstamped]
    clock := fun stamp member => more _ (timed.clock stamp member)
    settled := ?_
    waiting := timed.waiting
    converted := timed.converted
  }
  · intro _
    have none : config.rate - client.outstandingReqs = 0 := by omega
    simpa [ahead, Client.goto, pc, ClientPc.stamped, ClientPc.pushed, none] using total
  · intro _ stamp member
    rcases timed.settled running stamp member with settled | opened
    · exact Or.inl settled
    · have stamps := opened.stamped
      simp [pc, ClientPc.stamped] at stamps

theorem Timed.endIteration (timed : Timed Fits config ledger seen client)
    (logged : Logged config ledger client) (stamped : client.pc.stamped = true)
    (more : ∀ time ∈ seen, time ∈ moreSeen) (numReqsSent : next.numReqsSent = client.numReqsSent)
    (numReqsRead : next.numReqsRead = client.numReqsRead) (times : next.times = client.times)
    (loop : next.pc = .loop)
    (adds : ∀ before accepted stamped, Fits before accepted stamped →
      (before + accepted) ⌈/⌉ config.size = before ⌈/⌉ config.size + stamped)
    (pushed : client.pc.pushed ≤ ledger.written)
    (ends : next.Finished config ∨ Fits (ledger.written - client.pc.pushed) client.pc.pushed
      (config.rate - client.outstandingReqs)) :
    Timed Fits config ledger moreSeen next := by
  have running : ¬client.Finished config := not_finished_of_stamped stamped
  have fits : ¬next.Finished config → Fits (ledger.written - client.pc.pushed) client.pc.pushed
      (config.rate - client.outstandingReqs) := fun running => ends.resolve_left running
  refine {
    sent := ?_
    stamps := by rw [numReqsSent]; exact timed.stamps
    earlier := timed.earlier
    past := by simp [loop, ClientPc.unstamped]
    clock := fun stamp member => more _ (timed.clock stamp member)
    settled := ?_
    waiting := by rw [numReqsRead, times]; exact timed.waiting
    converted := by rw [times]; exact timed.converted
  }
  · intro continues
    have total := timed.sent running
    have reached := adds _ _ _ (fits continues)
    rw [Nat.sub_add_cancel pushed] at reached
    rw [ahead, if_pos stamped] at total
    rw [numReqsSent, ahead, loop, if_neg (by simp [ClientPc.stamped])]
    simp only [ClientPc.pushed, Nat.sub_zero]
    omega
  · intro continues stamp member
    refine Or.inl ?_
    rcases timed.settled running stamp member with settled | opened
    · exact settled
    · refine ⟨ledger.written - client.pc.pushed, client.pc.pushed, ?_, opened.start, ?_⟩
      · rw [opened.length]
        exact fits continues
      · intro offset lower upper
        rw [opened.iteration]
        exact logged.current offset (by omega) (by omega)

def accepted (args : Arguments) (client : Client Byte) (action : Action Byte) : Option Nat :=
  match action, client.pc with
  | .advance _, .write canWrite =>
      if canWrite = true ∧ client.outstandingBytes < args.maxOutstandingBytes ∧
          client.quit = false then none
      else some 0
  | .advance _, .writeDone info => some info.totalBytes
  | _, _ => none

theorem accepted_inv {args : Arguments} {amount : Nat}
    (ended : client.accepted args action = some amount) :
    (∃ canWrite, client.pc = .write canWrite ∧ amount = 0 ∧
      (canWrite = false ∨ args.maxOutstandingBytes ≤ client.outstandingBytes ∨
        client.quit = true)) ∨
    (∃ info, client.pc = .writeDone info ∧ amount = info.totalBytes) := by
  unfold accepted at ended
  split at ended
  · rename_i time canWrite pc
    split at ended
    · cases ended
    · rename_i refused
      refine Or.inl ⟨canWrite, pc, (Option.some.inj ended).symm, ?_⟩
      by_cases writable : canWrite = true
      · by_cases room : client.outstandingBytes < args.maxOutstandingBytes
        · exact Or.inr (Or.inr (by simpa [writable, room] using refused))
        · exact Or.inr (Or.inl (by omega))
      · exact Or.inl (by simpa using writable)
  · rename_i time info pc
    exact Or.inr ⟨info, pc, (Option.some.inj ended).symm⟩
  · cases ended

theorem quiet_goto (pc : ClientPc) (pushed : pc.pushed = client.pc.pushed)
    (stamped : pc.stamped = client.pc.stamped)
    (unstamped : pc.unstamped = true → client.pc.unstamped = true) (between : client.pc ≠ .poll) :
    Quiet ledger client ledger (client.goto pc) where
  stamps := rfl
  conversions := rfl
  writes := fun _ member => member
  offset := by rw [Client.goto, pushed]
  iteration := by rw [if_neg between, Nat.add_zero]
  stamped := stamped
  unstamped := fun before => Or.inl (unstamped before)
  numReqsSent := rfl
  numReqsRead := rfl
  outstandingReqs := rfl
  times := rfl

theorem quiet_send {amount : Nat} {transfer : Transfer} (pc : client.pc = .writing transfer)
    (next : ClientPc) (pushed : next.pushed = transfer.total + amount)
    (stamped : next.stamped = true) (unstamped : next.unstamped = false) :
    Quiet ledger client (ledger.note config.arguments client (.send amount))
      (client.goto next) where
  stamps := rfl
  conversions := rfl
  writes := fun _ member => List.mem_append_left _ member
  offset := by
    change ledger.written + amount - next.pushed = ledger.written - client.pc.pushed
    rw [pushed, pc]
    simp only [ClientPc.pushed]
    omega
  iteration := by simp [Ledger.note, pc]
  stamped := by
    rw [pc]
    exact stamped
  unstamped := by simp [Client.goto, unstamped]
  numReqsSent := rfl
  numReqsRead := rfl
  outstandingReqs := rfl
  times := rfl

theorem Timed.step (timed : Timed Fits config ledger seen client)
    (logged : Logged config ledger client) (before : Balanced config received sent client)
    (written : ledger.written = sent) (taken : Step config.arguments client action next)
    (latest : ∀ time, action = .advance time →
      (∀ earlier ∈ seen, earlier ≤ time) ∧ time < 18446744073709551616 ∧ time ∈ moreSeen)
    (more : ∀ time ∈ seen, time ∈ moreSeen)
    (adds : ∀ before accepted stamped, Fits before accepted stamped →
      (before + accepted) ⌈/⌉ config.size = before ⌈/⌉ config.size + stamped)
    (ends : config.total ≤ client.totalBytesRead ∨
      ∀ accepted, client.accepted config.arguments action = some accepted →
        Fits (sent - accepted) accepted (config.rate - client.outstandingReqs)) :
    Timed Fits config (ledger.note config.arguments client action) moreSeen next := by
  have unfinished : client.pc ≠ .loop → client.pc ≠ .exit → ¬next.Finished config →
      ¬client.Finished config := fun loop exit _ => not_finished loop exit
  cases taken with
  | signal =>
      exact ⟨timed.sent, timed.stamps, timed.earlier, timed.past,
        fun stamp member => more _ (timed.clock stamp member),
        fun running stamp member => (timed.settled running stamp member).imp_right
          fun opened => ⟨opened.stamped, opened.iteration, opened.start, opened.length⟩,
        timed.waiting, timed.converted⟩
  | finish time pc isOver =>
      have same : ledger.note config.arguments client (.advance time) = ledger := by
        simp [Ledger.note, pc]
      rw [same]
      refine timed.quiet ⟨rfl, rfl, fun _ member => member, by simp [leave, pc, ClientPc.pushed],
        by simp [pc], by simp [leave, pc, ClientPc.stamped], by simp [leave, ClientPc.unstamped],
        rfl, rfl, rfl, rfl⟩ more ?_
      intro running finished
      exact running ⟨Or.inr rfl, finished.2⟩
  | pollFailed ready pc failed =>
      exact timed.quiet ⟨rfl, rfl, fun _ member => member,
        by simp [Ledger.note, leave, pc, ClientPc.pushed], by simp [Ledger.note, pc],
        by simp [leave, pc, ClientPc.stamped], by simp [leave, ClientPc.unstamped],
        rfl, rfl, rfl, rfl⟩ more (unfinished (by simp [pc]) (by simp [pc]))
  | polled canRead canWrite pc running =>
      exact timed.quiet ⟨rfl, rfl, fun _ member => member,
        by simp [Ledger.note, Client.goto, pc, ClientPc.pushed], by simp [Ledger.note, pc],
        by simp [Client.goto, pc, ClientPc.stamped], fun _ => Or.inr pc,
        rfl, rfl, rfl, rfl⟩ more (unfinished (by simp [pc]) (by simp [pc]))
  | accountRead time canWrite info pc =>
      obtain ⟨rises, fits, _⟩ := latest time rfl
      exact timed.accountRead logged before written pc rises fits more
  | stamp time canWrite pc =>
      by_cases short : client.outstandingReqs < config.rate
      · exact timed.stampSome logged before written pc short (latest time rfl).2.2 more
      · have none : client.stampWrites config.arguments time = client := by
          rw [stampWrites, Config.maxOutstandingReqs_eq, if_neg short]
        have same : ledger.note config.arguments client (.advance time) = ledger := by
          simp [Ledger.note, pc, short]
        rw [none, same]
        exact timed.stampNone pc short more
  | skipWrite time canWrite pc skipped =>
      have same : ledger.note config.arguments client (.advance time) = ledger := by
        simp [Ledger.note, pc]
      have refused : ¬(canWrite = true ∧
          client.outstandingBytes < config.arguments.maxOutstandingBytes ∧
          client.quit = false) := by
        rintro ⟨writable, room, running⟩
        rcases skipped with no | full | quit
        · simp [writable] at no
        · omega
        · simp [running] at quit
      rw [same]
      refine timed.endIteration logged (by simp [pc, ClientPc.stamped]) more rfl rfl rfl rfl adds
        (by simp [pc, ClientPc.pushed]) ?_
      rcases ends with reached | fits
      · exact Or.inl ⟨Or.inl rfl, reached⟩
      · have ended := fits 0 (by simp only [accepted, pc, if_neg refused])
        refine Or.inr ?_
        simpa [pc, ClientPc.pushed, written] using ended
  | accountWrite time info pc =>
      have same : ledger.note config.arguments client (.advance time) = ledger := by
        simp [Ledger.note, pc]
      have balance := before.balance
      have fetched := before.fetched
      rw [same]
      refine timed.endIteration logged (by simp [pc, ClientPc.stamped]) more rfl rfl rfl rfl adds
        (by omega) ?_
      rcases ends with reached | fits
      · exact Or.inl ⟨Or.inl rfl, reached⟩
      · have ended := fits info.totalBytes (by simp [accepted, pc])
        refine Or.inr ?_
        simpa [pc, ClientPc.pushed, written] using ended
  | sendSome amount transfer pc nonempty within partly =>
      exact timed.quiet (quiet_send pc _ rfl rfl rfl) more
        (unfinished (by simp [pc]) (by simp [pc]))
  | sendLast amount transfer pc nonempty within full =>
      exact timed.quiet (quiet_send pc _ rfl rfl rfl) more
        (unfinished (by simp [pc]) (by simp [pc]))
  | sendBroken transfer pc =>
      exact timed.quiet ⟨rfl, rfl, fun _ member => member,
        by simp [Ledger.note, Client.goto, pc, ClientPc.pushed], by simp [Ledger.note, pc],
        by simp [Client.goto, pc, ClientPc.stamped], by simp [Client.goto, ClientPc.unstamped],
        rfl, rfl, rfl, rfl⟩ more (unfinished (by simp [pc]) (by simp [pc]))
  | enter time pc room running =>
      have same : ledger.note config.arguments client (.advance time) = ledger := by
        simp [Ledger.note, pc]
      rw [same]
      refine timed.quiet (quiet_goto _ (by simp [pc, ClientPc.pushed])
        (by simp [pc, ClientPc.stamped]) (by simp [ClientPc.unstamped]) (by simp [pc])) more ?_
      rintro _ ⟨_, reached⟩
      have read := before.read
      have bound := before.bound
      have totalBound := config.total_lt
      have windowBound := config.window_lt
      simp only [pc, ClientPc.fetched] at read
      rw [Config.maxBytes_eq, sizeT_eq (by omega) (by omega)] at room
      omega
  | recvSome data canWrite transfer pc | recvLast data canWrite transfer pc
  | recvStop canWrite transfer pc | sendStop transfer pc =>
      exact timed.quiet (quiet_goto _ (by simp [pc, ClientPc.pushed])
        (by simp [pc, ClientPc.stamped]) (by simp [pc, ClientPc.unstamped]) (by simp [pc])) more
        (unfinished (by simp [pc]) (by simp [pc]))
  | skipRead time canRead canWrite pc | readNothing time canWrite pc
  | startRead time canWrite pc | startWrite time pc =>
      have same : ledger.note config.arguments client (.advance time) = ledger := by
        simp [Ledger.note, pc]
      rw [same]
      exact timed.quiet (quiet_goto _ (by simp [pc, ClientPc.pushed])
        (by simp [pc, ClientPc.stamped]) (by simp [pc, ClientPc.unstamped]) (by simp [pc])) more
        (unfinished (by simp [pc]) (by simp [pc]))

def EndsWith (Fits : Nat → Nat → Nat → Prop) (config : Config)
    (earlier : List (Client Byte × Action Byte)) (client : Client Byte)
    (action : Action Byte) : Prop :=
  ∀ accepted, client.accepted config.arguments action = some accepted →
    Fits (bytesSent earlier - accepted) accepted (config.rate - client.outstandingReqs)

instance (Fits : Nat → Nat → Nat → Prop)
    [∀ before accepted stamped, Decidable (Fits before accepted stamped)]
    (earlier : List (Client Byte × Action Byte)) :
    Decidable (EndsWith Fits config earlier client action) :=
  inferInstanceAs (Decidable (∀ accepted ∈ client.accepted config.arguments action,
    Fits (bytesSent earlier - accepted) accepted (config.rate - client.outstandingReqs)))

section Runs

variable {memory : ClientMemory Byte config} {trace : List (Client Byte × Action Byte)}

theorem ledger_written (args : Arguments) (trace : List (Client Byte × Action Byte)) :
    (IpcBench.ledger args trace).written = bytesSent trace := by
  induction trace using List.reverseRecOn with
  | nil => rfl
  | append_singleton trace entry ih =>
      obtain ⟨client, action⟩ := entry
      rw [ledger_step, bytesSent_step, ← ih]
      unfold Ledger.note
      cases action with
      | advance time =>
          cases client.pc with
          | stamp canWrite =>
              simp only
              split <;> rfl
          | _ => rfl
      | _ => rfl

theorem Logged.run
    (run : Run (machine config.arguments) (Client.initial memory) trace client) :
    Logged config (IpcBench.ledger config.arguments trace) client := by
  refine run.invariant
    (fun trace client => Logged config (IpcBench.ledger config.arguments trace) client)
    (Logged.initial memory) ?_
  intro trace client action next run logged taken
  have own := step_inv taken
  have before := Balanced.run run
  rw [ledger_step]
  exact logged.step before (before.step own) own

theorem Timed.run
    (adds : ∀ before accepted stamped, Fits before accepted stamped →
      (before + accepted) ⌈/⌉ config.size = before ⌈/⌉ config.size + stamped)
    (run : Run (machine config.arguments) (Client.initial memory) trace client)
    (clock : ClockRises trace)
    (ends : Throughout (fun earlier (client : Client Byte) action =>
      config.total ≤ client.totalBytesRead ∨ EndsWith Fits config earlier client action) trace) :
    Timed Fits config (IpcBench.ledger config.arguments trace) (readings trace) client := by
  induction run with
  | start => exact Timed.initial memory
  | step run taken ih =>
      rename_i trace client action next
      obtain ⟨earlier, last⟩ := throughout_step.mp ends
      have timed := ih clock.earlier earlier
      rw [ledger_step, readings_step]
      refine timed.step (Logged.run run) (Balanced.run run) (ledger_written _ trace)
        (step_inv taken) ?_ (fun time member => List.mem_append_left _ member) adds last
      intro time now
      subst now
      obtain ⟨rises, fits⟩ := clock.latest
      exact ⟨rises, fits, List.mem_append_right _ (by simp [readings])⟩

end Runs

end Client

end IpcBench
