import IpcBench.Pair

/-!
The two readings of the clock that a server evaluates: when it is started, and at the top
of the last iteration.
-/

namespace IpcBench

open Words Transition

namespace Server

variable {Byte : Type}

def beginsIteration (args : Arguments) (server : Server Byte) : Bool :=
  server.pc == .loop && decide (server.totalBytesWritten < ssizeT args.maxBytes) && !server.quit

def setsUp (transport : Transport) (server : Server Byte) : Bool :=
  transport != .tcp && server.firstRead &&
    match server.pc with
    | .readDone _ info => info.totalBytes != 0
    | _ => false

def readsClock (transport : Transport) (args : Arguments) (server : Server Byte) : Bool :=
  server.beginsIteration args || server.setsUp transport

def clockReadings (transport : Transport) (args : Arguments) (startTime : Nat)
    (trace : List (Server Byte × Action Byte)) : List Nat :=
  (if transport = .tcp then [startTime] else []) ++ trace.filterMap fun entry =>
    match entry.2 with
    | .advance time => if entry.1.readsClock transport args then some time else none
    | _ => none

/-- `evaluateServer` subtracts a clock that has been started, and without a borrow. -/
def Measured (server : Server Byte) : Prop :=
  ∃ start, server.totalStart = some start ∧ start ≤ server.endTime

def Runs (transport : Transport) (trace : List (Server Byte × Action Byte)) : Prop :=
  transport = .tcp ∨ ∃ entry ∈ trace, ∃ data, entry.2 = .recv data

def BegunAt (args : Arguments) (time : Nat) (trace : List (Server Byte × Action Byte)) : Prop :=
  ∃ entry ∈ trace, entry.2 = .advance time ∧ entry.1.beginsIteration args = true

/-- An iteration has begun while the clock ran. -/
def BegunRunning (transport : Transport) (args : Arguments) :
    List (Server Byte × Action Byte) → Prop :=
  Occurs fun earlier server action =>
    (∃ time, action = .advance time) ∧ server.beginsIteration args = true ∧ Runs transport earlier

def ClockStood (transport : Transport) (args : Arguments) (startTime : Nat)
    (trace : List (Server Byte × Action Byte)) : Prop :=
  (transport = .tcp ∧ startTime = 0) ∨
    Occurs (fun earlier server action =>
      ∃ time, action = .advance time ∧ server.setsUp transport = true ∧ BegunAt args time earlier)
      trace

def hasRead (server : Server Byte) : Prop :=
  server.firstRead = false ∨ match server.pc with
    | .reading _ transfer => 0 < transfer.total
    | .readDone _ info => info.totalBytes ≠ 0
    | _ => False

section Step

variable {transport : Transport} {args : Arguments} {server next : Server Byte}
  {action : Action Byte}

theorem Step.clock (taken : Step transport args server action next) :
    (∃ time, action = .advance time ∧ server.beginsIteration args = true ∧
      next = { server with endTime := time }.goto .poll) ∨
    (∃ time, action = .advance time ∧ server.setsUp transport = true ∧
      next.totalStart = some time ∧ next.firstRead = false ∧ next.endTime = server.endTime) ∨
    ((∀ time, action = .advance time →
        server.beginsIteration args = false ∧ server.setsUp transport = false) ∧
      next.totalStart = server.totalStart ∧ next.firstRead = server.firstRead ∧
      next.endTime = server.endTime ∧
      (server.pc = .loop ∨ server.pc = .exit → next.pc = .loop ∨ next.pc = .exit)) := by
  cases taken with
  | enter time pc more running =>
      refine Or.inl ⟨time, rfl, ?_, rfl⟩
      simp [beginsIteration, pc, more, running]
  | accountRead time canWrite info pc =>
      by_cases moved : info.totalBytes = 0
      · simp [beginsIteration, setsUp, pc, moved, Server.accountRead, goto]
      · cases fresh : server.firstRead <;> cases transport <;>
          simp [beginsIteration, setsUp, pc, moved, Server.accountRead, noteRead, goto, fresh]
  | finish time pc isOver =>
      refine Or.inr (Or.inr ⟨?_, rfl, rfl, rfl, fun _ => Or.inr rfl⟩)
      rcases isOver with isOver | isOver
      · simp [beginsIteration, setsUp, pc, Int.not_lt.mpr isOver]
      · simp [beginsIteration, setsUp, pc, isOver]
  | _ =>
      refine Or.inr (Or.inr ⟨?_, rfl, rfl, rfl, ?_⟩) <;>
        simp_all [beginsIteration, setsUp, goto, leave]

theorem Step.hasRead (taken : Step transport args server action next) (other : transport ≠ .tcp) :
    next.hasRead ↔ server.hasRead ∨ ∃ data, action = .recv data := by
  cases taken with
  | recvSome data canWrite transfer pc nonempty =>
      simp only [Server.hasRead, goto, fill, Transfer.advance_total]
      simp only [Action.recv.injEq, exists_eq', or_true, iff_true]
      exact Or.inr (by omega)
  | recvLast data canWrite transfer pc nonempty =>
      simp only [Server.hasRead, goto, fill, Transfer.metaData_totalBytes, Transfer.advance_total]
      simp only [Action.recv.injEq, exists_eq', or_true, iff_true]
      exact Or.inr (by omega)
  | accountRead time canWrite info pc =>
      by_cases moved : info.totalBytes = 0
      · simp [Server.hasRead, pc, moved, Server.accountRead, goto]
      · cases fresh : server.firstRead <;> cases transport <;>
          simp_all [Server.hasRead, Server.accountRead, noteRead, goto]
  | recvStop canWrite transfer pc =>
      simp [Server.hasRead, pc, goto, Nat.pos_iff_ne_zero]
  | signal => simp [Server.hasRead]
  | accountWrite time info pc => simp [Server.hasRead, pc, goto, Server.accountWrite]
  | _ => simp_all [Server.hasRead, goto, leave, MetaData.zero]

end Step

section Clock

variable {transport : Transport} {config : Config} {args : Arguments} {startTime time : Nat}
  {trace : List (Server Byte × Action Byte)} {server next : Server Byte} {action : Action Byte}

theorem begunAt_step : BegunAt args time (trace ++ [(server, action)]) ↔
    BegunAt args time trace ∨ action = .advance time ∧ server.beginsIteration args = true := by
  simp [BegunAt, or_and_right, exists_or]

theorem runs_step : Runs transport (trace ++ [(server, action)]) ↔
    Runs transport trace ∨ ∃ data, action = .recv data := by
  simp [Runs, or_and_right, exists_or, or_assoc]

theorem clockReadings_step :
    clockReadings transport args startTime (trace ++ [(server, action)]) =
      clockReadings transport args startTime trace ++
        match action with
        | .advance time => if server.readsClock transport args then [time] else []
        | _ => [] := by
  rw [clockReadings, List.filterMap_append, ← List.append_assoc]
  refine congrArg _ ?_
  cases action with
  | advance time =>
      by_cases read : server.readsClock transport args = true <;> simp [read]
  | _ => rfl

theorem BegunAt.mem (begun : BegunAt args time trace) :
    time ∈ clockReadings transport args startTime trace := by
  obtain ⟨⟨server, action⟩, member, rfl, begins⟩ := begun
  refine List.mem_append_right _ (List.mem_filterMap.mpr ⟨_, member, ?_⟩)
  simp only at begins
  simp [readsClock, begins]

structure Clocked (transport : Transport) (startTime : Nat)
    (trace : List (Server Byte × Action Byte)) (server : Server Byte) : Prop where
  runs : Runs transport trace ↔ transport = .tcp ∨ server.hasRead
  stopped : server.totalStart = none ↔ transport ≠ .tcp ∧ server.firstRead = true
  tcp : transport = .tcp → server.totalStart = some startTime

theorem Clocked.initial (memory : ServerMemory Byte config) :
    Clocked transport memory.startTime [] (Server.initial transport memory) where
  runs := by simp [Runs, Server.hasRead, Server.initial]
  stopped := by
    by_cases tcp : transport = .tcp <;> simp [Server.initial, tcp]
  tcp tcp := by simp [Server.initial, tcp]

theorem Clocked.step (clocked : Clocked transport startTime trace server)
    (taken : Step transport args server action next) :
    Clocked transport startTime (trace ++ [(server, action)]) next where
  runs := by
    rw [runs_step, clocked.runs, or_assoc]
    by_cases tcp : transport = .tcp
    · simp [tcp]
    · rw [taken.hasRead tcp]
  stopped := by
    rcases taken.clock with ⟨time, rfl, begins, rfl⟩ | ⟨time, rfl, sets, started, read, -⟩ |
      ⟨-, started, read, -⟩
    · exact clocked.stopped
    · simp [started, read]
    · rw [started, read]
      exact clocked.stopped
  tcp tcp := by
    rcases taken.clock with ⟨time, rfl, begins, rfl⟩ | ⟨time, rfl, sets, -⟩ | ⟨-, started, -⟩
    · exact clocked.tcp tcp
    · simp [setsUp, tcp] at sets
    · rw [started]
      exact clocked.tcp tcp

theorem Clocked.run {memory : ServerMemory Byte config}
    (run : Run (machine transport config.arguments) (Server.initial transport memory) trace server) :
    Clocked transport memory.startTime trace server :=
  run.invariant (Clocked transport memory.startTime) (.initial memory)
    fun _ _ _ _ _ clocked taken => clocked.step (step_inv taken)

theorem Clocked.runs_iff (clocked : Clocked transport startTime trace server)
    (top : server.beginsIteration args = true) :
    Runs transport trace ↔ ∃ start, server.totalStart = some start := by
  simp only [beginsIteration, Bool.and_eq_true, beq_iff_eq] at top
  rw [clocked.runs, ← Option.ne_none_iff_exists', ne_eq, clocked.stopped]
  by_cases tcp : transport = .tcp <;> simp [tcp, hasRead, top.1.1]

theorem begunRunning_step : BegunRunning transport args (trace ++ [(server, action)]) ↔
    BegunRunning transport args trace ∨
      (∃ time, action = .advance time) ∧ server.beginsIteration args = true ∧
        Runs transport trace :=
  occurs_step

theorem clockStood_step : ClockStood transport args startTime (trace ++ [(server, action)]) ↔
    ClockStood transport args startTime trace ∨ ∃ time, action = .advance time ∧
      server.setsUp transport = true ∧ BegunAt args time trace := by
  simp only [ClockStood, occurs_step, or_assoc]

structure Sampled (transport : Transport) (args : Arguments) (startTime : Nat)
    (trace : List (Server Byte × Action Byte)) (server : Server Byte) : Prop where
  stored : ∀ start, server.totalStart = some start →
    start ∈ clockReadings transport args startTime trace
  top : server.endTime = 0 ∨ BegunAt args server.endTime trace
  inside : (server.pc = .loop ∨ server.pc = .exit) ∨ BegunAt args server.endTime trace
  latest : ∀ time, BegunAt args time trace → time ≤ server.endTime
  measured : BegunRunning transport args trace ∨ ClockStood transport args startTime trace →
    server.Measured
  early : BegunRunning transport args trace ∨ ∀ start, server.totalStart = some start →
    server.endTime ≤ start ∧
      (start = server.endTime → ClockStood transport args startTime trace)

theorem Sampled.initial (memory : ServerMemory Byte config) :
    Sampled transport args memory.startTime [] (Server.initial transport memory) where
  stored start started := by
    simp only [Server.initial] at started
    split at started
    · rename_i tcp
      cases started
      simp [clockReadings, tcp]
    · cases started
  top := Or.inl rfl
  inside := Or.inl (Or.inl rfl)
  latest time begun := by simp [BegunAt] at begun
  measured either := by
    rcases either with running | ⟨tcp, zero⟩ | still
    · exact absurd running occurs_nil
    · exact ⟨0, by simp [Server.initial, tcp, zero], Nat.le_refl 0⟩
    · exact absurd still occurs_nil
  early := by
    refine Or.inr fun start started => ?_
    simp only [Server.initial] at started ⊢
    split at started
    · rename_i tcp
      cases started
      exact ⟨Nat.zero_le _, fun zero => Or.inl ⟨tcp, zero⟩⟩
    · cases started

theorem Sampled.begin (sampled : Sampled transport args startTime trace server)
    (rises : ∀ earlier ∈ clockReadings transport args startTime trace, earlier ≤ time)
    (clocked : Clocked transport startTime trace server)
    (begins : server.beginsIteration args = true) :
    Sampled transport args startTime (trace ++ [(server, .advance time)])
      ({ server with endTime := time }.goto .poll) where
  stored start started := by
    rw [clockReadings_step]
    exact List.mem_append_left _ (sampled.stored start started)
  top := Or.inr (begunAt_step.mpr (Or.inr ⟨rfl, begins⟩))
  inside := Or.inr (begunAt_step.mpr (Or.inr ⟨rfl, begins⟩))
  latest other begun := by
    rcases begunAt_step.mp begun with old | ⟨same, _⟩
    · exact rises other old.mem
    · cases same
      exact Nat.le_refl _
  measured either := by
    have running : ∃ start, server.totalStart = some start := by
      rw [begunRunning_step, clockStood_step] at either
      rcases either with (old | ⟨_, _, running⟩) | old | ⟨_, _, sets, _⟩
      · obtain ⟨start, started, _⟩ := sampled.measured (Or.inl old)
        exact ⟨start, started⟩
      · exact (clocked.runs_iff begins).mp running
      · obtain ⟨start, started, _⟩ := sampled.measured (Or.inr old)
        exact ⟨start, started⟩
      · simp only [beginsIteration, Bool.and_eq_true, beq_iff_eq] at begins
        simp [setsUp, begins.1.1] at sets
    obtain ⟨start, started⟩ := running
    exact ⟨start, started, rises start (sampled.stored start started)⟩
  early := by
    by_cases running : ∃ start, server.totalStart = some start
    · refine Or.inl (begunRunning_step.mpr (Or.inr ⟨⟨time, rfl⟩, begins, ?_⟩))
      exact (clocked.runs_iff begins).mpr running
    · exact Or.inr fun start started => absurd ⟨start, started⟩ running

theorem Sampled.setUp (sampled : Sampled transport args startTime trace server)
    (rises : ∀ earlier ∈ clockReadings transport args startTime trace, earlier ≤ time)
    (clocked : Clocked transport startTime trace server) (sets : server.setsUp transport = true)
    (started : next.totalStart = some time) (kept : next.endTime = server.endTime) :
    Sampled transport args startTime (trace ++ [(server, .advance time)]) next := by
  have facts := sets
  simp only [setsUp, Bool.and_eq_true, bne_iff_ne] at facts
  obtain ⟨⟨other, fresh⟩, place⟩ := facts
  have notTop : server.pc ≠ .loop ∧ server.pc ≠ .exit := by
    split at place
    · rename_i pc
      simp [pc]
    · cases place
  have begun : BegunAt args server.endTime trace := by
    rcases sampled.inside with (pc | pc) | begun
    · exact absurd pc notTop.1
    · exact absurd pc notTop.2
    · exact begun
  have notYet : ¬server.Measured := by
    rintro ⟨start, already, _⟩
    rw [clocked.stopped.mpr ⟨other, fresh⟩] at already
    cases already
  refine ⟨?_, ?_, ?_, ?_, ?_, ?_⟩
  · intro start same
    rw [started] at same
    cases same
    rw [clockReadings_step]
    exact List.mem_append_right _ (by simp [readsClock, sets])
  · rw [kept]
    exact Or.inr (begunAt_step.mpr (Or.inl begun))
  · rw [kept]
    exact Or.inr (begunAt_step.mpr (Or.inl begun))
  · intro other begunAt
    rw [kept]
    rcases begunAt_step.mp begunAt with old | ⟨_, begins⟩
    · exact sampled.latest other old
    · simp [beginsIteration, notTop.1] at begins
  · intro either
    rw [begunRunning_step, clockStood_step] at either
    rcases either with (old | ⟨_, begins, _⟩) | old | ⟨same, now, _, begunAt⟩
    · exact absurd (sampled.measured (Or.inl old)) notYet
    · simp [beginsIteration, notTop.1] at begins
    · exact absurd (sampled.measured (Or.inr old)) notYet
    · cases now
      exact ⟨time, started, kept ▸ sampled.latest time begunAt⟩
  · refine Or.inr fun start same => ?_
    rw [started] at same
    cases same
    rw [kept]
    refine ⟨rises _ begun.mem, fun stood => ?_⟩
    exact clockStood_step.mpr (Or.inr ⟨time, rfl, sets, stood ▸ begun⟩)

theorem Sampled.quiet (sampled : Sampled transport args startTime trace server)
    (none : ∀ time, action = .advance time →
      server.beginsIteration args = false ∧ server.setsUp transport = false)
    (started : next.totalStart = server.totalStart) (kept : next.endTime = server.endTime)
    (stays : server.pc = .loop ∨ server.pc = .exit → next.pc = .loop ∨ next.pc = .exit) :
    Sampled transport args startTime (trace ++ [(server, action)]) next := by
  have begunAt (time : Nat) : BegunAt args time (trace ++ [(server, action)]) ↔
      BegunAt args time trace := by
    rw [begunAt_step, or_iff_left]
    rintro ⟨taken, begins⟩
    simp [(none time taken).1] at begins
  have running : BegunRunning transport args (trace ++ [(server, action)]) ↔
      BegunRunning transport args trace := by
    rw [begunRunning_step, or_iff_left]
    rintro ⟨⟨time, taken⟩, begins, _⟩
    simp [(none time taken).1] at begins
  have stood : ClockStood transport args startTime (trace ++ [(server, action)]) ↔
      ClockStood transport args startTime trace := by
    rw [clockStood_step, or_iff_left]
    rintro ⟨time, taken, sets, _⟩
    simp [(none time taken).2] at sets
  have same : clockReadings transport args startTime (trace ++ [(server, action)]) =
      clockReadings transport args startTime trace := by
    rw [clockReadings_step]
    split
    · rename_i time
      simp [readsClock, none time rfl]
    · exact List.append_nil _
  refine ⟨?_, ?_, ?_, ?_, ?_, ?_⟩
  · rw [started, same]
    exact sampled.stored
  · rw [kept, begunAt]
    exact sampled.top
  · rw [kept, begunAt]
    exact sampled.inside.imp_left stays
  · intro time
    rw [kept, begunAt]
    exact sampled.latest time
  · rw [running, stood, Measured, started, kept]
    exact sampled.measured
  · rw [running, stood, started, kept]
    exact sampled.early

abbrev ClockSorted (transport : Transport) (args : Arguments) (startTime : Nat)
    (trace : List (Server Byte × Action Byte)) : Prop :=
  (clockReadings transport args startTime trace).Pairwise (· ≤ ·)

theorem Sampled.step (sampled : Sampled transport args startTime trace server)
    (clock : ClockSorted transport args startTime (trace ++ [(server, action)]))
    (clocked : Clocked transport startTime trace server)
    (taken : Step transport args server action next) :
    Sampled transport args startTime (trace ++ [(server, action)]) next := by
  have rises (time : Nat) (now : action = .advance time)
      (reads : server.readsClock transport args = true) :
      ∀ earlier ∈ clockReadings transport args startTime trace, earlier ≤ time := by
    intro earlier member
    subst now
    rw [ClockSorted, clockReadings_step, List.pairwise_append] at clock
    exact clock.2.2 earlier member time (by simp [reads])
  rcases taken.clock with ⟨time, rfl, begins, rfl⟩ | ⟨time, rfl, sets, started, _, kept⟩ |
    ⟨none, started, _, kept, stays⟩
  · exact sampled.begin (rises time rfl (by simp [readsClock, begins])) clocked begins
  · exact sampled.setUp (rises time rfl (by simp [readsClock, sets])) clocked sets started kept
  · exact sampled.quiet none started kept stays

theorem Sampled.run {memory : ServerMemory Byte config}
    (run : Run (machine transport config.arguments) (Server.initial transport memory) trace server)
    (clock : ClockSorted transport config.arguments memory.startTime trace) :
    Sampled transport config.arguments memory.startTime trace server := by
  induction run with
  | start => exact .initial memory
  | step before taken ih =>
      have earlier := clock
      rw [ClockSorted, clockReadings_step, List.pairwise_append] at earlier
      exact (ih earlier.1).step clock (.run before) (step_inv taken)

theorem Sampled.measured_iff (sampled : Sampled transport args startTime trace server) :
    server.Measured ↔
      BegunRunning transport args trace ∨ ClockStood transport args startTime trace := by
  constructor
  · rintro ⟨start, started, inOrder⟩
    rcases sampled.early with running | early
    · exact Or.inl running
    · obtain ⟨atMost, stood⟩ := early start started
      exact Or.inr (stood (Nat.le_antisymm inOrder atMost))
  · exact sampled.measured

end Clock

end Server

/-- On its way out, and all the time before, a server has two readings that it can subtract
just when an iteration has begun since its clock runs, or the clock stood in between. -/
theorem server_measured_iff {Byte : Type} {transport : Transport} {config : Config}
    {memory : ServerMemory Byte config} {trace : List (Server Byte × Action Byte)}
    {server : Server Byte}
    (run : Run (Server.machine transport config.arguments) (Server.initial transport memory) trace
      server)
    (clock : Server.ClockSorted transport config.arguments memory.startTime trace) :
    server.Measured ↔
      Server.BegunRunning transport config.arguments trace ∨
        Server.ClockStood transport config.arguments memory.startTime trace :=
  (Server.Sampled.run run clock).measured_iff

/-- One request is read and answered in two iterations. -/
theorem server_measured_iff_answered : ∃ trace server,
    Run (Server.machine .domain Config.twoBytes.arguments)
      (Server.initial .domain (Setup.uniform Config.twoBytes (0 : Nat) 2).serverMemory) trace
      server ∧
    (server.pc = .exit ∧ server.totalStart = some 3 ∧ server.endTime = 5) ∧
    (Server.BegunRunning .domain Config.twoBytes.arguments trace ∨
      Server.ClockStood .domain Config.twoBytes.arguments 0 trace) := by
  obtain ⟨trace, server, run, reached⟩ := exists_run_of_execute
    (Server.machine .domain Config.twoBytes.arguments)
    (Server.initial .domain (Setup.uniform Config.twoBytes (0 : Nat) 2).serverMemory)
    [.advance 1, .poll (some (true, false)), .advance 2, .recv [0, 0], .advance 3, .advance 4,
      .advance 5, .poll (some (false, true)), .advance 6, .advance 7, .send 2, .advance 8,
      .advance 9]
    (fun result =>
      decide (Server.ClockSorted .domain Config.twoBytes.arguments 0 result.1) &&
        decide (result.2.pc = .exit ∧ result.2.totalStart = some 3 ∧ result.2.endTime = 5))
    (by decide)
  simp only [Bool.and_eq_true, decide_eq_true_eq] at reached
  obtain ⟨clock, ended⟩ := reached
  exact ⟨trace, server, run, ended,
    (server_measured_iff run clock).mp ⟨3, ended.2.1, by rw [ended.2.2]; decide⟩⟩

/-- A signal arrives while the fifo server is in its first iteration, with bytes read. -/
theorem server_measures_backwards : ¬∀ (transport : Transport) (config : Config)
    (memory : ServerMemory Nat config) (trace : List (Server Nat × Action Nat))
    (server : Server Nat),
    Run (Server.machine transport config.arguments) (Server.initial transport memory) trace server →
    Server.ClockSorted transport config.arguments memory.startTime trace →
    server.pc = .exit → server.Measured := by
  intro promise
  obtain ⟨trace, server, run, reached⟩ := exists_run_of_execute
    (Server.machine .fifo Config.twoBytes.arguments)
    (Server.initial .fifo (Setup.uniform Config.twoBytes (0 : Nat) 2).serverMemory)
    [.advance 1, .poll (some (true, false)), .advance 2, .recv [0, 0], .advance 3, .signal,
      .advance 4, .advance 5]
    (fun result =>
      decide (Server.ClockSorted .fifo Config.twoBytes.arguments 0 result.1) &&
        decide (result.2.pc = .exit ∧ result.2.totalStart = some 3 ∧ result.2.endTime = 1))
    (by decide)
  simp only [Bool.and_eq_true, decide_eq_true_eq] at reached
  obtain ⟨clock, exit, started, ended⟩ := reached
  obtain ⟨start, same, inOrder⟩ := promise _ _ _ trace server run clock exit
  rw [started, Option.some.injEq] at same
  omega

end IpcBench
