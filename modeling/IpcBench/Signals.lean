import IpcBench.Transition
import Mathlib.Logic.Function.Basic

/-!
Processes that handle, block, send and await signals, each running a list of calls, and
start-up by a signal that one process sends once and another blocks and then awaits.
-/

set_option linter.unusedSectionVars false

namespace Signals

open Transition

inductive Disposition
  | default
  | handler
deriving DecidableEq, Repr

structure SignalState (Signal : Type) where
  disposition : Signal → Disposition
  blocked : Signal → Bool
  pending : Signal → Bool
  terminated : Bool

/-- The calls of a process, as far as they matter to signals. Handlers do nothing. -/
inductive Call (Signal : Type)
  | other
  | sigaction (signal : Signal)
  | sigprocmask (mask : List Signal)
  | kill (signal : Signal)
  | sigwait (mask : List Signal)
deriving DecidableEq, Repr

variable {Signal Process : Type} [DecidableEq Signal] [DecidableEq Process]

namespace SignalState

def initial : SignalState Signal where
  disposition := fun _ => .default
  blocked := fun _ => false
  pending := fun _ => false
  terminated := false

/-- A signal is kept pending while it is blocked; else it runs the handler or terminates. -/
def deliver (signal : Signal) (state : SignalState Signal) : SignalState Signal :=
  if state.terminated then state
  else if state.blocked signal then
    { state with pending := Function.update state.pending signal true }
  else
    match state.disposition signal with
    | .default => { state with terminated := true }
    | .handler => state

def handle (signal : Signal) (state : SignalState Signal) : SignalState Signal :=
  { state with disposition := Function.update state.disposition signal .handler }

def block (mask : List Signal) (state : SignalState Signal) : SignalState Signal :=
  { state with blocked := fun signal => state.blocked signal || mask.contains signal }

def take (mask : List Signal) (state : SignalState Signal) : Option (SignalState Signal) :=
  (mask.find? state.pending).map fun signal =>
    { state with pending := Function.update state.pending signal false }

end SignalState

def Call.own (state : SignalState Signal) : Call Signal → Option (SignalState Signal)
  | .other => some state
  | .sigaction signal => some (state.handle signal)
  | .sigprocmask mask => some (state.block mask)
  | .kill _ => some state
  | .sigwait mask => state.take mask

structure Group (Process Signal : Type) where
  signals : Process → SignalState Signal
  program : Process → List (Call Signal)

namespace Group

def put (process : Process) (state : SignalState Signal) (rest : List (Call Signal))
    (group : Group Process Signal) : Group Process Signal where
  signals := Function.update group.signals process state
  program := Function.update group.program process rest

/-- A `kill` of the group reaches every process of it, the sender included. -/
def reach (call : Call Signal) (group : Group Process Signal) : Group Process Signal :=
  match call with
  | .kill signal => { group with signals := fun process => (group.signals process).deliver signal }
  | _ => group

def step (group : Group Process Signal) (process : Process) : Option (Group Process Signal) :=
  if (group.signals process).terminated then none
  else
    match group.program process with
    | [] => none
    | call :: rest =>
        (call.own (group.signals process)).map fun state =>
          (group.put process state rest).reach call

def machine : Machine (Group Process Signal) Process where
  step := step

def initial (program : Process → List (Call Signal)) : Group Process Signal where
  signals := fun _ => .initial
  program := program

end Group

/-! Programs that take part in a start-up. -/

namespace Call

def kills : Call Signal → Bool
  | .kill _ => true
  | _ => false

def harmless (signal : Signal) : Call Signal → Bool
  | .other => true
  | .sigaction handled => handled ≠ signal
  | .sigprocmask mask => !mask.contains signal
  | .kill _ => false
  | .sigwait _ => false

end Call

def waitsFor (signal : Signal) : List (Call Signal) → Bool
  | [] => false
  | .sigwait mask :: rest => mask = [signal] && rest.all (Call.harmless signal)
  | call :: rest => call.harmless signal && waitsFor signal rest

/-- A receiver that blocks the signal before it awaits it. -/
def blocksFirst (signal : Signal) : List (Call Signal) → Bool
  | [] => false
  | .sigprocmask mask :: rest =>
      if mask.contains signal then waitsFor signal rest else blocksFirst signal rest
  | call :: rest => call.harmless signal && blocksFirst signal rest

structure StartUp (Process Signal : Type) where
  sender : Process
  receiver : Process
  signal : Signal
  program : Process → List (Call Signal)

/-- The receiver blocks the signal, then awaits it; the sender sends it once, and nobody
else sends anything. -/
structure StartUp.Proper (startUp : StartUp Process Signal) : Prop where
  differ : startUp.sender ≠ startUp.receiver
  receives : blocksFirst startUp.signal (startUp.program startUp.receiver) = true
  sends : (startUp.program startUp.sender).filter Call.kills = [.kill startUp.signal]
  silent : ∀ process, process ≠ startUp.sender →
    (startUp.program process).filter Call.kills = []

/-! What the receiver has done when, and when it is terminated. -/

inductive Receiving (signal : Signal) :
    Bool → SignalState Signal → List (Call Signal) → Prop
  | early (state program) (alive : state.terminated = false)
      (open' : state.blocked signal = false) (none : state.pending signal = false)
      (default : state.disposition signal = .default)
      (program_ok : blocksFirst signal program = true) : Receiving signal false state program
  | waiting (sent state program) (alive : state.terminated = false)
      (blocked : state.blocked signal = true) (kept : state.pending signal = sent)
      (program_ok : waitsFor signal program = true) : Receiving signal sent state program
  | done (state program) (alive : state.terminated = false)
      (program_ok : program.all (Call.harmless signal) = true) :
      Receiving signal true state program
  | dead (state program) (terminated : state.terminated = true) : Receiving signal true state program

namespace Group

def sent (sender : Process) (group : Group Process Signal) : Bool :=
  ((group.program sender).filter Call.kills).isEmpty

def Heeded (startUp : StartUp Process Signal) (group : Group Process Signal) (process : Process) :
    Prop :=
  (group.program process).head?.any Call.kills = true →
    (group.signals startUp.receiver).blocked startUp.signal = true

instance (startUp : StartUp Process Signal) (group : Group Process Signal) (process : Process) :
    Decidable (group.Heeded startUp process) :=
  inferInstanceAs (Decidable (_ → _))

/-- The receiver lives, and it does not wait in vain for a signal that has been sent. -/
structure Notified (startUp : StartUp Process Signal) (group : Group Process Signal) : Prop where
  alive : (group.signals startUp.receiver).terminated = false
  kept : group.sent startUp.sender = true →
    (∃ mask, .sigwait mask ∈ group.program startUp.receiver) →
    (group.signals startUp.receiver).pending startUp.signal = true

structure Underway (startUp : StartUp Process Signal) (group : Group Process Signal) : Prop where
  receiving : Receiving startUp.signal (group.sent startUp.sender)
    (group.signals startUp.receiver) (group.program startUp.receiver)
  sends : group.sent startUp.sender = false →
    (group.program startUp.sender).filter Call.kills = [.kill startUp.signal]
  silent : ∀ process, process ≠ startUp.sender →
    (group.program process).filter Call.kills = []

variable {startUp : StartUp Process Signal} {group next : Group Process Signal}
  {process : Process} {signal : Signal} {state : SignalState Signal} {sent : Bool}
  {call : Call Signal} {rest : List (Call Signal)}

theorem receiving_deliver {program : List (Call Signal)}
    (receiving : Receiving signal false state program) :
    Receiving signal true (state.deliver signal) program ∧
      ((state.deliver signal).terminated = false ↔ state.blocked signal = true) := by
  cases receiving with
  | early _ _ alive open' none default ok =>
      have dies : state.deliver signal = { state with terminated := true } := by
        simp [SignalState.deliver, alive, open', default]
      rw [dies]
      exact ⟨.dead _ _ rfl, by simp [open']⟩
  | waiting _ _ _ alive blocked kept ok =>
      have keeps : state.deliver signal =
          { state with pending := Function.update state.pending signal true } := by
        simp [SignalState.deliver, alive, blocked]
      rw [keeps]
      exact ⟨.waiting _ _ _ alive blocked (Function.update_self _ _ _) ok, by simp [alive, blocked]⟩

theorem take_some {mask : List Signal} {after : SignalState Signal}
    (taken : state.take mask = some after) : ∃ found ∈ mask, state.pending found = true ∧
      after = { state with pending := Function.update state.pending found false } := by
  obtain ⟨found, first, rfl⟩ := Option.map_eq_some_iff.mp taken
  exact ⟨found, List.mem_of_find?_eq_some first, List.find?_some first, rfl⟩

theorem harmless_own {after : SignalState Signal} (harmless : call.harmless signal = true)
    (taken : call.own state = some after) : after.terminated = state.terminated ∧
      after.blocked signal = state.blocked signal ∧ after.pending = state.pending ∧
      after.disposition signal = state.disposition signal := by
  cases call with
  | other =>
      cases taken
      exact ⟨rfl, rfl, rfl, rfl⟩
  | sigaction handled =>
      cases taken
      have other : handled ≠ signal := by simpa [Call.harmless] using harmless
      exact ⟨rfl, rfl, rfl, Function.update_of_ne other.symm _ _⟩
  | sigprocmask mask =>
      cases taken
      have open' : mask.contains signal = false := by simpa [Call.harmless] using harmless
      exact ⟨rfl, by simp only [SignalState.block, open', Bool.or_false], rfl, rfl⟩
  | kill _ => cases harmless
  | sigwait _ => cases harmless

theorem receiving_own {after : SignalState Signal}
    (receiving : Receiving signal sent state (call :: rest)) (silent : call.kills = false)
    (alive : state.terminated = false) (taken : call.own state = some after) :
    Receiving signal sent after rest ∧ after.terminated = false := by
  cases receiving with
  | early _ _ _ open' none default ok =>
      by_cases harmless : call.harmless signal = true
      · obtain ⟨lives, blocked, pending, disposition⟩ := harmless_own harmless taken
        have ok : blocksFirst signal rest = true := by
          cases call <;> simp_all [blocksFirst, Call.harmless]
        exact ⟨.early _ _ (by rw [lives, alive]) (by rw [blocked, open']) (by rw [pending, none])
          (by rw [disposition, default]) ok, by rw [lives, alive]⟩
      · cases call with
        | sigprocmask mask =>
            have inside : mask.contains signal = true := by simpa [Call.harmless] using harmless
            simp only [blocksFirst, inside, if_true] at ok
            cases taken
            exact ⟨.waiting _ _ _ alive (by simp only [SignalState.block, inside, Bool.or_true])
              none ok, alive⟩
        | _ => simp_all [blocksFirst, Call.harmless]
  | waiting _ _ _ _ blocked kept ok =>
      by_cases harmless : call.harmless signal = true
      · obtain ⟨lives, same, pending, _⟩ := harmless_own harmless taken
        have ok : waitsFor signal rest = true := by
          cases call <;> simp_all [waitsFor, Call.harmless]
        exact ⟨.waiting _ _ _ (by rw [lives, alive]) (by rw [same, blocked]) (by rw [pending, kept])
          ok, by rw [lives, alive]⟩
      · cases call with
        | sigwait mask =>
            simp only [waitsFor, Bool.and_eq_true, decide_eq_true_eq] at ok
            obtain ⟨rfl, quiet⟩ := ok
            obtain ⟨found, member, pending, rfl⟩ := take_some taken
            rw [List.mem_singleton] at member
            subst member
            rw [← kept, pending]
            exact ⟨.done _ _ alive quiet, alive⟩
        | _ => simp_all [waitsFor, Call.harmless]
  | done _ _ _ ok =>
      simp only [List.all_cons, Bool.and_eq_true] at ok
      obtain ⟨lives, _⟩ := harmless_own ok.1 taken
      exact ⟨.done _ _ (by rw [lives, alive]) ok.2, by rw [lives, alive]⟩
  | dead _ _ terminated => simp [terminated] at alive

theorem step_inv (taken : group.step process = some next) : ∃ call rest state,
    (group.signals process).terminated = false ∧ group.program process = call :: rest ∧
      call.own (group.signals process) = some state ∧
      next = (group.put process state rest).reach call := by
  unfold step at taken
  split at taken
  · cases taken
  · rename_i alive
    split at taken
    · cases taken
    · rename_i call rest program
      obtain ⟨state, own, rfl⟩ := Option.map_eq_some_iff.mp taken
      exact ⟨call, rest, state, by simpa using alive, program, own, rfl⟩

theorem reach_quiet (silent : call.kills = false) : group.reach call = group := by
  cases call with
  | kill signal => cases silent
  | _ => rfl

theorem reach_program : (group.reach call).program = group.program := by
  cases call <;> rfl

theorem put_program_self : (group.put process state rest).program process = rest :=
  Function.update_self _ _ _

theorem put_program_other {other : Process} (different : other ≠ process) :
    (group.put process state rest).program other = group.program other :=
  Function.update_of_ne different _ _

theorem put_signals_self : (group.put process state rest).signals process = state :=
  Function.update_self _ _ _

theorem put_signals_other {other : Process} (different : other ≠ process) :
    (group.put process state rest).signals other = group.signals other :=
  Function.update_of_ne different _ _

theorem Underway.quiet (underway : Underway startUp group) (other : process ≠ startUp.sender)
    (program : group.program process = call :: rest) : call.kills = false := by
  have silent := underway.silent process other
  rw [program, List.filter_cons] at silent
  by_cases kills : call.kills = true
  · simp [kills] at silent
  · simpa using kills

theorem alive_of_unsent {program : List (Call Signal)}
    (receiving : Receiving signal false state program) : state.terminated = false := by
  cases receiving with
  | early _ _ alive => exact alive
  | waiting _ _ _ alive => exact alive

theorem sent_eq {sender : Process} (program : group.program sender = call :: rest)
    (quiet : call.kills = false) : group.sent sender = (rest.filter Call.kills).isEmpty := by
  rw [sent, program, List.filter_cons, if_neg (by simp [quiet])]

theorem Underway.kill (underway : Underway startUp group) (differ : startUp.sender ≠ startUp.receiver)
    (program : group.program startUp.sender = call :: rest) (kills : call.kills = true)
    (own : call.own (group.signals startUp.sender) = some state) :
    Underway startUp ((group.put startUp.sender state rest).reach call) ∧
      ((((group.put startUp.sender state rest).reach call).signals startUp.receiver).terminated =
        false ↔ (group.signals startUp.receiver).terminated = false ∧
          group.Heeded startUp startUp.sender) := by
  have unsent : group.sent startUp.sender = false := by
    simp [sent, program, kills]
  have only := underway.sends unsent
  rw [program, List.filter_cons, if_pos kills, List.cons.injEq] at only
  obtain ⟨rfl, none⟩ := only
  have receiving := underway.receiving
  rw [unsent] at receiving
  obtain ⟨reached, survives⟩ := receiving_deliver receiving
  have signals : ((group.put startUp.sender state rest).reach (.kill startUp.signal)).signals
      startUp.receiver = (group.signals startUp.receiver).deliver startUp.signal :=
    congrArg (SignalState.deliver startUp.signal) (put_signals_other differ.symm)
  have later : ((group.put startUp.sender state rest).reach (.kill startUp.signal)).sent
      startUp.sender = true := by
    rw [sent, reach_program, put_program_self, none]
    rfl
  refine ⟨⟨?_, ?_, ?_⟩, ?_⟩
  · rw [later, signals, reach_program, put_program_other differ.symm]
    exact reached
  · intro unsent
    rw [later] at unsent
    cases unsent
  · intro process other
    rw [reach_program, put_program_other other]
    exact underway.silent process other
  · rw [signals, survives]
    simp [alive_of_unsent receiving, Heeded, program, Call.kills]

theorem Underway.ownCall (underway : Underway startUp group)
    (program : group.program process = call :: rest) (quiet : call.kills = false)
    (alive : (group.signals process).terminated = false)
    (own : call.own (group.signals process) = some state) :
    Underway startUp (group.put process state rest) ∧
      (((group.put process state rest).signals startUp.receiver).terminated = false ↔
        (group.signals startUp.receiver).terminated = false) := by
  have unsent : (group.put process state rest).sent startUp.sender = group.sent startUp.sender := by
    by_cases sends : startUp.sender = process
    · subst process
      rw [sent_eq program quiet, sent, put_program_self]
    · rw [sent, put_program_other sends, sent]
  have filtered (other : Process) : ((group.put process state rest).program other).filter Call.kills =
      (group.program other).filter Call.kills := by
    by_cases same : other = process
    · subst other
      rw [put_program_self, program, List.filter_cons, if_neg (by simp [quiet])]
    · rw [put_program_other same]
  refine ⟨⟨?_, ?_, ?_⟩, ?_⟩
  · rw [unsent]
    by_cases receives : startUp.receiver = process
    · subst process
      rw [put_signals_self, put_program_self]
      have receiving := underway.receiving
      rw [program] at receiving
      exact (receiving_own receiving quiet alive own).1
    · rw [put_signals_other receives, put_program_other receives]
      exact underway.receiving
  · rw [unsent, filtered]
    exact underway.sends
  · intro other differs
    rw [filtered]
    exact underway.silent other differs
  · by_cases receives : startUp.receiver = process
    · subst process
      rw [put_signals_self]
      have receiving := underway.receiving
      rw [program] at receiving
      simp [(receiving_own receiving quiet alive own).2, alive]
    · rw [put_signals_other receives]

/-- The receiver is terminated exactly by a signal that it has not blocked. -/
theorem Underway.step (underway : Underway startUp group) (differ : startUp.sender ≠ startUp.receiver)
    (taken : group.step process = some next) : Underway startUp next ∧
      ((next.signals startUp.receiver).terminated = false ↔
        (group.signals startUp.receiver).terminated = false ∧ group.Heeded startUp process) := by
  obtain ⟨call, rest, state, alive, program, own, rfl⟩ := step_inv taken
  by_cases kills : call.kills = true
  · by_cases sends : process = startUp.sender
    · subst process
      exact underway.kill differ program kills own
    · rw [underway.quiet sends program] at kills
      cases kills
  · have quiet : call.kills = false := by simpa using kills
    have heeded : group.Heeded startUp process := by
      intro sends
      simp [program, quiet] at sends
    rw [reach_quiet quiet]
    obtain ⟨kept, survives⟩ := underway.ownCall program quiet alive own
    exact ⟨kept, by simp [survives, heeded]⟩

theorem underway_initial (proper : startUp.Proper) : Underway startUp (initial startUp.program) where
  receiving := by
    have unsent : (initial startUp.program).sent startUp.sender = false := by
      simp [sent, initial, proper.sends]
    rw [unsent]
    exact .early _ _ rfl rfl rfl rfl proper.receives
  sends := fun _ => proper.sends
  silent := proper.silent

theorem underway (proper : startUp.Proper) {trace : List (Group Process Signal × Process)}
    (run : Run machine (initial startUp.program) trace group) : Underway startUp group ∧
      ((group.signals startUp.receiver).terminated = false ↔
        ∀ entry ∈ trace, entry.1.Heeded startUp entry.2) := by
  induction run with
  | start => exact ⟨underway_initial proper, by simp [initial, SignalState.initial]⟩
  | step before taken ih =>
      rename_i trace group process next
      obtain ⟨kept, survives⟩ := ih.1.step proper.differ taken
      refine ⟨kept, ?_⟩
      rw [survives, ih.2]
      simp [or_imp, forall_and]

theorem waits_of_sigwait {program : List (Call Signal)} {mask : List Signal}
    (waits : .sigwait mask ∈ program) : program.all (Call.harmless signal) = false := by
  rw [List.all_eq_false]
  exact ⟨_, waits, by simp [Call.harmless]⟩

theorem Underway.notified (underway : Underway startUp group)
    (alive : (group.signals startUp.receiver).terminated = false) : group.Notified startUp where
  alive := alive
  kept := by
    rintro sent ⟨mask, waits⟩
    have receiving := underway.receiving
    rw [sent] at receiving
    cases receiving with
    | waiting _ _ _ _ _ kept => exact kept
    | done _ _ _ ok =>
        rw [waits_of_sigwait waits] at ok
        cases ok
    | dead _ _ terminated =>
        rw [alive] at terminated
        cases terminated

/-- In every run the receiver of a start-up lives and does not miss the signal exactly when
the signal is sent after the receiver has blocked it. -/
theorem notified_iff (proper : startUp.Proper) {trace : List (Group Process Signal × Process)}
    (run : Run machine (initial startUp.program) trace group) :
    group.Notified startUp ↔ ∀ entry ∈ trace, entry.1.Heeded startUp entry.2 := by
  obtain ⟨held, survives⟩ := underway proper run
  constructor
  · intro notified
    exact survives.mp notified.alive
  · intro heeded
    exact held.notified (survives.mpr heeded)

end Group

end Signals
