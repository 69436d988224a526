/-!
Machines with labelled steps and their finite runs: invariants over the history
of a run, runs of a guarded machine, the part of a run that one component sees,
and bounds on the length of a run.
-/

namespace Transition

structure Machine (State Action : Type) where
  step : State → Action → Option State

variable {State Action : Type}

inductive Run (machine : Machine State Action) (initial : State) :
    List (State × Action) → State → Prop
  | start : Run machine initial [] initial
  | step {trace state action next} : Run machine initial trace state →
      machine.step state action = some next →
      Run machine initial (trace ++ [(state, action)]) next

variable {machine : Machine State Action} {initial state : State}
  {trace : List (State × Action)}

/-- A property of the history and the state holds after every run when it holds
at the start and every step of a run preserves it. -/
theorem Run.invariant (run : Run machine initial trace state)
    (Holds : List (State × Action) → State → Prop) (base : Holds [] initial)
    (preserved : ∀ trace state action next, Run machine initial trace state →
      Holds trace state → machine.step state action = some next →
      Holds (trace ++ [(state, action)]) next) :
    Holds trace state := by
  induction run with
  | start => exact base
  | step before taken ih => exact preserved _ _ _ _ before ih taken

theorem Run.stateInvariant (run : Run machine initial trace state) (Holds : State → Prop)
    (base : Holds initial)
    (preserved : ∀ state action next, Holds state → machine.step state action = some next →
      Holds next) :
    Holds state :=
  run.invariant (fun _ reached => Holds reached) base
    (fun _ _ _ _ _ held taken => preserved _ _ _ held taken)

theorem Run.reached (run : Run machine initial trace state) :
    ∀ entry ∈ trace, ∃ earlier, Run machine initial earlier entry.1 := by
  induction run with
  | start => simp
  | step before taken ih =>
      intro entry member
      rcases List.mem_append.mp member with old | last
      · exact ih entry old
      · rw [List.mem_singleton] at last
        subst entry
        exact ⟨_, before⟩

theorem Run.prepend {action : Action} {first : State}
    (taken : machine.step initial action = some first)
    (run : Run machine first trace state) :
    Run machine initial ((initial, action) :: trace) state := by
  induction run with
  | start => exact Run.step Run.start taken
  | step before later ih => exact Run.step ih later

theorem Run.append {trace' : List (State × Action)} {last : State}
    (run : Run machine initial trace state) (more : Run machine state trace' last) :
    Run machine initial (trace ++ trace') last := by
  induction more with
  | start => simpa using run
  | step _ taken ih =>
      rw [← List.append_assoc]
      exact Run.step ih taken

/-! Conditions on every step of a history, which may depend on what came before. -/

def Throughout (Meets : List (State × Action) → State → Action → Prop)
    (trace : List (State × Action)) : Prop :=
  ∀ earlier state action later, trace = earlier ++ (state, action) :: later →
    Meets earlier state action

theorem throughout_nil {Meets : List (State × Action) → State → Action → Prop} :
    Throughout Meets [] := by
  intro earlier state action later split
  simp at split

theorem throughout_step {Meets : List (State × Action) → State → Action → Prop}
    {action : Action} :
    Throughout Meets (trace ++ [(state, action)]) ↔
      Throughout Meets trace ∧ Meets trace state action := by
  constructor
  · intro all
    constructor
    · intro earlier before other later split
      exact all earlier before other (later ++ [(state, action)]) (by simp [split])
    · exact all trace state action [] rfl
  · rintro ⟨old, last⟩ earlier before other later split
    rcases List.eq_nil_or_concat later with none | ⟨middle, final, some⟩
    · subst none
      obtain ⟨same, entry⟩ := List.append_inj' split rfl
      simp only [List.cons.injEq, Prod.mk.injEq, and_true] at entry
      obtain ⟨rfl, rfl⟩ := entry
      rw [← same]
      exact last
    · subst some
      rw [List.concat_eq_append, ← List.cons_append, ← List.append_assoc] at split
      exact old earlier before other middle (List.append_inj' split rfl).1

theorem throughout_iff_take {Meets : List (State × Action) → State → Action → Prop} :
    Throughout Meets trace ↔ ∀ position : Fin trace.length,
      Meets (trace.take position) (trace.get position).1 (trace.get position).2 := by
  constructor
  · intro all position
    refine all _ _ _ (trace.drop (position + 1)) ?_
    have split := List.take_append_drop position trace
    rw [List.drop_eq_getElem_cons position.isLt] at split
    exact split.symm
  · intro all earlier before action later split
    subst split
    have inside : earlier.length < (earlier ++ (before, action) :: later).length := by simp
    simpa using all ⟨earlier.length, inside⟩

instance {Meets : List (State × Action) → State → Action → Prop}
    [∀ earlier state action, Decidable (Meets earlier state action)] :
    Decidable (Throughout Meets trace) :=
  decidable_of_iff' _ throughout_iff_take

def Occurs (Meets : List (State × Action) → State → Action → Prop)
    (trace : List (State × Action)) : Prop :=
  ∃ earlier state action later, trace = earlier ++ (state, action) :: later ∧
    Meets earlier state action

theorem occurs_iff {Meets : List (State × Action) → State → Action → Prop} :
    Occurs Meets trace ↔ ¬Throughout (fun earlier state action => ¬Meets earlier state action)
      trace := by
  constructor
  · rintro ⟨earlier, state, action, later, split, meets⟩ never
    exact never earlier state action later split meets
  · intro some
    refine Classical.byContradiction fun none => some ?_
    intro earlier state action later split meets
    exact none ⟨earlier, state, action, later, split, meets⟩

theorem occurs_nil {Meets : List (State × Action) → State → Action → Prop} : ¬Occurs Meets [] := by
  rw [occurs_iff, Classical.not_not]
  exact throughout_nil

theorem occurs_step {Meets : List (State × Action) → State → Action → Prop} {action : Action} :
    Occurs Meets (trace ++ [(state, action)]) ↔ Occurs Meets trace ∨ Meets trace state action := by
  rw [occurs_iff, throughout_step, occurs_iff]
  by_cases last : Meets trace state action <;> simp [last]

/-! Executable runs, for concrete schedules. -/

def Machine.execute (machine : Machine State Action) :
    State → List Action → Option (List (State × Action) × State)
  | state, [] => some ([], state)
  | state, action :: rest =>
      match machine.step state action with
      | none => none
      | some next =>
          (machine.execute next rest).map fun result => ((state, action) :: result.1, result.2)

theorem Run.of_execute {actions : List Action}
    (executed : machine.execute initial actions = some (trace, state)) :
    Run machine initial trace state := by
  induction actions generalizing initial trace with
  | nil =>
      simp only [Machine.execute, Option.some.injEq, Prod.mk.injEq] at executed
      obtain ⟨rfl, rfl⟩ := executed
      exact Run.start
  | cons action rest ih =>
      simp only [Machine.execute] at executed
      split at executed
      · simp at executed
      · rename_i next taken
        simp only [Option.map_eq_some_iff, Prod.mk.injEq] at executed
        obtain ⟨⟨tail, final⟩, found, rfl, rfl⟩ := executed
        exact Run.prepend taken (ih found)

theorem exists_run_of_execute (machine : Machine State Action) (initial : State)
    (actions : List Action) (check : List (State × Action) × State → Bool)
    (executed : (machine.execute initial actions).map check = some true) :
    ∃ trace state, Run machine initial trace state ∧ check (trace, state) = true := by
  obtain ⟨⟨trace, state⟩, found, checked⟩ := Option.map_eq_some_iff.mp executed
  exact ⟨trace, state, Run.of_execute found, checked⟩

/-! Guarded machines: the environment rules out some actions in some states. -/

def Machine.restrict (machine : Machine State Action) (allow : State → Action → Bool) :
    Machine State Action where
  step state action := if allow state action then machine.step state action else none

theorem restrict_step {allow : State → Action → Bool} {action : Action} {next : State} :
    (machine.restrict allow).step state action = some next ↔
      allow state action = true ∧ machine.step state action = some next := by
  simp only [Machine.restrict]
  split
  · rename_i allowed
    simp [allowed]
  · rename_i refused
    simp [refused]

theorem Run.of_restrict {allow : State → Action → Bool}
    (run : Run (machine.restrict allow) initial trace state) :
    Run machine initial trace state := by
  induction run with
  | start => exact Run.start
  | step _ taken ih => exact Run.step ih (restrict_step.mp taken).2

theorem Run.restrict_restrict {allow other : State → Action → Bool}
    (run : Run (machine.restrict other) initial trace state)
    (weaker : ∀ state action, other state action = true → allow state action = true) :
    Run ((machine.restrict allow).restrict other) initial trace state := by
  induction run with
  | start => exact Run.start
  | step _ taken ih =>
      obtain ⟨allowed, taken⟩ := restrict_step.mp taken
      exact Run.step ih (restrict_step.mpr ⟨allowed, restrict_step.mpr ⟨weaker _ _ allowed, taken⟩⟩)

/-! A component of a machine takes part in some of its actions and keeps its
state in all others. -/

def project {Part PartAction : Type} (view : State → Part) (acts : Action → Option PartAction)
    (trace : List (State × Action)) : List (Part × PartAction) :=
  trace.filterMap fun entry => (acts entry.2).map fun action => (view entry.1, action)

theorem project_step {Part PartAction : Type} (view : State → Part)
    (acts : Action → Option PartAction) (trace : List (State × Action)) (state : State)
    (action : Action) :
    project view acts (trace ++ [(state, action)]) =
      project view acts trace ++ ((acts action).map fun own => (view state, own)).toList := by
  cases taken : acts action <;> simp [project, List.filterMap_append, taken]

theorem Run.project {Part PartAction : Type} {part : Machine Part PartAction}
    (run : Run machine initial trace state) (view : State → Part)
    (acts : Action → Option PartAction)
    (follows : ∀ state action next, machine.step state action = some next →
      match acts action with
      | some own => part.step (view state) own = some (view next)
      | none => view next = view state) :
    Run part (view initial) (project view acts trace) (view state) := by
  induction run with
  | start => exact Run.start
  | step before taken ih =>
      rename_i trace state action next
      have own := follows state action next taken
      rw [project_step]
      cases acted : acts action with
      | none =>
          simp only [acted] at own
          simpa [own] using ih
      | some action =>
          simp only [acted] at own
          simpa using Run.step ih own

/-! Length of runs. -/

theorem Run.length_le (run : Run machine initial trace state) (Holds : State → Prop)
    (measure : State → Nat) (base : Holds initial)
    (lowers : ∀ state action next, Holds state → machine.step state action = some next →
      Holds next ∧ measure next < measure state) :
    Holds state ∧ trace.length + measure state ≤ measure initial := by
  induction run with
  | start => exact ⟨base, by simp⟩
  | step before taken ih =>
      have lowered := lowers _ _ _ ih.1 taken
      refine ⟨lowered.1, ?_⟩
      simp only [List.length_append, List.length_cons, List.length_nil]
      omega

theorem exists_run_of_length (Holds : State → Prop) (base : Holds initial)
    (continues : ∀ state, Holds state →
      ∃ action next, machine.step state action = some next ∧ Holds next) (length : Nat) :
    ∃ trace state, Run machine initial trace state ∧ trace.length = length ∧ Holds state := by
  induction length with
  | zero => exact ⟨[], initial, Run.start, rfl, base⟩
  | succ length ih =>
      obtain ⟨trace, state, run, size, held⟩ := ih
      obtain ⟨action, next, taken, kept⟩ := continues state held
      exact ⟨_, next, Run.step run taken, by simp [size], kept⟩

/-! Coming to an end. -/

/-- Every run is finite, within one bound, and stops only in an exit. -/
def Machine.Ends (machine : Machine State Action) (initial : State) (Exit : State → Prop) : Prop :=
  ∃ bound, ∀ trace state, Run machine initial trace state →
    trace.length ≤ bound ∧ (Exit state ∨ ∃ action next, machine.step state action = some next)

theorem ends_of_measure {Exit : State → Prop} (Holds : State → Prop) (measure : State → Nat)
    (base : Holds initial)
    (lowers : ∀ state action next, Holds state → machine.step state action = some next →
      Holds next ∧ measure next < measure state)
    (goes : ∀ state, Holds state →
      Exit state ∨ ∃ action next, machine.step state action = some next) :
    machine.Ends initial Exit := by
  refine ⟨measure initial, ?_⟩
  intro trace state run
  obtain ⟨held, bound⟩ := run.length_le Holds measure base lowers
  exact ⟨by omega, goes state held⟩

theorem not_ends_of_continues {Exit : State → Prop} (Holds : State → Prop) (base : Holds initial)
    (continues : ∀ state, Holds state →
      ∃ action next, machine.step state action = some next ∧ Holds next) :
    ¬machine.Ends initial Exit := by
  rintro ⟨bound, ends⟩
  obtain ⟨trace, state, run, length, _⟩ :=
    exists_run_of_length Holds base continues (bound + 1)
  have := (ends trace state run).1
  omega

theorem Machine.Ends.reaches {Exit : State → Prop} (ends : machine.Ends initial Exit) :
    ∃ trace state, Run machine initial trace state ∧ Exit state := by
  refine Classical.byContradiction fun never => ?_
  refine not_ends_of_continues (fun state => ∃ trace, Run machine initial trace state)
    ⟨[], Run.start⟩ ?_ ends
  rintro state ⟨trace, run⟩
  obtain ⟨bound, ends⟩ := ends
  rcases (ends trace state run).2 with exit | ⟨action, next, taken⟩
  · exact absurd ⟨trace, state, run, exit⟩ never
  · exact ⟨action, next, taken, _, Run.step run taken⟩

/-- Where a step that lowers a measure can be taken until the exit, the exit can be reached. -/
theorem reaches_of_measure {Exit : State → Prop} (Holds : State → Prop) (measure : State → Nat)
    (goes : ∀ state, Holds state → Exit state ∨ ∃ action next,
      machine.step state action = some next ∧ Holds next ∧ measure next < measure state)
    (state : State) (held : Holds state) :
    ∃ trace last, Run machine state trace last ∧ Holds last ∧ Exit last := by
  rcases goes state held with exit | ⟨action, next, taken, kept, lower⟩
  · exact ⟨[], state, Run.start, held, exit⟩
  · obtain ⟨trace, last, run, reached⟩ := reaches_of_measure Holds measure goes next kept
    exact ⟨_, last, Run.prepend taken run, reached⟩
termination_by measure state

/-- A machine that comes to its exit exactly from where it is alive: there every step
lowers a measure, and from elsewhere no step leads to the exit or to life. -/
theorem ends_iff_of_alive {Exit : State → Prop} (Holds Alive : State → Prop)
    (measure : State → Nat) (base : Holds initial)
    (goes : ∀ state, Holds state →
      Exit state ∨ ∃ action next, machine.step state action = some next)
    (keeps : ∀ state action next, Holds state → machine.step state action = some next →
      ¬Exit state ∧ Holds next)
    (lowers : ∀ state action next, Holds state → machine.step state action = some next →
      Alive state → Alive next ∧ measure next < measure state)
    (waits : ∀ state action next, Holds state → machine.step state action = some next →
      ¬Alive state → ¬Exit next ∧ ¬Alive next) :
    machine.Ends initial Exit ↔ Exit initial ∨ Alive initial := by
  constructor
  · intro ends
    refine Classical.byContradiction fun neither => ?_
    rw [not_or] at neither
    refine not_ends_of_continues (fun state => Holds state ∧ ¬Exit state ∧ ¬Alive state)
      ⟨base, neither⟩ ?_ ends
    rintro state ⟨held, running, waiting⟩
    obtain ⟨action, next, taken⟩ := (goes state held).resolve_left running
    exact ⟨action, next, taken, (keeps state action next held taken).2,
      waits state action next held taken waiting⟩
  · intro either
    refine ends_of_measure (fun state => Holds state ∧ (Exit state ∨ Alive state)) measure
      ⟨base, either⟩ ?_ fun state held => goes state held.1
    rintro state action next ⟨held, either⟩ taken
    obtain ⟨running, kept⟩ := keeps state action next held taken
    obtain ⟨lives, lower⟩ := lowers state action next held taken (either.resolve_left running)
    exact ⟨⟨kept, Or.inr lives⟩, lower⟩

section Stage

open Classical

noncomputable def stage (Over Decided Soon : Prop) : Nat :=
  if Over then 0 else if Decided then 1 else if Soon then 2 else 3

variable {Over Decided Soon Over' Decided' Soon' : Prop}

theorem stage_eq_zero (isOver : Over) : stage Over Decided Soon = 0 := if_pos isOver

theorem stage_le_one (near : Over ∨ Decided) : stage Over Decided Soon ≤ 1 := by
  unfold stage
  split
  · omega
  · rename_i isOver
    simp [near.resolve_left isOver]

theorem stage_le_two (near : Over ∨ Decided ∨ Soon) : stage Over Decided Soon ≤ 2 := by
  unfold stage
  split
  · omega
  · rename_i isOver
    split
    · omega
    · rename_i decided
      simp [(near.resolve_left isOver).resolve_left decided]

theorem stage_le_three : stage Over Decided Soon ≤ 3 := by
  unfold stage
  split
  · omega
  · split
    · omega
    · split <;> omega

theorem one_le_stage (isOver : ¬Over) : 1 ≤ stage Over Decided Soon := by
  unfold stage
  rw [if_neg isOver]
  split
  · omega
  · split <;> omega

theorem two_le_stage (isOver : ¬Over) (decided : ¬Decided) : 2 ≤ stage Over Decided Soon := by
  unfold stage
  rw [if_neg isOver, if_neg decided]
  split <;> omega

theorem stage_eq_three (isOver : ¬Over) (decided : ¬Decided) (soon : ¬Soon) :
    stage Over Decided Soon = 3 := by
  unfold stage
  rw [if_neg isOver, if_neg decided, if_neg soon]

theorem stage_le (isOver : Over → Over') (decided : Decided → Over' ∨ Decided')
    (soon : Soon → Over' ∨ Decided' ∨ Soon') :
    stage Over' Decided' Soon' ≤ stage Over Decided Soon := by
  by_cases first : Over
  · rw [stage_eq_zero (isOver first)]
    omega
  · by_cases second : Decided
    · exact Nat.le_trans (stage_le_one (decided second)) (one_le_stage first)
    · by_cases third : Soon
      · exact Nat.le_trans (stage_le_two (soon third)) (two_le_stage first second)
      · rw [stage_eq_three first second third]
        exact stage_le_three

end Stage

/-! Simulation: some of the actions of a machine are moves of an abstract one. -/

section Simulation

variable {Abstract Move : Type}

def observed (observe : Action → Option Move) (trace : List (State × Action)) : List Move :=
  trace.filterMap fun entry => observe entry.2

/-- Where the abstract machine can follow every step, it follows every run, with the moves that
are observed in it. -/
theorem Run.simulate (run : Run machine initial trace state) (abstract : Machine Abstract Move)
    (start : Abstract) (observe : Action → Option Move)
    (Related : List (State × Action) → State → Abstract → Prop) (base : Related [] initial start)
    (quiet : ∀ trace state action next view, Related trace state view →
      machine.step state action = some next → observe action = none →
        Related (trace ++ [(state, action)]) next view)
    (follows : ∀ trace state action next view move, Related trace state view →
      machine.step state action = some next → observe action = some move →
        ∃ after, abstract.step view move = some after ∧
          Related (trace ++ [(state, action)]) next after) :
    ∃ moves view, Run abstract start moves view ∧ Related trace state view ∧
      moves.map Prod.snd = observed observe trace := by
  induction run with
  | start => exact ⟨[], start, Run.start, base, rfl⟩
  | step before taken ih =>
      rename_i trace state action next
      obtain ⟨moves, view, abstractRun, related, same⟩ := ih
      have more : observed observe (trace ++ [(state, action)]) =
          observed observe trace ++ (observe action).toList := by
        cases seen : observe action <;> simp [observed, seen]
      rw [more, ← same]
      cases seen : observe action with
      | none =>
          refine ⟨moves, view, abstractRun, quiet _ _ _ _ _ related taken seen, ?_⟩
          rw [Option.toList_none, List.append_nil]
      | some move =>
          obtain ⟨after, moved, related⟩ := follows _ _ _ _ _ _ related taken seen
          refine ⟨_, after, Run.step abstractRun moved, related, ?_⟩
          rw [List.map_append]
          rfl

end Simulation

end Transition
