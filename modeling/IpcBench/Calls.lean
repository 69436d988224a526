import IpcBench.Duo

/-!
Two programs that are known by the system calls they make, one after another, over a
kernel that lets a call return, successfully or not, or keeps it waiting.
-/

namespace Calls

open Transition

inductive Outcome
  | succeeds
  | fails
deriving DecidableEq, Repr

/-- A program at a place has either come to its end or makes a call there, and goes on
where the outcome of the call takes it. -/
structure Program (Place Call : Type) where
  call : Place → Option Call
  next : Place → Outcome → Place

structure System (Kernel Call ClientPlace ServerPlace : Type) where
  client : Program ClientPlace Call
  server : Program ServerPlace Call
  perform : Peer → Call → Outcome → Kernel → Option Kernel

variable {Kernel Call ClientPlace ServerPlace : Type}

namespace System

variable (system : System Kernel Call ClientPlace ServerPlace)

def step (duo : Duo Kernel ClientPlace ServerPlace) :
    Peer × Outcome → Option (Duo Kernel ClientPlace ServerPlace)
  | (.client, outcome) =>
      match system.client.call duo.client with
      | none => none
      | some call =>
          (system.perform .client call outcome duo.shared).map fun kernel =>
            { duo with shared := kernel, client := system.client.next duo.client outcome }
  | (.server, outcome) =>
      match system.server.call duo.server with
      | none => none
      | some call =>
          (system.perform .server call outcome duo.shared).map fun kernel =>
            { duo with shared := kernel, server := system.server.next duo.server outcome }

def machine : Machine (Duo Kernel ClientPlace ServerPlace) (Peer × Outcome) where
  step := system.step

variable {system} {duo next : Duo Kernel ClientPlace ServerPlace} {outcome : Outcome}

theorem step_client : system.machine.step duo (.client, outcome) = some next ↔
    ∃ call kernel, system.client.call duo.client = some call ∧
      system.perform .client call outcome duo.shared = some kernel ∧
      next = { duo with shared := kernel, client := system.client.next duo.client outcome } := by
  simp only [machine, step]
  cases found : system.client.call duo.client with
  | none => simp
  | some call =>
      simp only [Option.map_eq_some_iff, Option.some.injEq, exists_and_left, exists_eq_left']
      constructor
      · rintro ⟨kernel, performed, rfl⟩
        exact ⟨kernel, performed, rfl⟩
      · rintro ⟨kernel, performed, rfl⟩
        exact ⟨kernel, performed, rfl⟩

theorem step_server : system.machine.step duo (.server, outcome) = some next ↔
    ∃ call kernel, system.server.call duo.server = some call ∧
      system.perform .server call outcome duo.shared = some kernel ∧
      next = { duo with shared := kernel, server := system.server.next duo.server outcome } := by
  simp only [machine, step]
  cases found : system.server.call duo.server with
  | none => simp
  | some call =>
      simp only [Option.map_eq_some_iff, Option.some.injEq, exists_and_left, exists_eq_left']
      constructor
      · rintro ⟨kernel, performed, rfl⟩
        exact ⟨kernel, performed, rfl⟩
      · rintro ⟨kernel, performed, rfl⟩
        exact ⟨kernel, performed, rfl⟩

def Stuck (system : System Kernel Call ClientPlace ServerPlace)
    (duo : Duo Kernel ClientPlace ServerPlace) : Prop :=
  ∀ action, system.machine.step duo action = none

theorem Stuck.client {call : Call} (stuck : system.Stuck duo)
    (at_call : system.client.call duo.client = some call) (outcome : Outcome) :
    system.perform .client call outcome duo.shared = none := by
  cases performed : system.perform .client call outcome duo.shared with
  | none => rfl
  | some kernel =>
      have taken := step_client.mpr ⟨call, kernel, at_call, performed, rfl⟩
      rw [stuck (.client, outcome)] at taken
      cases taken

theorem Stuck.server {call : Call} (stuck : system.Stuck duo)
    (at_call : system.server.call duo.server = some call) (outcome : Outcome) :
    system.perform .server call outcome duo.shared = none := by
  cases performed : system.perform .server call outcome duo.shared with
  | none => rfl
  | some kernel =>
      have taken := step_server.mpr ⟨call, kernel, at_call, performed, rfl⟩
      rw [stuck (.server, outcome)] at taken
      cases taken

end System

def occasions {State Action : Type} (kind : State → Action → Bool)
    (trace : List (State × Action)) : Nat :=
  trace.countP fun entry => kind entry.1 entry.2

theorem occasions_step {State Action : Type} (kind : State → Action → Bool)
    (trace : List (State × Action)) (state : State) (action : Action) :
    occasions kind (trace ++ [(state, action)]) =
      occasions kind trace + if kind state action = true then 1 else 0 := by
  simp [occasions, List.countP_append, List.countP_cons]

/-- Where every step lowers a bounded measure unless there is trouble, the trouble there has
been bounds the length of the run. -/
theorem length_le_of_troubles {State Action : Type} {machine : Machine State Action}
    {initial state : State} {trace : List (State × Action)}
    (run : Run machine initial trace state) (trouble : State → Action → Bool)
    (measure : State → Nat) (limit : Nat) (bounded : ∀ state, measure state ≤ limit)
    (lowers : ∀ state action next, machine.step state action = some next →
      trouble state action = false → measure next < measure state) :
    trace.length + measure state ≤ measure initial + (limit + 1) * occasions trouble trace := by
  induction run with
  | start => simp [occasions]
  | step before taken ih =>
      rename_i trace state action next
      rw [occasions_step, List.length_append, List.length_singleton]
      cases troubled : trouble state action with
      | false =>
          have lower := lowers _ _ _ taken troubled
          simp only [Bool.false_eq_true, if_false, Nat.add_zero]
          omega
      | true =>
          have bound := bounded next
          simp only [if_true, Nat.mul_add, Nat.mul_one]
          omega

end Calls
