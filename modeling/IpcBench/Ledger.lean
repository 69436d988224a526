import IpcBench.ClientBalance
import IpcBench.Stretches
import Mathlib.Algebra.Order.Floor.Div

/-!
What a client has stamped, converted and written in each iteration of its loop, read
off its history.
-/

namespace IpcBench

open Words Transition Stretches

variable {Byte : Type} {config : Config}

structure Reading where
  iteration : Nat
  time : Nat
deriving DecidableEq, Repr

/-- The calls of `updateWriteTimes` and `updateReadWriteTimes`, as stretches of request
numbers, and the bytes that were handed over, as stretches of offsets in the whole stream.
An iteration is counted at its poll. -/
structure Ledger where
  iteration : Nat
  stamps : List (Stretch Reading)
  conversions : List (Stretch Reading)
  written : Nat
  writes : List (Stretch Nat)
deriving DecidableEq, Repr

def Ledger.empty : Ledger := ⟨0, [], [], 0, []⟩

def Ledger.note (args : Arguments) (ledger : Ledger) (client : Client Byte) :
    Action Byte → Ledger
  | .poll _ => { ledger with iteration := ledger.iteration + 1 }
  | .send amount =>
      { ledger with
        written := ledger.written + amount
        writes := ledger.writes ++ [⟨ledger.iteration, ledger.written, amount⟩] }
  | .advance time =>
      match client.pc with
      | .readDone _ info =>
          { ledger with
            conversions := ledger.conversions ++
              [⟨⟨ledger.iteration, time⟩, client.numReqsRead, info.wholeReqs⟩] }
      | .stamp _ =>
          if client.outstandingReqs < args.maxOutstandingReqs then
            { ledger with
              stamps := ledger.stamps ++
                [⟨⟨ledger.iteration, time⟩, client.numReqsSent,
                  args.maxOutstandingReqs - client.outstandingReqs⟩] }
          else ledger
      | _ => ledger
  | _ => ledger

def ledger (args : Arguments) (trace : List (Client Byte × Action Byte)) : Ledger :=
  trace.foldl (fun ledger entry => ledger.note args entry.1 entry.2) Ledger.empty

@[simp] theorem ledger_nil (args : Arguments) :
    ledger args ([] : List (Client Byte × Action Byte)) = Ledger.empty := rfl

@[simp] theorem ledger_step (args : Arguments) (trace : List (Client Byte × Action Byte))
    (client : Client Byte) (action : Action Byte) :
    ledger args (trace ++ [(client, action)]) = (ledger args trace).note args client action := by
  simp [ledger]

def WrittenIn (writes : List (Stretch Nat)) (iteration offset : Nat) : Prop :=
  ∃ write ∈ writes, write.Covers offset ∧ write.label = iteration

def readings {State : Type} (trace : List (State × Action Byte)) : List Nat :=
  trace.filterMap fun entry =>
    match entry.2 with
    | .advance time => some time
    | _ => none

/-- The clock never decreases, and its readings fit in `bench_t`. -/
structure ClockRises {State : Type} (trace : List (State × Action Byte)) : Prop where
  sorted : (readings trace).Pairwise (· ≤ ·)
  bounded : ∀ time ∈ readings trace, time < 18446744073709551616

instance {State : Type} (trace : List (State × Action Byte)) : Decidable (ClockRises trace) :=
  decidable_of_iff ((readings trace).Pairwise (· ≤ ·) ∧
      ∀ time ∈ readings trace, time < 18446744073709551616)
    ⟨fun both => ⟨both.1, both.2⟩, fun clock => ⟨clock.sorted, clock.bounded⟩⟩

section Clock

variable {State : Type} {trace : List (State × Action Byte)} {state : State}
  {action : Action Byte}

theorem readings_step : readings (trace ++ [(state, action)]) =
    readings trace ++ readings [(state, action)] := by
  simp only [readings, List.filterMap_append]

theorem ClockRises.earlier (clock : ClockRises (trace ++ [(state, action)])) :
    ClockRises trace := by
  have sorted := clock.sorted
  have bounded := clock.bounded
  rw [readings_step] at sorted bounded
  exact ⟨(List.pairwise_append.mp sorted).1,
    fun time member => bounded time (List.mem_append_left _ member)⟩

theorem ClockRises.latest {time : Nat} (clock : ClockRises (trace ++ [(state, .advance time)])) :
    (∀ earlier ∈ readings trace, earlier ≤ time) ∧ time < 18446744073709551616 := by
  have sorted := clock.sorted
  have bounded := clock.bounded
  rw [readings_step] at sorted bounded
  have last : time ∈ readings [(state, (Action.advance time : Action Byte))] := by
    simp [readings]
  exact ⟨fun earlier member => (List.pairwise_append.mp sorted).2.2 earlier member time last,
    bounded time (List.mem_append_right _ last)⟩

end Clock

/-! The requests that a number of bytes begins. -/

def missing (size bytes : Nat) : Nat :=
  size * (bytes ⌈/⌉ size) - bytes

/-- The bytes accepted after others begin exactly as many requests as were stamped: they
reach into the last of them and not beyond it. -/
structure Begins (size before accepted stamped : Nat) : Prop where
  reach : 0 < stamped → missing size before + size * (stamped - 1) < accepted
  within : accepted ≤ missing size before + size * stamped

instance (size before accepted stamped : Nat) : Decidable (Begins size before accepted stamped) :=
  decidable_of_iff ((0 < stamped → missing size before + size * (stamped - 1) < accepted) ∧
      accepted ≤ missing size before + size * stamped)
    ⟨fun both => ⟨both.1, both.2⟩, fun begins => ⟨begins.reach, begins.within⟩⟩

theorem lt_ceilDiv_iff {size index bytes : Nat} (positive : 0 < size) :
    index < bytes ⌈/⌉ size ↔ size * index < bytes := by
  rw [← not_le, ← not_le, ceilDiv_le_iff_le_mul positive]

theorem begins_iff {size before accepted stamped : Nat} (positive : 0 < size) :
    Begins size before accepted stamped ↔
      (before + accepted) ⌈/⌉ size = before ⌈/⌉ size + stamped := by
  have reached : before ≤ size * (before ⌈/⌉ size) :=
    (ceilDiv_le_iff_le_mul positive).mp (Nat.le_refl _)
  have grows : before ⌈/⌉ size ≤ (before + accepted) ⌈/⌉ size :=
    (gc_mul_ceilDiv positive).monotone_l (Nat.le_add_right before accepted)
  have most : (before + accepted) ⌈/⌉ size ≤ before ⌈/⌉ size + stamped ↔
      before + accepted ≤ size * (before ⌈/⌉ size) + size * stamped := by
    rw [ceilDiv_le_iff_le_mul positive, Nat.mul_add]
  have least : before ⌈/⌉ size + (stamped - 1) < (before + accepted) ⌈/⌉ size ↔
      size * (before ⌈/⌉ size) + size * (stamped - 1) < before + accepted := by
    rw [lt_ceilDiv_iff positive, Nat.mul_add]
  constructor
  · intro begins
    have reach := begins.reach
    have within := begins.within
    unfold missing at reach within
    have upper := most.mpr (by omega)
    rcases Nat.eq_zero_or_pos stamped with none | some
    · omega
    · have lower := least.mpr (by have := reach some; omega)
      omega
  · intro same
    have upper := most.mp (by omega)
    refine ⟨?_, by unfold missing; omega⟩
    intro some
    have lower := least.mp (by omega)
    unfold missing
    omega

end IpcBench
