import IpcBench.Accesses
import IpcBench.DefinedRuns

/-!
Which entries of the latency array `updateWriteTimes` and `updateReadWriteTimes` of the tcp,
domain and fifo clients read and write.
-/

namespace IpcBench

open Accesses Transition Words

namespace LatencyArray

/-- Of an array the entries from `startIndex` up to the sum or the length are changed, and no
others. -/
structure ChangesExactly (update : Nat → Nat) (totalTimes startIndex numToUpdate : Nat)
    (times : List Nat) (after : Tracked Nat) : Prop where
  length : after.values.length = times.length
  entries : ∀ index < times.length, after.values.getD index 0 =
    if startIndex ≤ index ∧ index < min (startIndex + numToUpdate) totalTimes then
      update (times.getD index 0)
    else times.getD index 0
  inside : ∀ access ∈ after.accesses,
    startIndex ≤ access.index ∧ access.index < min (startIndex + numToUpdate) totalTimes
  written : ∀ index, .write index ∈ after.accesses ↔
    startIndex ≤ index ∧ index < min (startIndex + numToUpdate) totalTimes

theorem own_writeTime (time : Nat) : Own (writeTime time) := by
  intro index times
  refine ⟨[.write index], rfl, ?_, List.mem_singleton_self _⟩
  intro access member
  rw [List.mem_singleton.mp member]
  rfl

theorem own_readWriteTime (time : Nat) : Own (readWriteTime time) := by
  intro index times
  refine ⟨[.read index, .write index], ?_, ?_, by simp⟩
  · simp [readWriteTime, Tracked.read, Tracked.write]
  · intro access member
    simp only [List.mem_cons, List.not_mem_nil, or_false] at member
    rcases member with rfl | rfl
    · rfl
    · rfl

section Updates

variable {body : Nat → Tracked Nat → Tracked Nat} {totalTimes startIndex numToUpdate time : Nat}
  {times : List Nat}

theorem updateTimes_lt (own : Own body) :
    ∀ access ∈ (updateTimes body totalTimes startIndex numToUpdate (.fresh times)).accesses,
      access.index < totalTimes := by
  intro access member
  unfold updateTimes at member
  split at member
  · cases member
  · have inside := (own.covers _ _ _).inside access member
    split at inside <;> omega

theorem updateTimes_covers (own : Own body)
    (fits : startIndex + numToUpdate < 18446744073709551616) :
    Covers startIndex (min (startIndex + numToUpdate) totalTimes)
      (updateTimes body totalTimes startIndex numToUpdate (.fresh times)).accesses := by
  unfold updateTimes
  split
  · exact .nil (by omega)
  · rw [sizeT_add fits]
    have finish : (if totalTimes < startIndex + numToUpdate then totalTimes
        else startIndex + numToUpdate) = min (startIndex + numToUpdate) totalTimes := by
      split <;> omega
    rw [finish]
    exact own.covers _ _ _

theorem updateTimes_exact {update : Nat → Nat} (own : Own body)
    (fits : startIndex + numToUpdate < 18446744073709551616)
    (length : (updateTimes body totalTimes startIndex numToUpdate (.fresh times)).values.length =
      times.length)
    (visited : ∀ index,
      (updateTimes body totalTimes startIndex numToUpdate (.fresh times)).values.getD index 0 =
        if index ∈ updateRange totalTimes startIndex numToUpdate ∧ index < times.length then
          update (times.getD index 0)
        else times.getD index 0) :
    ChangesExactly update totalTimes startIndex numToUpdate times
      (updateTimes body totalTimes startIndex numToUpdate (.fresh times)) := by
  have covers := @updateTimes_covers body totalTimes startIndex numToUpdate times own fits
  constructor
  · exact length
  · intro index below
    rw [visited index]
    simp only [mem_updateRange fits, below, and_true, lt_min_iff]
  · exact covers.inside
  · exact covers.write_iff

theorem updateWriteTimes_exact (fits : startIndex + numToUpdate < 18446744073709551616) :
    ChangesExactly (fun _ => time) totalTimes startIndex numToUpdate times
      (updateWriteTimes time totalTimes startIndex numToUpdate (.fresh times)) :=
  updateTimes_exact (own_writeTime time) fits updateWriteTimes_length updateWriteTimes_getD

theorem updateReadWriteTimes_exact (fits : startIndex + numToUpdate < 18446744073709551616) :
    ChangesExactly (fun stamp => sizeT (time - stamp)) totalTimes startIndex numToUpdate times
      (updateReadWriteTimes time totalTimes startIndex numToUpdate (.fresh times)) :=
  updateTimes_exact (own_readWriteTime time) fits updateReadWriteTimes_length
    updateReadWriteTimes_getD

end Updates

end LatencyArray

namespace Client

variable {Byte : Type} {args : Arguments} {trace : List (Client Byte × Action Byte)}
  {client next : Client Byte} {action : Action Byte}

def touched (args : Arguments) (client : Client Byte) : Action Byte → Tracked Nat
  | .advance time =>
      match client.pc with
      | .readDone _ info => client.readTimes time info
      | .stamp _ =>
          if client.outstandingReqs < args.maxOutstandingReqs then client.stampTimes args time
          else .fresh client.times
      | _ => .fresh client.times
  | _ => .fresh client.times

theorem Step.touched (taken : Step args client action next) :
    next.times = (client.touched args action).values := by
  cases taken with
  | accountRead time canWrite info pc =>
      simp [Client.touched, pc, goto, Client.accountRead]
  | stamp time canWrite pc =>
      by_cases short : client.outstandingReqs < args.maxOutstandingReqs
      · simp [Client.touched, pc, goto, stampWrites, short]
      · simp [Client.touched, pc, goto, stampWrites, short, Tracked.fresh]
  | signal | pollFailed ready pc | polled canRead canWrite pc | recvSome data canWrite transfer pc
  | recvLast data canWrite transfer pc | recvStop canWrite transfer pc | sendSome amount transfer pc
  | sendLast amount transfer pc | sendStop transfer pc | sendBroken transfer pc => rfl
  | _ => simp_all [Client.touched, goto, leave, Tracked.fresh, Client.accountWrite]

theorem touched_length (args : Arguments) (client : Client Byte) (action : Action Byte) :
    (client.touched args action).values.length = client.times.length := by
  unfold touched
  split
  · rename_i time
    split
    · exact readTimes_length _ _ _
    · split
      · exact stampTimes_length _ _ _
      · rfl
    · rfl
  · rfl

structure Sized (args : Arguments) (client : Client Byte) : Prop where
  count : client.pc ≠ .exit → client.count = args.count
  times : (client.times.length : Int) = args.count

theorem Sized.step (sized : Sized args client) (taken : Step args client action next) :
    Sized args next := by
  constructor
  · have count := sized.count
    cases taken with
    | finish | pollFailed => exact fun inside => absurd rfl inside
    | stamp time canWrite pc => simpa [goto, pc] using count
    | _ => simp_all [goto, Client.accountRead, Client.accountWrite]
  · rw [taken.touched, touched_length]
    exact sized.times

theorem Sized.run {allocation : ClientAllocation Byte args} (ints : args.Ints)
    (positive : 0 < args.count) (run : Run (machine args) (fresh allocation) trace client) :
    Sized args client := by
  apply run.stateInvariant (Sized args)
  · have bound := ints.count
    have count : sizeT args.count = args.count.toNat := sizeT_eq (by omega) (by omega)
    have length := allocation.times_length
    rw [count, sizeT_eq (by omega) (by omega)] at length
    refine ⟨fun _ => rfl, ?_⟩
    simp only [fresh]
    omega
  · intro client action next sized taken
    exact sized.step (step_inv taken)

theorem Sized.touched_lt (sized : Sized args client) (ints : args.Ints) :
    ∀ access ∈ (client.touched args action).accesses, (access.index : Int) < args.count := by
  intro access member
  have within (stays : client.pc ≠ .exit) (below : access.index < sizeT client.count) :
      (access.index : Int) < args.count := by
    have length := sized.times
    have bound := ints.count
    rw [sized.count stays, sizeT_eq (by omega) (by omega)] at below
    omega
  unfold Client.touched at member
  split at member
  · rename_i time
    split at member
    · rename_i canWrite info pc
      apply within (by simp [pc])
      exact LatencyArray.updateTimes_lt (LatencyArray.own_readWriteTime time) access member
    · rename_i canWrite pc
      split at member
      · apply within (by simp [pc])
        exact LatencyArray.updateTimes_lt (LatencyArray.own_writeTime time) access member
      · cases member
    · cases member
  · cases member

end Client

/-- With a positive count no step of a client accesses the latency array outside of its entries,
and both functions change exactly the entries asked for while the sum does not wrap. -/
theorem times_in_bounds {Byte : Type} {args : Arguments} (ints : args.Ints)
    (positive : 0 < args.count) {allocation : ClientAllocation Byte args}
    {trace : List (Client Byte × Action Byte)} {client : Client Byte}
    (run : Run (Client.machine args) (Client.fresh allocation) trace client) :
    (∀ entry ∈ trace, (entry.1.times.length : Int) = args.count ∧
      ∀ access ∈ (entry.1.touched args entry.2).accesses, (access.index : Int) < args.count) ∧
    ∀ (time totalTimes startIndex numToUpdate : Nat) (times : List Nat),
      startIndex + numToUpdate < 18446744073709551616 →
        LatencyArray.ChangesExactly (fun _ => time) totalTimes startIndex numToUpdate times
            (LatencyArray.updateWriteTimes time totalTimes startIndex numToUpdate
              (.fresh times)) ∧
          LatencyArray.ChangesExactly (fun stamp => sizeT (time - stamp)) totalTimes startIndex
            numToUpdate times
            (LatencyArray.updateReadWriteTimes time totalTimes startIndex numToUpdate
              (.fresh times)) := by
  constructor
  · intro entry member
    obtain ⟨earlier, before⟩ := run.reached entry member
    have sized := Client.Sized.run ints positive before
    exact ⟨sized.times, sized.touched_lt ints⟩
  · intro time totalTimes startIndex numToUpdate times fits
    exact ⟨LatencyArray.updateWriteTimes_exact fits, LatencyArray.updateReadWriteTimes_exact fits⟩

/-- The request is written one byte at a time and its answer read in one piece, so that the
number of outstanding requests wraps. -/
theorem times_in_bounds_wrapped : ∃ trace client,
    Run (Client.machine Config.twoBytes.arguments) (Client.fresh .twoBytes) trace client ∧
    client.outstandingReqs = 18446744073709551615 ∧
    (∀ entry ∈ trace, (entry.1.times.length : Int) = 1 ∧
      ∀ access ∈ (entry.1.touched Config.twoBytes.arguments entry.2).accesses,
        (access.index : Int) < 1) ∧
    LatencyArray.ChangesExactly (fun _ => 7) 4 1 9 [1, 2, 3, 4]
      (LatencyArray.updateWriteTimes 7 4 1 9 (.fresh [1, 2, 3, 4])) := by
  obtain ⟨trace, client, run, reached⟩ := exists_run_of_execute
    (Client.machine Config.twoBytes.arguments) (Client.fresh .twoBytes)
    [.advance 0, .poll (some (false, true)), .advance 0, .advance 0, .advance 0, .send 1, .stop,
      .advance 0, .advance 1, .poll (some (false, true)), .advance 1, .advance 1, .advance 1,
      .send 1, .advance 1, .advance 2, .poll (some (true, false)), .advance 2, .recv [0, 0],
      .advance 2]
    (fun result => decide (result.2.outstandingReqs = 18446744073709551615))
    (by decide)
  obtain ⟨bounded, exactly⟩ := times_in_bounds Config.twoBytes.ints (by decide) run
  exact ⟨trace, client, run, of_decide_eq_true reached, bounded,
    (exactly 7 4 1 9 [1, 2, 3, 4] (by decide)).1⟩

end IpcBench
