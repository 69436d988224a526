import IpcBench.TcpProgress

/-!
A process whose peer has closed its descriptors: what was delivered can still be read,
then every read returns nothing, and every write fails and raises SIGPIPE. A client
writes only when its window has room, so one with a full window waits for good.
-/

namespace IpcBench

open Words Transition

structure Orphan (Process Byte : Type) where
  process : Process
  delivered : List Byte

namespace Orphan

variable {Process Byte : Type}

/-- Polls go on telling the truth: there is input while bytes are left, and a write would
not block. -/
def step [DecidableEq Byte] (own : Process → Action Byte → Option Process)
    (reads : Process → Bool) (orphan : Orphan Process Byte) :
    Action Byte → Option (Orphan Process Byte)
  | .signal => none
  | .advance time =>
      (own orphan.process (.advance time)).map fun process => { orphan with process := process }
  | .poll none => none
  | .poll (some (readable, writable)) =>
      if writable = true ∧ (orphan.delivered.isEmpty = false → readable = true) then
        (own orphan.process (.poll (some (readable, writable)))).map fun process =>
          { orphan with process := process }
      else none
  | .recv data =>
      if data = orphan.delivered.take data.length then
        (own orphan.process (.recv data)).map fun process =>
          ⟨process, orphan.delivered.drop data.length⟩
      else none
  | .send _ => none
  | .stop =>
      if reads orphan.process = true ∧ orphan.delivered = [] then
        (own orphan.process .stop).map fun process => { orphan with process := process }
      else none
  | .broken =>
      (own orphan.process .broken).map fun process => { orphan with process := process }

variable {own : Process → Action Byte → Option Process} {reads : Process → Bool}
  {orphan next : Orphan Process Byte} {action : Action Byte}

/-- What the environment of an orphan lets it do. -/
structure Allows (reads : Process → Bool) (orphan : Orphan Process Byte)
    (action : Action Byte) : Prop where
  signal : action ≠ .signal
  failed : action ≠ .poll none
  send : ∀ amount, action ≠ .send amount
  writable : ∀ readable writable, action = .poll (some (readable, writable)) → writable = true
  readable : ∀ readable writable, action = .poll (some (readable, writable)) →
    0 < orphan.delivered.length → readable = true
  recv : action.received ≤ orphan.delivered.length
  stop : action = .stop → reads orphan.process = true ∧ orphan.delivered.length = 0

theorem step_inv [DecidableEq Byte] (taken : orphan.step own reads action = some next) :
    Allows reads orphan action ∧ own orphan.process action = some next.process ∧
      next.delivered.length + action.received = orphan.delivered.length := by
  cases action with
  | signal => cases taken
  | send amount => cases taken
  | advance time =>
      simp only [step, Option.map_eq_some_iff] at taken
      obtain ⟨process, moved, rfl⟩ := taken
      exact ⟨⟨by simp, by simp, by simp, by simp, by simp, Nat.zero_le _, by simp⟩, moved, rfl⟩
  | poll ready =>
      match ready with
      | none => cases taken
      | some (readable, writable) =>
          simp only [step] at taken
          split at taken
          · rename_i truthful
            simp only [Option.map_eq_some_iff] at taken
            obtain ⟨process, moved, rfl⟩ := taken
            refine ⟨⟨by simp, by simp, by simp, ?_, ?_, Nat.zero_le _, by simp⟩, moved, rfl⟩
            · intro _ _ same
              cases same
              exact truthful.1
            · intro _ _ same left
              cases same
              refine truthful.2 ?_
              cases delivered : orphan.delivered with
              | nil => simp [delivered] at left
              | cons _ _ => rfl
          · cases taken
  | recv data =>
      simp only [step] at taken
      split at taken
      · rename_i oldest
        simp only [Option.map_eq_some_iff] at taken
        obtain ⟨process, moved, rfl⟩ := taken
        have within : data.length ≤ orphan.delivered.length := by
          have := congrArg List.length oldest
          simp only [List.length_take] at this
          omega
        refine ⟨⟨by simp, by simp, by simp, by simp, by simp, within, by simp⟩, moved, ?_⟩
        simp only [Action.received, List.length_drop]
        omega
      · cases taken
  | stop =>
      simp only [step] at taken
      split at taken
      · rename_i ended
        simp only [Option.map_eq_some_iff] at taken
        obtain ⟨process, moved, rfl⟩ := taken
        refine ⟨⟨by simp, by simp, by simp, by simp, by simp, Nat.zero_le _, ?_⟩, moved, rfl⟩
        intro _
        exact ⟨ended.1, List.length_eq_zero_iff.mpr ended.2⟩
      · cases taken
  | broken =>
      simp only [step, Option.map_eq_some_iff] at taken
      obtain ⟨process, moved, rfl⟩ := taken
      exact ⟨⟨by simp, by simp, by simp, by simp, by simp, Nat.zero_le _, by simp⟩, moved, rfl⟩

section Takes

variable [DecidableEq Byte]

theorem takes_advance {time : Nat} (moves : (own orphan.process (.advance time)).isSome) :
    ∃ action next, orphan.step own reads action = some next := by
  obtain ⟨process, moved⟩ := Option.isSome_iff_exists.mp moves
  exact ⟨.advance time, { orphan with process := process }, by simp [step, moved]⟩

theorem takes_poll (moves : (own orphan.process (.poll (some (true, true)))).isSome) :
    ∃ action next, orphan.step own reads action = some next := by
  obtain ⟨process, moved⟩ := Option.isSome_iff_exists.mp moves
  exact ⟨.poll (some (true, true)), { orphan with process := process }, by simp [step, moved]⟩

theorem takes_read (isReading : reads orphan.process = true)
    (stops : (own orphan.process .stop).isSome)
    (receives : ∀ byte, (own orphan.process (.recv [byte])).isSome) :
    ∃ action next, orphan.step own reads action = some next := by
  cases delivered : orphan.delivered with
  | nil =>
      obtain ⟨process, moved⟩ := Option.isSome_iff_exists.mp stops
      exact ⟨.stop, { orphan with process := process },
        by simp [step, isReading, delivered, moved]⟩
  | cons byte rest =>
      obtain ⟨process, moved⟩ := Option.isSome_iff_exists.mp (receives byte)
      exact ⟨.recv [byte], ⟨process, rest⟩, by simp [step, delivered, moved]⟩

theorem takes_broken (moves : (own orphan.process .broken).isSome) :
    ∃ action next, orphan.step own reads action = some next := by
  obtain ⟨process, moved⟩ := Option.isSome_iff_exists.mp moves
  exact ⟨.broken, { orphan with process := process }, by simp [step, moved]⟩

end Takes

def machine [DecidableEq Byte] (own : Process → Action Byte → Option Process)
    (reads : Process → Bool) : Machine (Orphan Process Byte) (Action Byte) where
  step := step own reads

end Orphan

end IpcBench
