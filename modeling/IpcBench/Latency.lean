import IpcBench.Accesses
import IpcBench.Words

/-!
The latency array of the clients: `updateWriteTimes` stamps the entries of the
requests about to be written, `updateReadWriteTimes` turns the stamps of answered
requests into latencies. Both are loops that read and write the array, entry by entry.
-/

namespace IpcBench

open Accesses Words

namespace LatencyArray

def writeTime (time : Nat) (index : Nat) (times : Tracked Nat) : Tracked Nat :=
  times.write index time

def readWriteTime (time : Nat) (index : Nat) (times : Tracked Nat) : Tracked Nat :=
  let (stamp, times) := times.read index
  times.write index (sizeT (time - stamp))

/-- What the two functions have in common: `end` is the sum or the length, the loop goes from
`startIndex` to it. -/
def updateTimes (body : Nat → Tracked Nat → Tracked Nat)
    (totalTimes startIndex numToUpdate : Nat) (times : Tracked Nat) : Tracked Nat :=
  if totalTimes < startIndex then times
  else
    forLoop body startIndex
      (if totalTimes < sizeT (startIndex + numToUpdate) then totalTimes
      else sizeT (startIndex + numToUpdate)) times

def updateWriteTimes (time totalTimes startIndex numToUpdate : Nat) (times : Tracked Nat) :
    Tracked Nat :=
  updateTimes (writeTime time) totalTimes startIndex numToUpdate times

def updateReadWriteTimes (time totalTimes startIndex numToUpdate : Nat) (times : Tracked Nat) :
    Tracked Nat :=
  updateTimes (readWriteTime time) totalTimes startIndex numToUpdate times

/-- The indices that both functions visit: `startIndex` up to the sum, computed in
`size_t`, cut at `totalTimes`. -/
def updateRange (totalTimes startIndex numToUpdate : Nat) : List Nat :=
  let sum := sizeT (startIndex + numToUpdate)
  if totalTimes < startIndex then []
  else List.range' startIndex ((if totalTimes < sum then totalTimes else sum) - startIndex)

theorem mem_updateRange {totalTimes startIndex numToUpdate index : Nat}
    (fits : startIndex + numToUpdate < 18446744073709551616) :
    index ∈ updateRange totalTimes startIndex numToUpdate ↔
      startIndex ≤ index ∧ index < startIndex + numToUpdate ∧ index < totalTimes := by
  have sum : sizeT (startIndex + numToUpdate) = startIndex + numToUpdate :=
    sizeT_add fits
  unfold updateRange
  rw [sum]
  split
  · simp only [List.not_mem_nil, false_iff]
    omega
  · rw [List.mem_range'_1]
    split <;> omega

theorem updateRange_nodup (totalTimes startIndex numToUpdate : Nat) :
    (updateRange totalTimes startIndex numToUpdate).Nodup := by
  unfold updateRange
  dsimp only
  split
  · exact List.nodup_nil
  · exact List.nodup_range'

theorem foldl_set_getD (update : Nat → Nat → Nat) (indices : List Nat) (times : List Nat)
    (distinct : indices.Nodup) (index : Nat) :
    (indices.foldl (fun times index => times.set index (update index (times.getD index 0)))
        times).getD index 0 =
      if index ∈ indices ∧ index < times.length then update index (times.getD index 0)
      else times.getD index 0 := by
  induction indices generalizing times with
  | nil => simp
  | cons first rest ih =>
      have parts := List.nodup_cons.mp distinct
      rw [List.foldl_cons, ih _ parts.2]
      simp only [List.length_set, List.mem_cons]
      by_cases same : index = first
      · subst first
        by_cases inside : index < times.length <;>
          simp [parts.1, inside]
      · have kept : (times.set first (update first (times.getD first 0))).getD index 0 =
            times.getD index 0 := by
          simp [Ne.symm same]
        rw [kept]
        simp [same]

theorem foldl_set_length (update : Nat → Nat → Nat) (indices : List Nat) (times : List Nat) :
    (indices.foldl (fun times index => times.set index (update index (times.getD index 0)))
      times).length = times.length := by
  induction indices generalizing times with
  | nil => rfl
  | cons first rest ih => rw [List.foldl_cons, ih, List.length_set]

section Updates

variable {body : Nat → Tracked Nat → Tracked Nat} {store : List Nat → Nat → List Nat}
  {time : Nat} {times : List Nat} {totalTimes startIndex numToUpdate : Nat}

theorem updateTimes_values
    (same : ∀ index (times : Tracked Nat), (body index times).values = store times.values index) :
    (updateTimes body totalTimes startIndex numToUpdate (.fresh times)).values =
      (updateRange totalTimes startIndex numToUpdate).foldl store times := by
  unfold updateTimes updateRange
  dsimp only
  split
  · rfl
  · exact forLoop_view Tracked.values same

theorem updateWriteTimes_length :
    (updateWriteTimes time totalTimes startIndex numToUpdate (.fresh times)).values.length =
      times.length :=
  (congrArg List.length (updateTimes_values fun _ _ => rfl)).trans
    (foldl_set_length (fun _ _ => time) _ _)

theorem updateReadWriteTimes_length :
    (updateReadWriteTimes time totalTimes startIndex numToUpdate (.fresh times)).values.length =
      times.length :=
  (congrArg List.length (updateTimes_values fun _ _ => rfl)).trans
    (foldl_set_length (fun _ stamp => sizeT (time - (stamp : Nat))) _ _)

theorem updateWriteTimes_getD (index : Nat) :
    (updateWriteTimes time totalTimes startIndex numToUpdate
        (.fresh times)).values.getD index 0 =
      if index ∈ updateRange totalTimes startIndex numToUpdate ∧ index < times.length then time
      else times.getD index 0 :=
  (congrArg (fun times => times.getD index 0) (updateTimes_values fun _ _ => rfl)).trans
    (foldl_set_getD (fun _ _ => time) _ _ (updateRange_nodup _ _ _) index)

theorem updateReadWriteTimes_getD (index : Nat) :
    (updateReadWriteTimes time totalTimes startIndex numToUpdate
        (.fresh times)).values.getD index 0 =
      if index ∈ updateRange totalTimes startIndex numToUpdate ∧ index < times.length then
        sizeT (time - (times.getD index 0 : Nat))
      else times.getD index 0 :=
  (congrArg (fun times => times.getD index 0) (updateTimes_values fun _ _ => rfl)).trans
    (foldl_set_getD (fun _ stamp => sizeT (time - (stamp : Nat))) _ _ (updateRange_nodup _ _ _)
      index)

end Updates

end LatencyArray

end IpcBench
