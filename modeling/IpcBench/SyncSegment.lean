import IpcBench.Arguments
import IpcBench.ShmSync

/-!
The shared memory segment of the shm-sync transport: its size, where the payload and the
`Sync` object lie in it, and the set-up that server and client both run.
-/

namespace IpcBench

open Transition Words

structure Region where
  base : Int
  bytes : Int
deriving DecidableEq, Repr

namespace Region

def Inside (region : Region) (size : Int) : Prop :=
  0 ≤ region.base ∧ region.base + region.bytes ≤ size

def Disjoint (first second : Region) : Prop :=
  first.base + first.bytes ≤ second.base ∨ second.base + second.bytes ≤ first.base

end Region

structure SyncLayout where
  mutex : Nat
  condition : Nat
  padding : Nat
  mutex_pos : 0 < mutex
  condition_pos : 0 < condition

/-- With the thread library of 64-bit Linux. -/
def SyncLayout.linux : SyncLayout where
  mutex := 40
  condition := 48
  padding := 0
  mutex_pos := by decide
  condition_pos := by decide

namespace SyncLayout

def sizeofSync (layout : SyncLayout) : Nat :=
  layout.mutex + layout.condition + layout.padding

/-- The local `size` of `create_segment`, an int. -/
def segmentSize (layout : SyncLayout) (args : Arguments) : Int :=
  intT (sizeT (sizeT args.size + layout.sizeofSync))

def payload (args : Arguments) : Region where
  base := 0
  bytes := sizeT args.size

/-- `(struct Sync*)shared_memory + args->size`: the pointer is advanced by whole objects. -/
def syncRegion (layout : SyncLayout) (args : Arguments) : Region where
  base := args.size * layout.sizeofSync
  bytes := layout.sizeofSync

end SyncLayout

structure SyncSegment where
  size : Option Int
  sync : Option Sync
deriving DecidableEq, Repr

inductive SyncSetupPc
  | createSegment
  | attachSegment
  | createSync
  | begin
  | communicate
  | failed
deriving DecidableEq, Repr

def initSync : Sync where
  owner := none
  sleeping := []

/-- The set-up of either process, up to its first call on the `Sync` object. A negative size
is too large for `shmget`, and the process throws. -/
def SyncSetupPc.step (layout : SyncLayout) (args : Arguments)
    (use : Sync → Option Sync) (segment : SyncSegment) :
    SyncSetupPc → Option (SyncSegment × SyncSetupPc)
  | .createSegment =>
      if layout.segmentSize args < 0 then some (segment, .failed)
      else some ({ segment with size := some (segment.size.getD (layout.segmentSize args)) },
        .attachSegment)
  | .attachSegment => some (segment, .createSync)
  | .createSync => some ({ segment with sync := some initSync }, .begin)
  | .begin =>
      match segment.sync.bind use with
      | none => none
      | some sync => some ({ segment with sync := some sync }, .communicate)
  | .communicate => none
  | .failed => none

abbrev SyncSetup := Duo SyncSegment SyncSetupPc SyncSetupPc

/-- The client begins with `sync_notify`, the server with the lock of `sync_wait`. -/
def syncSetupMachine (layout : SyncLayout) (args : Arguments) : Machine SyncSetup Peer :=
  Duo.machine (SyncSetupPc.step layout args fun sync => some (syncNotify sync))
    (SyncSetupPc.step layout args fun sync =>
      (syncWait .server sync .lock).map fun result => result.1)

namespace SyncSetup

def initial : SyncSetup where
  shared := ⟨none, none⟩
  client := .createSegment
  server := .createSegment

def Reinitialises (pair : SyncSetup) : Peer → Prop
  | .client => pair.client = .createSync ∧ pair.server = .communicate
  | .server => pair.server = .createSync ∧ pair.client = .communicate

end SyncSetup

/-- What the segment promises: the object has its place beside the payload, and neither
set-up disturbs the other process. -/
structure SyncLayout.Consistent (layout : SyncLayout) (args : Arguments) : Prop where
  inside : (layout.syncRegion args).Inside (layout.segmentSize args)
  disjoint : (layout.syncRegion args).Disjoint (payload args)
  once : ∀ trace pair, Run (syncSetupMachine layout args) SyncSetup.initial trace pair →
    ∀ entry ∈ trace, ¬entry.1.Reinitialises entry.2

variable {layout : SyncLayout} {args : Arguments}

theorem SyncLayout.two_le_sizeofSync (layout : SyncLayout) : 2 ≤ layout.sizeofSync := by
  have mutex := layout.mutex_pos
  have condition := layout.condition_pos
  unfold sizeofSync
  omega

theorem segmentSize_le (sized : 0 < args.size) (int : args.size < 2147483648) :
    layout.segmentSize args ≤ args.size + layout.sizeofSync := by
  have size : sizeT args.size = args.size.toNat := sizeT_eq (by omega) (by omega)
  have whole : 0 ≤ args.size + layout.sizeofSync := by omega
  have reduced : (sizeT (sizeT args.size + layout.sizeofSync) : Int) ≤
      args.size + layout.sizeofSync := by
    rw [size]
    unfold sizeT
    omega
  unfold SyncLayout.segmentSize intT
  omega

theorem sync_outside (layout : SyncLayout) (sized : 0 < args.size) (int : args.size < 2147483648) :
    layout.segmentSize args < (layout.syncRegion args).base + (layout.syncRegion args).bytes := by
  have requested : layout.segmentSize args ≤ args.size + layout.sizeofSync :=
    segmentSize_le sized int
  have two := layout.two_le_sizeofSync
  have product : args.size * 2 ≤ args.size * layout.sizeofSync :=
    Int.mul_le_mul_of_nonneg_left (by omega) (by omega)
  simp only [SyncLayout.syncRegion]
  omega

theorem sync_beside (sized : 0 < args.size) (int : args.size < 2147483648) :
    (layout.syncRegion args).Disjoint (SyncLayout.payload args) := by
  right
  have size : sizeT args.size = args.size.toNat := sizeT_eq (by omega) (by omega)
  have two := layout.two_le_sizeofSync
  have product : args.size * 1 ≤ args.size * layout.sizeofSync :=
    Int.mul_le_mul_of_nonneg_left (by omega) (by omega)
  simp only [SyncLayout.syncRegion, SyncLayout.payload, size]
  omega

namespace SyncSetup

def reached (size : Int) (sync : Option Sync) (client server : SyncSetupPc) : SyncSetup where
  shared := ⟨some size, sync⟩
  client := client
  server := server

variable {size : Int}

theorem server_ready (same : layout.segmentSize args = size) (requested : 0 ≤ size) : ∃ trace,
    Run (syncSetupMachine layout args) initial trace
      (reached size (some ⟨some .server, []⟩) .createSegment .communicate) := by
  have valid : ¬size < 0 := by omega
  have created : (syncSetupMachine layout args).step initial .server =
      some (reached size none .createSegment .attachSegment) := by
    apply Duo.step_server.mpr
    refine ⟨⟨some size, none⟩, .attachSegment, ?_, rfl⟩
    simp [initial, SyncSetupPc.step, same, valid]
  have attached : (syncSetupMachine layout args).step
      (reached size none .createSegment .attachSegment) .server =
      some (reached size none .createSegment .createSync) := rfl
  have initialised : (syncSetupMachine layout args).step
      (reached size none .createSegment .createSync) .server =
      some (reached size (some initSync) .createSegment .begin) := rfl
  have locked : (syncSetupMachine layout args).step
      (reached size (some initSync) .createSegment .begin) .server =
      some (reached size (some ⟨some .server, []⟩) .createSegment .communicate) := rfl
  exact ⟨_, (((Run.start.step created).step attached).step initialised).step locked⟩

/-- The client comes to `create_sync` when the server already owns the mutex. -/
theorem reinitialises (same : layout.segmentSize args = size) (requested : 0 ≤ size) :
    ∃ trace before after, Run (syncSetupMachine layout args) initial trace before ∧
      before.Reinitialises .client ∧ before.shared.sync = some ⟨some .server, []⟩ ∧
      (syncSetupMachine layout args).step before .client = some after ∧
      after.shared.sync = some ⟨none, []⟩ := by
  have valid : ¬size < 0 := by omega
  obtain ⟨trace, run⟩ := server_ready same requested
  have created : (syncSetupMachine layout args).step
      (reached size (some ⟨some .server, []⟩) .createSegment .communicate) .client =
      some (reached size (some ⟨some .server, []⟩) .attachSegment .communicate) := by
    apply Duo.step_client.mpr
    refine ⟨_, .attachSegment, ?_, rfl⟩
    simp [reached, SyncSetupPc.step, same, valid]
  have attached : (syncSetupMachine layout args).step
      (reached size (some ⟨some .server, []⟩) .attachSegment .communicate) .client =
      some (reached size (some ⟨some .server, []⟩) .createSync .communicate) := rfl
  exact ⟨_, _, _, (run.step created).step attached, ⟨rfl, rfl⟩, rfl, rfl, rfl⟩

end SyncSetup

/-- For every size the object lies beside the payload but not inside the segment, and unless
the size is too large for an int some order of the set-ups initialises the object while it
is in use. -/
theorem segment_never_consistent (layout : SyncLayout) {args : Arguments}
    (sized : 0 < args.size) (int : args.size < 2147483648) :
    ¬layout.Consistent args ∧
    layout.segmentSize args < (layout.syncRegion args).base + (layout.syncRegion args).bytes ∧
    (layout.syncRegion args).Disjoint (SyncLayout.payload args) ∧
    (0 ≤ layout.segmentSize args → ∃ trace pair next,
      Run (syncSetupMachine layout args) SyncSetup.initial trace pair ∧
      pair.Reinitialises .client ∧ pair.shared.sync = some ⟨some .server, []⟩ ∧
      (syncSetupMachine layout args).step pair .client = some next ∧
      next.shared.sync = some ⟨none, []⟩) := by
  have outside := sync_outside layout sized int
  refine ⟨?_, outside, sync_beside sized int, SyncSetup.reinitialises rfl⟩
  intro consistent
  have ends := consistent.inside.2
  omega

theorem segment_never_consistent_oneByte : 0 < (⟨1, 1, 1⟩ : Arguments).size ∧
    ¬SyncLayout.linux.Consistent ⟨1, 1, 1⟩ :=
  ⟨by decide, (segment_never_consistent .linux (by decide) (by decide)).1⟩

/-- Two bytes of payload: the object would begin at byte 176 of a segment of 90 bytes. -/
theorem sync_beyond_segment :
    SyncLayout.linux.segmentSize ⟨2, 1, 1⟩ = 90 ∧
    SyncLayout.linux.syncRegion ⟨2, 1, 1⟩ = ⟨176, 88⟩ ∧
    ¬SyncLayout.linux.Consistent ⟨2, 1, 1⟩ := by
  have requested : SyncLayout.linux.segmentSize ⟨2, 1, 1⟩ = 90 := by
    simp only [SyncLayout.segmentSize, SyncLayout.sizeofSync, SyncLayout.linux]
    unfold intT sizeT
    omega
  refine ⟨requested, rfl, ?_⟩
  intro consistent
  have ends := consistent.inside.2
  rw [requested] at ends
  exact absurd ends (by decide)

end IpcBench
