/-!
Child processes as their parent sees them: they are stopped, resumed or come to an end, and a
wait returns for a change of state that has not been waited for, or when there is nobody left
to wait for.
-/

namespace Children

inductive Life
  | unborn
  | runs
  | stopped
  | ended
deriving DecidableEq, Repr

/-- `unreported` is a change of state that no wait has returned for, `reaped` an end that a
wait has returned for; `halted` tells whether the child has ever been stopped or ended. -/
structure Child (Image : Type) where
  life : Life
  image : Image
  unreported : Bool
  reaped : Bool
  halted : Bool
deriving DecidableEq, Repr

inductive Event
  | stop
  | resume
  | finish
deriving DecidableEq, Repr

namespace Child

variable {Image : Type}

def unborn (image : Image) : Child Image where
  life := .unborn
  image := image
  unreported := false
  reaped := false
  halted := false

def fork (image : Image) : Child Image where
  life := .runs
  image := image
  unreported := false
  reaped := false
  halted := false

def finish (child : Child Image) : Child Image :=
  { child with life := .ended, unreported := true, halted := true }

/-- A stop that nobody has waited for is forgotten when the child is resumed. -/
def happen (child : Child Image) : Event → Option (Child Image)
  | .stop =>
      if child.life = .runs then
        some { child with life := .stopped, unreported := true, halted := true }
      else none
  | .resume =>
      if child.life = .stopped then some { child with life := .runs, unreported := false }
      else none
  | .finish => if child.life = .runs ∨ child.life = .stopped then some child.finish else none

def wait (child : Child Image) : Option (Child Image) :=
  if child.unreported then
    some { child with unreported := false, reaped := child.life = .ended }
  else if child.life = .unborn ∨ child.reaped = true then some child
  else none

def alive (child : Child Image) : Prop :=
  child.life = .runs ∨ child.life = .stopped

structure Sound (child : Child Image) : Prop where
  fresh : child.life = .unborn →
    child.unreported = false ∧ child.reaped = false ∧ child.halted = false
  reported : child.unreported = true → child.halted = true
  ended : child.life = .ended → child.halted = true ∧ (child.unreported = true ∨ child.reaped = true)
  reaped : child.reaped = true → child.life = .ended

variable {child after : Child Image}

theorem Sound.ofUnborn (image : Image) : (unborn image).Sound where
  fresh := fun _ => ⟨rfl, rfl, rfl⟩
  reported := by
    intro unreported
    cases unreported
  ended := by
    intro ended
    cases ended
  reaped := by
    intro reaped
    cases reaped

theorem Sound.ofFork (image : Image) : (fork image).Sound where
  fresh := by
    intro unborn
    cases unborn
  reported := by
    intro unreported
    cases unreported
  ended := by
    intro ended
    cases ended
  reaped := by
    intro reaped
    cases reaped

theorem Sound.withImage (sound : child.Sound) (image : Image) :
    { child with image := image }.Sound :=
  ⟨sound.fresh, sound.reported, sound.ended, sound.reaped⟩

theorem Sound.ofFinish (child : Child Image) : child.finish.Sound where
  fresh := by
    intro unborn
    cases unborn
  reported := fun _ => rfl
  ended := fun _ => ⟨rfl, Or.inl rfl⟩
  reaped := fun _ => rfl

theorem Sound.not_reaped (sound : child.Sound) (alive : child.alive) : child.reaped = false := by
  cases reaped : child.reaped with
  | false => rfl
  | true =>
      have ended := sound.reaped reaped
      rcases alive with runs | stopped
      · rw [ended] at runs
        cases runs
      · rw [ended] at stopped
        cases stopped

theorem Sound.happen (sound : child.Sound) {event : Event} (happened : child.happen event = some after) :
    after.Sound := by
  cases event with
  | stop =>
      simp only [Child.happen] at happened
      split at happened
      · rename_i runs
        have kept := sound.not_reaped (Or.inl runs)
        cases happened
        constructor
        · intro unborn
          cases unborn
        · exact fun _ => rfl
        · intro ended
          cases ended
        · intro reaped
          rw [kept] at reaped
          cases reaped
      · cases happened
  | resume =>
      simp only [Child.happen] at happened
      split at happened
      · rename_i stopped
        have kept := sound.not_reaped (Or.inr stopped)
        cases happened
        constructor
        · intro unborn
          cases unborn
        · intro unreported
          cases unreported
        · intro ended
          cases ended
        · intro reaped
          rw [kept] at reaped
          cases reaped
      · cases happened
  | finish =>
      simp only [Child.happen] at happened
      split at happened
      · cases happened
        exact Sound.ofFinish child
      · cases happened

theorem happen_inv {event : Event} (happened : child.happen event = some after) :
    child.life ≠ .unborn ∧ after.life ≠ .unborn ∧ after.image = child.image ∧
      (child.halted = true → after.halted = true) := by
  cases event <;> simp only [Child.happen] at happened <;> split at happened <;> cases happened
  · rename_i runs
    exact ⟨by simp [runs], by simp, rfl, fun _ => rfl⟩
  · rename_i stopped
    exact ⟨by simp [stopped], by simp, rfl, id⟩
  · rename_i alive
    refine ⟨?_, by simp [Child.finish], rfl, fun _ => rfl⟩
    rcases alive with runs | stopped
    · simp [runs]
    · simp [stopped]

theorem wait_inv (waited : child.wait = some after) :
    after.life = child.life ∧ after.image = child.image ∧ after.halted = child.halted := by
  unfold wait at waited
  split at waited
  · cases waited
    exact ⟨rfl, rfl, rfl⟩
  · split at waited <;> cases waited
    exact ⟨rfl, rfl, rfl⟩

theorem Sound.wait (sound : child.Sound) (waited : child.wait = some after) : after.Sound := by
  unfold Child.wait at waited
  split at waited
  · rename_i unreported
    have halted := sound.reported unreported
    cases waited
    constructor
    · intro unborn
      exact absurd unreported (by simp [(sound.fresh unborn).1])
    · intro again
      cases again
    · intro ended
      exact ⟨halted, Or.inr (decide_eq_true ended)⟩
    · intro reaped
      exact of_decide_eq_true reaped
  · split at waited <;> cases waited
    exact sound

theorem Sound.halted_of_wait (sound : child.Sound) (waited : child.wait = some after)
    (born : child.life ≠ .unborn) : child.halted = true := by
  unfold Child.wait at waited
  split at waited
  · rename_i unreported
    exact sound.reported unreported
  · split at waited
    · rename_i gone
      exact (sound.ended (sound.reaped (gone.resolve_left born))).1
    · cases waited

theorem Sound.alive_of_wait (sound : child.Sound) (waits : child.wait = none) : child.alive := by
  unfold Child.wait at waits
  split at waits
  · cases waits
  · rename_i reported
    split at waits
    · cases waits
    · rename_i there
      rw [not_or] at there
      cases life : child.life with
      | unborn => exact absurd life there.1
      | runs => exact Or.inl life
      | stopped => exact Or.inr life
      | ended =>
          rcases (sound.ended life).2 with unreported | reaped
          · exact absurd unreported reported
          · exact absurd reaped there.2

end Child

end Children
