import Mathlib.Algebra.GroupWithZero.Nat
import Mathlib.Data.Nat.Log

/-!
Named pipes: the ends that are open, for whom an open has to wait, and what resizing and
closing do.
-/

namespace NamedPipe

inductive Mode
  | readOnly
  | writeOnly
  | readWrite
deriving DecidableEq, Repr

/-- The ends that are open and, since the kernel counts these apart, the opens there have been. -/
structure Pipe where
  readers : Nat
  writers : Nat
  readerOpens : Nat
  writerOpens : Nat
  content : Nat
  capacity : Nat
deriving DecidableEq, Repr

def pageSize : Nat := 4096

/-- A requested size is rounded up to a power of two and to a page at least. -/
def roundSize (size : Nat) : Nat :=
  max pageSize (2 ^ Nat.clog 2 size)

namespace Pipe

def fresh (capacity : Nat) : Pipe where
  readers := 0
  writers := 0
  readerOpens := 0
  writerOpens := 0
  content := 0
  capacity := capacity

def arrive (pipe : Pipe) : Mode → Pipe
  | .readOnly => { pipe with
      readers := pipe.readers + 1
      readerOpens := pipe.readerOpens + 1 }
  | .writeOnly => { pipe with
      writers := pipe.writers + 1
      writerOpens := pipe.writerOpens + 1 }
  | .readWrite => { pipe with
      readers := pipe.readers + 1
      readerOpens := pipe.readerOpens + 1
      writers := pipe.writers + 1
      writerOpens := pipe.writerOpens + 1 }

def awaited (pipe : Pipe) : Mode → Option Nat
  | .readOnly => if pipe.writers = 0 then some pipe.writerOpens else none
  | .writeOnly => if pipe.readers = 0 then some pipe.readerOpens else none
  | .readWrite => none

def answered (pipe : Pipe) (seen : Nat) : Mode → Bool
  | .readOnly => seen < pipe.writerOpens
  | .writeOnly => seen < pipe.readerOpens
  | .readWrite => true

/-- What is in a pipe goes with its last end. -/
def emptied (pipe : Pipe) : Pipe :=
  if pipe.readers = 0 ∧ pipe.writers = 0 then { pipe with content := 0 } else pipe

def close (pipe : Pipe) : Mode → Pipe
  | .readOnly => { pipe with readers := pipe.readers - 1 }.emptied
  | .writeOnly => { pipe with writers := pipe.writers - 1 }.emptied
  | .readWrite => { pipe with
      readers := pipe.readers - 1
      writers := pipe.writers - 1 }.emptied

/-- `fcntl` with `F_SETPIPE_SZ`, which refuses to drop content. -/
def resize (pipe : Pipe) (size : Nat) : Option Pipe :=
  if pipe.content ≤ roundSize size then some { pipe with capacity := roundSize size } else none

def opens (pipe : Pipe) : Mode → Nat
  | .readOnly => pipe.readerOpens
  | .writeOnly => pipe.writerOpens
  | .readWrite => 0

def present (pipe : Pipe) : Mode → Nat
  | .readOnly => pipe.readers
  | .writeOnly => pipe.writers
  | .readWrite => 0

end Pipe

/-- The modes of two opens that wait for each other. -/
inductive Opposite : Mode → Mode → Prop
  | reads : Opposite .readOnly .writeOnly
  | writes : Opposite .writeOnly .readOnly

theorem Opposite.symm {mode other : Mode} (opposite : Opposite mode other) :
    Opposite other mode := by
  cases opposite with
  | reads => exact .writes
  | writes => exact .reads

section Ends

variable {pipe : Pipe} {mode other : Mode}

theorem arrive_own (opposite : Opposite mode other) :
    (pipe.arrive mode).opens mode = pipe.opens mode + 1 ∧
      (pipe.arrive mode).present mode = pipe.present mode + 1 := by
  cases opposite with
  | reads => exact ⟨rfl, rfl⟩
  | writes => exact ⟨rfl, rfl⟩

theorem arrive_other (opposite : Opposite mode other) :
    (pipe.arrive mode).opens other = pipe.opens other ∧
      (pipe.arrive mode).present other = pipe.present other := by
  cases opposite with
  | reads => exact ⟨rfl, rfl⟩
  | writes => exact ⟨rfl, rfl⟩

theorem awaited_eq (opposite : Opposite mode other) :
    pipe.awaited mode = if pipe.present other = 0 then some (pipe.opens other) else none := by
  cases opposite with
  | reads => rfl
  | writes => rfl

theorem answered_eq (opposite : Opposite mode other) (seen : Nat) :
    pipe.answered seen mode = decide (seen < pipe.opens other) := by
  cases opposite with
  | reads => rfl
  | writes => rfl

theorem emptied_eq : pipe.emptied.opens = pipe.opens ∧ pipe.emptied.present = pipe.present ∧
    pipe.emptied.capacity = pipe.capacity ∧ pipe.emptied.content ≤ pipe.content := by
  unfold Pipe.emptied
  split
  · exact ⟨rfl, rfl, rfl, Nat.zero_le _⟩
  · exact ⟨rfl, rfl, rfl, Nat.le_refl _⟩

theorem close_own (opposite : Opposite mode other) :
    (pipe.close mode).present mode = pipe.present mode - 1 := by
  cases opposite with
  | reads => exact congrFun emptied_eq.2.1 _
  | writes => exact congrFun emptied_eq.2.1 _

theorem close_opens (opposite : Opposite mode other) : (pipe.close mode).opens = pipe.opens := by
  cases opposite with
  | reads => exact emptied_eq.1
  | writes => exact emptied_eq.1

theorem close_other (opposite : Opposite mode other) :
    (pipe.close mode).present other = pipe.present other := by
  cases opposite with
  | reads => exact congrFun emptied_eq.2.1 _
  | writes => exact congrFun emptied_eq.2.1 _

end Ends

end NamedPipe
