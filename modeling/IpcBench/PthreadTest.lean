import IpcBench.ForkJoin
import IpcBench.Transition
import Mathlib.Algebra.Ring.Int.Defs
import Mathlib.Algebra.BigOperators.Group.List.Basic

/-!
The recursive addition of `pthread-test.c`: threads that split a range of the array between
them and add its elements to one sum under a mutex.
-/

namespace IpcBench

open Transition ForkJoin

structure Task where
  first : Nat
  last : Nat
deriving DecidableEq, Repr

def Task.leftTask (task : Task) : Task where
  first := task.first
  last := task.first + (task.last - task.first) / 2

def Task.rightTask (task : Task) : Task where
  first := task.leftTask.last
  last := task.last

/-- `sum += array[task->first]` is a read and a write. -/
inductive AdditionPc
  | enter
  | test
  | lock
  | read
  | write (value : Int)
  | unlock
deriving DecidableEq, Repr

structure Addition where
  task : Task
  pc : AdditionPc
deriving DecidableEq, Repr

structure Summing where
  sum : Int
  mutex : Bool
deriving DecidableEq, Repr

def recursiveAddition (array : List Int) (addition : Addition) (globals : Summing) :
    Option (Threads Addition × Summing) :=
  match addition.pc with
  | .enter =>
      if addition.task.last - addition.task.first ≤ 2 then
        some (.leaf { addition with pc := .test }, globals)
      else
        some (.both (.leaf ⟨addition.task.leftTask, .enter⟩)
          (.leaf ⟨addition.task.rightTask, .enter⟩), globals)
  | .test =>
      if addition.task.first < addition.task.last then
        some (.leaf { addition with pc := .lock }, globals)
      else some (.returned, globals)
  | .lock =>
      if globals.mutex then none
      else some (.leaf { addition with pc := .read }, { globals with mutex := true })
  | .read =>
      some (.leaf { addition with pc := .write (globals.sum + array.getD addition.task.first 0) },
        globals)
  | .write value => some (.leaf { addition with pc := .unlock }, { globals with sum := value })
  | .unlock =>
      some (.leaf ⟨{ addition.task with first := addition.task.first + 1 }, .test⟩,
        { globals with mutex := false })

def Addition.creates (addition : Addition) : Bool :=
  addition.pc = .enter ∧ 2 < addition.task.last - addition.task.first

structure Additions where
  tree : Threads Addition
  globals : Summing
  exited : Bool
deriving DecidableEq, Repr

inductive AdditionAction
  | turn (position : Position)
  | createFails (position : Position)
deriving DecidableEq, Repr

/-- A thread that cannot be created ends the process. -/
def Additions.step (array : List Int) (additions : Additions) : AdditionAction → Option Additions
  | .turn turn =>
      if additions.exited then none
      else
        (additions.tree.step (recursiveAddition array) turn additions.globals).map fun result =>
          { additions with tree := result.1, globals := result.2 }
  | .createFails turn =>
      if additions.exited then none
      else if (additions.tree.at? turn).any Addition.creates then
        some { additions with exited := true }
      else none

def additionMachine (array : List Int) : Machine Additions AdditionAction where
  step := Additions.step array

def Additions.initial (array : List Int) : Additions where
  tree := .leaf ⟨⟨0, array.length⟩, .enter⟩
  globals := ⟨0, false⟩
  exited := false

/-! What the calls have to do. -/

def slice (array : List Int) (first last : Nat) : List Int :=
  (array.drop first).take (last - first)

def Addition.rest (array : List Int) (addition : Addition) : List Int :=
  match addition.pc with
  | .unlock => slice array (addition.task.first + 1) addition.task.last
  | _ => slice array addition.task.first addition.task.last

def Addition.owed (array : List Int) (addition : Addition) : Int :=
  (addition.rest array).sum

/-- A C int can have the value. -/
def IsInt (value : Int) : Prop :=
  -2147483648 ≤ value ∧ value < 2147483648

def Addition.ints (addition : Addition) : List Int :=
  match addition.pc with
  | .write value => [addition.task.first, addition.task.last, value]
  | _ => [addition.task.first, addition.task.last]

/-- Elements of the list add up to `rise` at most and to `-fall` at least. -/
def rise (elements : List Int) : Nat :=
  (elements.map Int.toNat).sum

def fall (elements : List Int) : Nat :=
  (elements.map fun element => (-element).toNat).sum

theorem sum_eq (elements : List Int) : elements.sum = rise elements - fall elements := by
  induction elements with
  | nil => rfl
  | cons element rest ih =>
      simp only [rise, fall, List.sum_cons, List.map_cons] at ih ⊢
      omega

def Addition.held (addition : Addition) : Nat :=
  match addition.pc with
  | .read => 1
  | .write _ => 1
  | .unlock => 1
  | _ => 0

def callWork (elements : Nat) : Nat :=
  if elements = 0 then 2 else 9 * elements - 2

def Addition.work (addition : Addition) : Nat :=
  let elements := addition.task.last - addition.task.first
  match addition.pc with
  | .enter => callWork elements
  | .test => 5 * elements + 1
  | .lock => 5 * elements
  | .read => 5 * elements - 1
  | .write _ => 5 * elements - 2
  | .unlock => 5 * elements - 3

def Summing.capacity (globals : Summing) : Nat :=
  if globals.mutex then 1 else 0

structure Addition.Good (array : List Int) (globals : Summing) (addition : Addition) : Prop where
  ordered : addition.task.first ≤ addition.task.last
  within : addition.task.last ≤ array.length
  more : addition.pc ≠ .enter → addition.pc ≠ .test → addition.task.first < addition.task.last
  fresh : ∀ value, addition.pc = .write value →
    value = globals.sum + array.getD addition.task.first 0

section Slices

variable {array : List Int} {first middle last : Nat}

theorem slice_none (nothing : last ≤ first) : slice array first last = [] := by
  unfold slice
  rw [Nat.sub_eq_zero_of_le nothing, List.take_zero]

theorem slice_all (array : List Int) : slice array 0 array.length = array := by
  unfold slice
  rw [List.drop_zero, Nat.sub_zero, List.take_length]

theorem slice_append (lower : first ≤ middle) (upper : middle ≤ last) :
    slice array first middle ++ slice array middle last = slice array first last := by
  have parts : last - first = (middle - first) + (last - middle) := by omega
  have reached : first + (middle - first) = middle := by omega
  unfold slice
  rw [parts, List.take_add, List.drop_drop, reached]

theorem slice_cons (more : first < last) (inside : first < array.length) :
    slice array first last = array.getD first 0 :: slice array (first + 1) last := by
  have one : last - first = (last - (first + 1)) + 1 := by omega
  unfold slice
  rw [List.drop_eq_getElem_cons inside, one, List.take_succ_cons, List.getD,
    List.getElem?_eq_getElem inside, Option.getD_some]

end Slices

theorem Task.first_le (task : Task) : task.first ≤ task.leftTask.last :=
  Nat.le_add_right _ _

theorem Task.middle_le (task : Task) (ordered : task.first ≤ task.last) :
    task.leftTask.last ≤ task.last := by
  simp only [Task.leftTask]
  omega

theorem Task.slices (array : List Int) (task : Task) (ordered : task.first ≤ task.last) :
    slice array task.leftTask.first task.leftTask.last ++
        slice array task.rightTask.first task.rightTask.last =
      slice array task.first task.last :=
  slice_append task.first_le (task.middle_le ordered)

section Calls

variable {array : List Int} {globals after : Summing} {addition : Addition} {tree : Threads Addition}

/-- The mutex is held by as many calls as it can be, and keeps the others from the sum. -/
theorem recursiveAddition_accounted {others : Nat}
    (counted : addition.held + others = globals.capacity) (good : addition.Good array globals)
    (acted : recursiveAddition array addition globals = some (tree, after)) :
    tree.total Addition.held + others = after.capacity ∧ tree.All (Addition.Good array after) ∧
      ∀ other : Addition, other.held ≤ others → other.Good array globals →
        other.Good array after := by
  obtain ⟨task, pc⟩ := addition
  have ordered : task.first ≤ task.last := good.ordered
  have within : task.last ≤ array.length := good.within
  have more := good.more
  cases pc with
  | enter =>
      simp only [recursiveAddition] at acted
      split at acted
      · cases acted
        exact ⟨counted, ⟨ordered, within, by simp, by simp⟩, fun other _ good => good⟩
      · cases acted
        have middle := task.middle_le ordered
        exact ⟨counted, ⟨⟨task.first_le, Nat.le_trans middle within, by simp, by simp⟩,
          ⟨middle, within, by simp, by simp⟩⟩, fun other _ good => good⟩
  | test =>
      simp only [recursiveAddition] at acted
      split at acted
      · rename_i less
        cases acted
        exact ⟨counted, ⟨ordered, within, fun _ _ => less, by simp⟩, fun other _ good => good⟩
      · cases acted
        exact ⟨counted, trivial, fun other _ good => good⟩
  | lock =>
      have less := more (by simp) (by simp)
      simp only [recursiveAddition] at acted
      split at acted
      · cases acted
      · rename_i unlocked
        cases acted
        simp only [Addition.held, Summing.capacity, unlocked] at counted
        refine ⟨?_, ⟨ordered, within, fun _ _ => less, by simp⟩,
          fun other _ good => ⟨good.ordered, good.within, good.more, good.fresh⟩⟩
        simp only [Threads.total, Addition.held, Summing.capacity, if_true]
        simpa using counted
  | read =>
      have less := more (by simp) (by simp)
      cases acted
      refine ⟨counted, ⟨ordered, within, fun _ _ => less, ?_⟩, fun other _ good => good⟩
      intro value same
      cases same
      rfl
  | write value =>
      have less := more (by simp) (by simp)
      cases acted
      refine ⟨counted, ⟨ordered, within, fun _ _ => less, by simp⟩, ?_⟩
      -- Nobody else is between the lock and the unlock.
      intro other most good
      have alone : others = 0 := by
        simp only [Addition.held, Summing.capacity] at counted
        split at counted <;> omega
      refine ⟨good.ordered, good.within, good.more, fun stored writes => ?_⟩
      simp [Addition.held, writes, alone] at most
  | unlock =>
      have less := more (by simp) (by simp)
      cases acted
      have mine : others = 0 := by
        simp only [Addition.held, Summing.capacity] at counted
        split at counted <;> omega
      refine ⟨by simp [Threads.total, Addition.held, Summing.capacity, mine],
        ⟨less, within, by simp, by simp⟩,
        fun other _ good => ⟨good.ordered, good.within, good.more, good.fresh⟩⟩

theorem recursiveAddition_conserved (good : addition.Good array globals)
    (acted : recursiveAddition array addition globals = some (tree, after)) :
    after.sum + tree.total (Addition.owed array) = globals.sum + addition.owed array := by
  obtain ⟨task, pc⟩ := addition
  have within := good.within
  cases pc with
  | enter =>
      simp only [recursiveAddition] at acted
      split at acted
      · cases acted
        rfl
      · cases acted
        simp only [Threads.total, Addition.owed, Addition.rest]
        rw [← List.sum_append, task.slices array good.ordered]
  | test =>
      simp only [recursiveAddition] at acted
      split at acted
      · cases acted
        rfl
      · rename_i none
        cases acted
        simp only [Threads.total, Addition.owed, Addition.rest]
        rw [slice_none (by omega), List.sum_nil]
  | lock =>
      simp only [recursiveAddition] at acted
      split at acted <;> cases acted
      rfl
  | read =>
      cases acted
      rfl
  | write value =>
      have less := good.more (by simp) (by simp)
      have fresh := good.fresh value rfl
      cases acted
      simp only [Threads.total, Addition.owed, Addition.rest]
      rw [fresh, slice_cons less (by omega), List.sum_cons, Int.add_assoc]
  | unlock =>
      cases acted
      rfl

theorem Addition.Good.int (good : addition.Good array globals)
    (indexed : array.length < 2147483648) {value : Int} (member : value ∈ addition.ints) :
    IsInt value ∨ ∃ element, value = globals.sum + element ∧
      element.toNat ≤ rise (addition.rest array) ∧
      (-element).toNat ≤ fall (addition.rest array) := by
  obtain ⟨task, pc⟩ := addition
  have ordered : task.first ≤ task.last := good.ordered
  have within : task.last ≤ array.length := good.within
  have first : IsInt task.first := by
    constructor <;> omega
  have last : IsInt task.last := by
    constructor <;> omega
  cases pc with
  | write stored =>
      have less : task.first < task.last := good.more (by simp) (by simp)
      have fresh := good.fresh stored rfl
      have adds : slice array task.first task.last =
          array.getD task.first 0 :: slice array (task.first + 1) task.last :=
        slice_cons less (by omega)
      simp only [Addition.ints, List.mem_cons, List.not_mem_nil, or_false] at member
      rcases member with rfl | rfl | rfl
      · exact Or.inl first
      · exact Or.inl last
      · refine Or.inr ⟨array.getD task.first 0, fresh, ?_, ?_⟩
        · simp only [rise, Addition.rest, adds, List.map_cons, List.sum_cons, Nat.le_add_right]
        · simp only [fall, Addition.rest, adds, List.map_cons, List.sum_cons, Nat.le_add_right]
  | _ =>
      simp only [Addition.ints, List.mem_cons, List.not_mem_nil, or_false] at member
      rcases member with rfl | rfl
      · exact Or.inl first
      · exact Or.inl last

theorem recursiveAddition_rest (part : Int → Nat) (good : addition.Good array globals)
    (acted : recursiveAddition array addition globals = some (tree, after)) :
    tree.total (fun addition => ((addition.rest array).map part).sum) ≤
      ((addition.rest array).map part).sum := by
  obtain ⟨task, pc⟩ := addition
  have within := good.within
  cases pc with
  | enter =>
      simp only [recursiveAddition] at acted
      split at acted
      · cases acted
        exact Nat.le_refl _
      · cases acted
        simp only [Threads.total, Addition.rest]
        rw [← List.sum_append, ← List.map_append, task.slices array good.ordered]
  | test =>
      simp only [recursiveAddition] at acted
      split at acted
      · cases acted
        exact Nat.le_refl _
      · cases acted
        exact Nat.zero_le _
  | lock =>
      simp only [recursiveAddition] at acted
      split at acted <;> cases acted
      exact Nat.le_refl _
  | read =>
      cases acted
      exact Nat.le_refl _
  | write value =>
      have less := good.more (by simp) (by simp)
      cases acted
      simp only [Threads.total, Addition.rest]
      rw [slice_cons less (by omega), List.map_cons, List.sum_cons]
      exact Nat.le_add_left _ _
  | unlock =>
      cases acted
      exact Nat.le_refl _

theorem callWork_add {left right : Nat} (some : 0 < left) (more : 0 < right) :
    callWork left + callWork right + 1 < callWork (left + right) := by
  unfold callWork
  rw [if_neg (by omega), if_neg (by omega), if_neg (by omega)]
  omega

theorem callWork_few (elements : Nat) : 5 * elements + 1 < callWork elements := by
  unfold callWork
  split <;> omega

theorem recursiveAddition_work (good : addition.Good array globals)
    (acted : recursiveAddition array addition globals = some (tree, after)) :
    tree.work Addition.work < addition.work := by
  obtain ⟨task, pc⟩ := addition
  cases pc with
  | enter =>
      simp only [recursiveAddition] at acted
      split at acted
      · cases acted
        exact callWork_few _
      · rename_i many
        cases acted
        simp only [Threads.work, Addition.work, Task.leftTask, Task.rightTask]
        have halves : task.last - task.first =
            (task.first + (task.last - task.first) / 2 - task.first) +
              (task.last - (task.first + (task.last - task.first) / 2)) := by omega
        have lower := @callWork_add (task.first + (task.last - task.first) / 2 - task.first)
          (task.last - (task.first + (task.last - task.first) / 2)) (by omega) (by omega)
        rwa [← halves] at lower
  | test =>
      simp only [recursiveAddition] at acted
      split at acted <;> cases acted <;> simp only [Threads.work, Addition.work] <;> omega
  | lock =>
      have less := good.more (by simp) (by simp)
      simp only [recursiveAddition] at acted
      split at acted <;> cases acted
      simp only [Threads.work, Addition.work] at less ⊢
      omega
  | read =>
      have less := good.more (by simp) (by simp)
      cases acted
      simp only [Threads.work, Addition.work] at less ⊢
      omega
  | write value =>
      have less := good.more (by simp) (by simp)
      cases acted
      simp only [Threads.work, Addition.work] at less ⊢
      omega
  | unlock =>
      have less := good.more (by simp) (by simp)
      cases acted
      simp only [Threads.work, Addition.work] at less ⊢
      omega

theorem recursiveAddition_goes (array : List Int) (addition : Addition) (globals : Summing)
    (free : globals.mutex = false ∨ addition.held ≠ 0) :
    ∃ result, recursiveAddition array addition globals = some result := by
  obtain ⟨task, pc⟩ := addition
  cases pc with
  | enter =>
      simp only [recursiveAddition]
      split <;> exact ⟨_, rfl⟩
  | test =>
      simp only [recursiveAddition]
      split <;> exact ⟨_, rfl⟩
  | lock =>
      have unlocked := free.resolve_right (by simp [Addition.held])
      simp [recursiveAddition, unlocked]
  | _ => exact ⟨_, rfl⟩

end Calls

structure Additions.Kept (array : List Int) (additions : Additions) : Prop where
  counted : additions.tree.total Addition.held = additions.globals.capacity
  good : additions.tree.All (Addition.Good array additions.globals)
  whole : additions.globals.sum + additions.tree.total (Addition.owed array) = array.sum
  rise : additions.tree.total (fun addition => rise (addition.rest array)) ≤ rise array
  fall : additions.tree.total (fun addition => fall (addition.rest array)) ≤ fall array

def Additions.left (additions : Additions) : Nat :=
  additions.tree.work Addition.work + if additions.exited then 0 else 1

namespace Additions

variable {array : List Int} {additions next : Additions} {action : AdditionAction}

theorem Kept.initial : Kept array (initial array) where
  counted := rfl
  good := ⟨Nat.zero_le _, Nat.le_refl _, by simp, by simp⟩
  whole := by
    simp only [Additions.initial, Threads.total, Addition.owed, Addition.rest, slice_all]
    exact Int.zero_add _
  rise := by
    simp only [Additions.initial, Threads.total, Addition.rest, slice_all, Nat.le_refl]
  fall := by
    simp only [Additions.initial, Threads.total, Addition.rest, slice_all, Nat.le_refl]

theorem step_inv (taken : (additionMachine array).step additions action = some next) :
    additions.exited = false ∧
      (next = { additions with exited := true } ∨
        (next.exited = false ∧ Steps (recursiveAddition array) additions.tree additions.globals
          next.tree next.globals)) := by
  cases action with
  | turn turn =>
      simp only [additionMachine, step] at taken
      split at taken
      · cases taken
      · rename_i running
        obtain ⟨⟨tree, globals⟩, moved, rfl⟩ := Option.map_eq_some_iff.mp taken
        have alive := Bool.eq_false_iff.mpr running
        exact ⟨alive, Or.inr ⟨alive, Threads.step_inv moved⟩⟩
  | createFails turn =>
      simp only [additionMachine, step] at taken
      split at taken
      · cases taken
      · rename_i running
        split at taken
        · cases taken
          exact ⟨Bool.eq_false_iff.mpr running, Or.inl rfl⟩
        · cases taken

theorem Kept.step (kept : Kept array additions)
    (taken : (additionMachine array).step additions action = some next) :
    Kept array next ∧ next.left < additions.left := by
  obtain ⟨running, rfl | ⟨alive, steps⟩⟩ := step_inv taken
  · refine ⟨⟨kept.counted, kept.good, kept.whole, kept.rise, kept.fall⟩, ?_⟩
    simp [left, running]
  · obtain ⟨counted, good, _⟩ := steps.accounted
      (fun _ _ _ _ _ => recursiveAddition_accounted) ((Nat.add_zero _).trans kept.counted)
      kept.good
    have whole := steps.conserved (fun _ _ _ _ => recursiveAddition_conserved) kept.good
    have rise := steps.total_le (fun _ _ _ _ => recursiveAddition_rest Int.toNat) kept.good
    have fall := steps.total_le
      (fun _ _ _ _ => recursiveAddition_rest fun element => (-element).toNat) kept.good
    have lower := steps.work_lt (fun _ _ _ _ => recursiveAddition_work) kept.good
    refine ⟨⟨counted, good, whole.trans kept.whole, Nat.le_trans rise kept.rise,
      Nat.le_trans fall kept.fall⟩, ?_⟩
    simp only [left, running, alive]
    omega

theorem Kept.run {trace : List (Additions × AdditionAction)}
    (run : Run (additionMachine array) (Additions.initial array) trace additions) :
    Kept array additions :=
  run.stateInvariant (Kept array) Kept.initial fun _ _ _ kept taken => (kept.step taken).1

theorem total_owed (array : List Int) (tree : Threads Addition) :
    tree.total (Addition.owed array) =
      tree.total (fun addition => IpcBench.rise (addition.rest array)) -
        tree.total (fun addition => IpcBench.fall (addition.rest array)) := by
  apply Threads.total_sub
  intro addition
  exact sum_eq (addition.rest array)

theorem Kept.between (kept : Kept array additions) :
    -(IpcBench.fall array : Int) ≤ additions.globals.sum ∧
      additions.globals.sum ≤ IpcBench.rise array := by
  have whole := kept.whole
  have rise := kept.rise
  have fall := kept.fall
  rw [total_owed, sum_eq array] at whole
  omega

theorem Kept.ints (kept : Kept array additions) (indexed : array.length < 2147483648)
    (above : IpcBench.rise array < 2147483648) (below : IpcBench.fall array ≤ 2147483648) :
    additions.tree.All fun addition => ∀ value ∈ addition.ints, IsInt value := by
  have whole := kept.whole
  have rise := kept.rise
  have fall := kept.fall
  rw [total_owed, sum_eq array] at whole
  have shares := kept.good.imp (fun addition => IpcBench.rise (addition.rest array))
    fun addition most good => And.intro good most
  refine shares.imp (fun addition => IpcBench.fall (addition.rest array)) ?_
  rintro addition least ⟨good, most⟩ value member
  rcases good.int indexed member with fits | ⟨element, rfl, rises, falls⟩
  · exact fits
  · unfold IsInt
    omega

theorem Kept.goes (kept : Kept array additions) :
    (additions.exited = true ∨ additions.tree = .returned) ∨
      ∃ action next, (additionMachine array).step additions action = some next := by
  by_cases exited : additions.exited = true
  · exact Or.inl (Or.inl exited)
  · by_cases returned : additions.tree = .returned
    · exact Or.inl (Or.inr returned)
    · refine Or.inr ?_
      have counted := kept.counted
      obtain ⟨turn, ⟨tree, globals⟩, moved⟩ := additions.tree.exists_step
        (fun addition => (Nat.eq_zero_or_pos addition.held).imp_right fun some =>
          recursiveAddition_goes array addition additions.globals
            (Or.inr (Nat.pos_iff_ne_zero.mp some)))
        (by
          cases locked : additions.globals.mutex with
          | false => exact Or.inl fun addition => recursiveAddition_goes array addition _ (Or.inl locked)
          | true =>
              refine Or.inr ?_
              rw [counted, Summing.capacity, if_pos locked]
              exact Nat.zero_lt_one)
        returned
      refine ⟨.turn turn, { additions with tree := tree, globals := globals }, ?_⟩
      simp [additionMachine, Additions.step, exited, moved]

end Additions

/-- Where no elements of the array add up to more than an int can hold: in every order of the
threads' steps at most one of them is between lock and unlock, they read nothing outside of the
array, all sums are ints, and the sum and what is not yet added make up the whole; all runs
come to an end, and unless a thread cannot be created the sum is then that of the array. -/
theorem recursive_add_sums (array : List Int) (indexed : array.length < 2147483648)
    (above : rise array < 2147483648) (below : fall array ≤ 2147483648)
    {trace : List (Additions × AdditionAction)} {additions : Additions}
    (run : Run (additionMachine array) (Additions.initial array) trace additions) :
    additions.tree.total Addition.held ≤ 1 ∧
    additions.tree.All (fun addition =>
      addition.pc = .read → addition.task.first < array.length) ∧
    IsInt additions.globals.sum ∧
    additions.tree.All (fun addition => addition.task.first ≤ addition.task.last ∧
      ∀ value ∈ addition.ints, IsInt value) ∧
    additions.globals.sum + additions.tree.total (Addition.owed array) = array.sum ∧
    (additions.tree = .returned →
      additions.globals.sum = array.sum ∧ additions.globals.mutex = false) ∧
    (additionMachine array).Ends (Additions.initial array)
      (fun additions => additions.exited = true ∨ additions.tree = .returned) := by
  have kept := Additions.Kept.run run
  refine ⟨?_, ?_, ?_, ?_, kept.whole, ?_, ?_⟩
  · rw [kept.counted, Summing.capacity]
    split <;> omega
  · refine kept.good.imp (fun _ => 0) fun addition _ good reads => ?_
    have more := good.more (by simp [reads]) (by simp [reads])
    exact Nat.lt_of_lt_of_le more good.within
  · obtain ⟨lower, upper⟩ := kept.between
    unfold IsInt
    omega
  · exact kept.good.and (kept.ints indexed above below) fun good ints => ⟨good.ordered, ints⟩
  · intro returned
    have whole := kept.whole
    have counted := kept.counted
    rw [returned] at whole counted
    refine ⟨(Int.add_zero _).symm.trans whole, ?_⟩
    cases locked : additions.globals.mutex with
    | false => rfl
    | true => simp [Threads.total, Summing.capacity, locked] at counted
  · apply ends_of_measure (Additions.Kept array) Additions.left Additions.Kept.initial
    · intro additions action next kept taken
      exact kept.step taken
    · exact fun additions kept => kept.goes

/-- Three elements, which two threads add. -/
theorem recursive_add_sums_three : ∃ trace additions,
    Run (additionMachine [1, 2, 3]) (Additions.initial [1, 2, 3]) trace additions ∧
      additions.tree = .returned ∧ additions.globals.sum = 6 := by
  obtain ⟨trace, additions, run, returned⟩ := exists_run_of_execute
    (additionMachine [1, 2, 3]) (Additions.initial [1, 2, 3])
    [.turn .here, .turn (.right .here), .turn (.left .here), .turn (.left .here),
      .turn (.right .here), .turn (.right .here), .turn (.right .here), .turn (.right .here),
      .turn (.right .here), .turn (.left .here), .turn (.right .here), .turn (.left .here),
      .turn (.left .here), .turn (.left .here), .turn (.right .here), .turn (.right .here),
      .turn (.right .here), .turn (.right .here), .turn (.left .here), .turn (.right .here),
      .turn .here]
    (fun result => result.2.tree == .returned)
    (by decide)
  rw [beq_iff_eq] at returned
  exact ⟨trace, additions, run, returned, 
    (recursive_add_sums _ (by decide) (by decide) (by decide) run).2.2.2.2.2.1 returned |>.1⟩

end IpcBench
