/-!
Arrays that note which of their entries are read and written, and loops that count an index
up.
-/

namespace Accesses

inductive Access
  | read (index : Nat)
  | write (index : Nat)
deriving DecidableEq, Repr

def Access.index : Access → Nat
  | .read index => index
  | .write index => index

/-- An array with the accesses to it so far. A read from outside has an arbitrary result. -/
structure Tracked (Value : Type) where
  values : List Value
  accesses : List Access
deriving DecidableEq, Repr

namespace Tracked

variable {Value : Type}

def fresh (values : List Value) : Tracked Value where
  values := values
  accesses := []

def read [Inhabited Value] (index : Nat) (array : Tracked Value) : Value × Tracked Value :=
  (array.values.getD index default, { array with accesses := array.accesses ++ [.read index] })

def write (index : Nat) (value : Value) (array : Tracked Value) : Tracked Value where
  values := array.values.set index value
  accesses := array.accesses ++ [.write index]

end Tracked

def forLoop {State : Type} (body : Nat → State → State) (index finish : Nat) (state : State) :
    State :=
  (List.range' index (finish - index)).foldl (fun state index => body index state) state

section Loops

variable {State View : Type} {body : Nat → State → State} {index finish : Nat} {state : State}

theorem forLoop_of_lt (more : index < finish) :
    forLoop body index finish state = forLoop body (index + 1) finish (body index state) := by
  have one : finish - index = (finish - (index + 1)) + 1 := by omega
  unfold forLoop
  rw [one, List.range'_succ, List.foldl_cons]

theorem forLoop_of_le (done : finish ≤ index) : forLoop body index finish state = state := by
  unfold forLoop
  rw [Nat.sub_eq_zero_of_le done, List.range'_zero, List.foldl_nil]

theorem forLoop_invariant (Holds : Nat → State → Prop) {start : Nat} (ordered : start ≤ finish)
    (base : Holds start state)
    (preserved : ∀ index state, start ≤ index → index < finish → Holds index state →
      Holds (index + 1) (body index state)) :
    Holds finish (forLoop body start finish state) := by
  generalize left : finish - start = remaining
  induction remaining generalizing start state with
  | zero =>
      have here : start = finish := by omega
      rw [forLoop_of_le (by omega), ← here]
      exact base
  | succ remaining ih =>
      rw [forLoop_of_lt (by omega)]
      apply ih
      · omega
      · exact preserved start state (Nat.le_refl _) (by omega) base
      · intro index state lower upper
        exact preserved index state (by omega) upper
      · omega

theorem forLoop_view (view : State → View) {body' : Nat → View → View}
    (same : ∀ index state, view (body index state) = body' index (view state)) :
    view (forLoop body index finish state) =
      (List.range' index (finish - index)).foldl (fun seen index => body' index seen)
        (view state) := by
  generalize left : finish - index = remaining
  induction remaining generalizing index state with
  | zero =>
      rw [forLoop_of_le (by omega)]
      rfl
  | succ remaining ih =>
      rw [forLoop_of_lt (by omega), ih (by omega), same, List.range'_succ]
      rfl

end Loops

def Own {Value : Type} (body : Nat → Tracked Value → Tracked Value) : Prop :=
  ∀ index array, ∃ accesses, (body index array).accesses = array.accesses ++ accesses ∧
    (∀ access ∈ accesses, access.index = index) ∧ .write index ∈ accesses

structure Covers (start finish : Nat) (accesses : List Access) : Prop where
  inside : ∀ access ∈ accesses, start ≤ access.index ∧ access.index < finish
  written : ∀ index, start ≤ index → index < finish → .write index ∈ accesses

section Covers

variable {Value : Type} {body : Nat → Tracked Value → Tracked Value} {start finish : Nat}
  {accesses : List Access}

theorem Covers.nil (done : finish ≤ start) : Covers start finish [] where
  inside := by simp
  written index lower upper := by omega

theorem Covers.step {own : List Access} (covers : Covers start finish accesses)
    (ordered : start ≤ finish) (here : ∀ access ∈ own, access.index = finish)
    (last : .write finish ∈ own) : Covers start (finish + 1) (accesses ++ own) := by
  constructor
  · intro access member
    rcases List.mem_append.mp member with old | new
    · have inside := covers.inside access old
      omega
    · rw [here access new]
      omega
  · intro index lower upper
    rw [List.mem_append]
    by_cases same : index = finish
    · subst same
      exact Or.inr last
    · exact Or.inl (covers.written index lower (by omega))

theorem Covers.write_iff (covers : Covers start finish accesses) (index : Nat) :
    .write index ∈ accesses ↔ start ≤ index ∧ index < finish := by
  constructor
  · intro member
    exact covers.inside _ member
  · rintro ⟨lower, upper⟩
    exact covers.written index lower upper

theorem Own.covers (own : Own body) (start finish : Nat) (values : List Value) :
    Covers start finish (forLoop body start finish (.fresh values)).accesses := by
  by_cases ordered : start ≤ finish
  · apply forLoop_invariant
      (fun index (array : Tracked Value) => Covers start index array.accesses) ordered
    · exact .nil (Nat.le_refl _)
    · intro index array lower _ covers
      obtain ⟨accesses, appended, here, last⟩ := own index array
      rw [appended]
      exact covers.step lower here last
  · rw [forLoop_of_le (by omega)]
    exact .nil (by omega)

end Covers

end Accesses
