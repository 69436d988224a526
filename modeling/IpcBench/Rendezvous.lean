import IpcBench.Calls
import IpcBench.NamedPipe
import Mathlib.Data.List.Nodup
import Mathlib.Logic.Function.Basic

/-!
Programs that open several named pipes, and how two of them that go through the same pipes
in the same order meet at each.
-/

namespace NamedPipe

open Transition Calls

/-! Programs that open one pipe after another and give every pipe they have opened a size. -/

inductive Place
  | arrive (index : Nat)
  | await (index : Nat)
  | resize (index : Nat)
  | settle
  | through
  | leave (opened : Nat)
  | gone (opened : Nat)
deriving DecidableEq, Repr

/-- An `open` is two calls here: the kernel counts the opener before it may have to wait. -/
inductive PipeCall (Path : Type)
  | arrive (path : Path) (mode : Mode)
  | await (path : Path) (mode : Mode)
  | resize (path : Path) (size : Nat)
  | settle
  | exit (held : List (Path × Mode))
deriving DecidableEq, Repr

structure Kernel (Path : Type) where
  pipes : Path → Pipe
  awaiting : Peer → Option Nat

section Opener

variable {Path : Type} (opens : List (Path × Mode)) (size : Nat)

def openFrom (index : Nat) : Place :=
  if index < opens.length then .arrive index else .settle

def opener : Program Place (PipeCall Path) where
  call
    | .arrive index => opens[index]?.map fun opening => .arrive opening.1 opening.2
    | .await index => opens[index]?.map fun opening => .await opening.1 opening.2
    | .resize index => opens[index]?.map fun opening => .resize opening.1 size
    | .settle => some .settle
    | .through => none
    | .leave opened => some (.exit (opens.take opened))
    | .gone _ => none
  next
    | .arrive index, .succeeds => .await index
    | .arrive index, .fails => .leave index
    | .await index, .succeeds => .resize index
    | .await index, .fails => .leave (index + 1)
    | .resize index, .succeeds => openFrom opens (index + 1)
    | .resize index, .fails => .leave (index + 1)
    | .settle, .succeeds => .through
    | .settle, .fails => .leave opens.length
    | .leave opened, _ => .gone opened
    | place, _ => place

def closeAll [DecidableEq Path] (held : List (Path × Mode)) (pipes : Path → Pipe) : Path → Pipe :=
  held.foldl (fun pipes opening =>
    Function.update pipes opening.1 ((pipes opening.1).close opening.2)) pipes

def perform [DecidableEq Path] (peer : Peer) :
    PipeCall Path → Outcome → Kernel Path → Option (Kernel Path)
  | .arrive path mode, .succeeds, kernel =>
      let pipe := (kernel.pipes path).arrive mode
      some ⟨Function.update kernel.pipes path pipe,
        Function.update kernel.awaiting peer (pipe.awaited mode)⟩
  | .await path mode, .succeeds, kernel =>
      match kernel.awaiting peer with
      | none => some kernel
      | some seen => if (kernel.pipes path).answered seen mode then some kernel else none
  | .await _ _, .fails, _ => none
  | .resize path size, .succeeds, kernel =>
      ((kernel.pipes path).resize size).map fun pipe =>
        { kernel with pipes := Function.update kernel.pipes path pipe }
  | .exit held, .succeeds, kernel => some { kernel with pipes := closeAll held kernel.pipes }
  | .exit _, .fails, _ => none
  | _, _, kernel => some kernel

end Opener

section Meeting

variable {Path : Type}

/-- Two programs meet at every pipe: they open the same pipes in the same order, one for
reading and one for writing. -/
structure Meeting (own other : List (Path × Mode)) : Prop where
  distinct : (own.map Prod.fst).Nodup
  meets : List.Forall₂ (fun mine yours => mine.1 = yours.1 ∧ Opposite mine.2 yours.2) own other

variable {own other : List (Path × Mode)} {first second : Nat} {path : Path} {mode mode' : Mode}

theorem Meeting.symm (meeting : Meeting own other) : Meeting other own := by
  have paths : ∀ {own other : List (Path × Mode)},
      List.Forall₂ (fun mine yours => mine.1 = yours.1 ∧ Opposite mine.2 yours.2) own other →
        own.map Prod.fst = other.map Prod.fst := by
    intro own other meets
    induction meets with
    | nil => rfl
    | cons first _ ih => simp [first.1, ih]
  refine ⟨?_, ?_⟩
  · rw [← paths meeting.meets]
    exact meeting.distinct
  · have flipped := meeting.meets.flip
    exact flipped.imp fun _ _ meet => ⟨meet.1.symm, meet.2.symm⟩

theorem Meeting.length (meeting : Meeting own other) : own.length = other.length :=
  meeting.meets.length_eq

theorem Meeting.index (meeting : Meeting own other) (one : own[first]? = some (path, mode))
    (two : own[second]? = some (path, mode')) : first = second := by
  have names : (own.map Prod.fst)[first]? = (own.map Prod.fst)[second]? := by simp [one, two]
  have inside : first < (own.map Prod.fst).length := by
    rw [List.length_map]
    exact (List.getElem?_eq_some_iff.mp one).1
  exact (List.getElem?_inj inside meeting.distinct).mp names

theorem Meeting.partner (meeting : Meeting own other) (mine : own[first]? = some (path, mode)) :
    ∃ mode', other[first]? = some (path, mode') ∧ Opposite mode mode' := by
  obtain ⟨inside, found⟩ := List.getElem?_eq_some_iff.mp mine
  have inside' : first < other.length := by
    rw [← meeting.length]
    exact inside
  have here := (List.forall₂_iff_get.mp meeting.meets).2 first inside inside'
  simp only [List.get_eq_getElem, found] at here
  exact ⟨other[first].2, by rw [List.getElem?_eq_getElem inside', here.1], here.2⟩

theorem Meeting.apart (meeting : Meeting own other) (mine : own[first]? = some (path, mode))
    (yours : other[second]? = some (path, mode')) : first = second ∧ Opposite mode mode' := by
  obtain ⟨partner, found, opposite⟩ := meeting.partner mine
  obtain rfl := meeting.symm.index found yours
  rw [found] at yours
  cases yours
  exact ⟨rfl, opposite⟩

end Meeting

namespace Place

def arrived (length : Nat) : Place → Nat
  | .arrive index => index
  | .await index => index + 1
  | .resize index => index + 1
  | .settle => length
  | .through => length
  | .leave opened => opened
  | .gone opened => opened

def held (length : Nat) : Place → Nat
  | .gone _ => 0
  | place => place.arrived length

def passed (length : Nat) : Place → Nat
  | .await index => index
  | place => place.arrived length

def sized (length : Nat) : Place → Nat
  | .arrive index => index
  | .await index => index
  | .resize index => index
  | .settle => length
  | .through => length
  | .leave _ => 0
  | .gone _ => 0

def isGone : Place → Bool
  | .gone _ => true
  | _ => false

theorem held_or_gone (length : Nat) (place : Place) :
    place.held length = place.arrived length ∨ place.isGone = true := by
  cases place with
  | gone opened => exact Or.inr rfl
  | _ => exact Or.inl rfl

theorem held_of_stays (length : Nat) {place : Place} (stays : place.isGone = false) :
    place.held length = place.arrived length :=
  (place.held_or_gone length).resolve_right (by simp [stays])

def Inside (length : Nat) : Place → Prop
  | .arrive index => index < length
  | .await index => index < length
  | .resize index => index < length
  | .leave opened => opened ≤ length
  | .gone opened => opened ≤ length
  | _ => True

end Place

def among (count index : Nat) : Nat :=
  if index < count then 1 else 0

theorem among_eq_one {count index : Nat} (inside : index < count) : among count index = 1 :=
  if_pos inside

theorem among_eq_zero {count index : Nat} (outside : ¬index < count) : among count index = 0 :=
  if_neg outside

theorem among_succ {count index : Nat} (other : index ≠ count) :
    among (count + 1) index = among count index := by
  by_cases inside : index < count
  · rw [among_eq_one inside, among_eq_one (by omega)]
  · rw [among_eq_zero inside, among_eq_zero (by omega)]

section Met

variable {Path : Type}

/-- One of the two programs as the other finds it: its ends are open once each as far as it
has come, it has passed no pipe where the other has not arrived, and it waits for an open
that is still to come, unless the other has gone. -/
structure Met (own other : List (Path × Mode)) (kernel : Kernel Path) (me : Peer)
    (place place' : Place) : Prop where
  inside : place.Inside own.length
  opens : ∀ index path mode, own[index]? = some (path, mode) →
    (kernel.pipes path).opens mode = among (place.arrived own.length) index
  present : ∀ index path mode, own[index]? = some (path, mode) →
    (kernel.pipes path).present mode = among (place.held own.length) index
  passed : place.passed own.length ≤ place'.arrived other.length
  here : ∀ index, place = .await index → kernel.awaiting me = none →
    index < place'.arrived other.length
  seen : ∀ index seen, place = .await index → kernel.awaiting me = some seen → 0 < seen →
    place'.isGone = true

variable {own other : List (Path × Mode)} {kernel next : Kernel Path} {me you : Peer}
  {place place' : Place} {size index : Nat} {outcome : Outcome} {path : Path} {mode : Mode}

theorem openFrom_arrived (inside : index < own.length) :
    (openFrom own (index + 1)).arrived own.length = index + 1 ∧
      (openFrom own (index + 1)).held own.length = index + 1 ∧
      (openFrom own (index + 1)).passed own.length = index + 1 ∧
      (openFrom own (index + 1)).Inside own.length := by
  unfold openFrom
  split
  · rename_i more
    exact ⟨rfl, rfl, rfl, more⟩
  · have last : own.length = index + 1 := by omega
    exact ⟨last, last, last, trivial⟩

theorem openFrom_zero (opens : List (Path × Mode)) :
    (openFrom opens 0).Inside opens.length ∧ (openFrom opens 0).arrived opens.length = 0 ∧
      (openFrom opens 0).held opens.length = 0 ∧ (openFrom opens 0).passed opens.length = 0 ∧
      (∀ index, openFrom opens 0 ≠ .await index) := by
  unfold openFrom
  split
  · rename_i some
    exact ⟨some, rfl, rfl, rfl, by simp⟩
  · have none : opens.length = 0 := by omega
    exact ⟨trivial, none, none, none, by simp⟩

/-- The other program only sees that this one has come further or has gone. -/
theorem Met.follow (yours : Met other own kernel you place' place) {later : Place}
    (pipes : ∀ (index : Nat) path mode, other[index]? = some (path, mode) →
      (next.pipes path).opens mode = (kernel.pipes path).opens mode ∧
      (next.pipes path).present mode = (kernel.pipes path).present mode)
    (same : next.awaiting you = kernel.awaiting you)
    (further : place.arrived own.length ≤ later.arrived own.length)
    (stays : place.isGone = true → later.isGone = true) :
    Met other own next you place' later where
  inside := yours.inside
  opens := fun index path mode found => by
    rw [(pipes index path mode found).1]
    exact yours.opens index path mode found
  present := fun index path mode found => by
    rw [(pipes index path mode found).2]
    exact yours.present index path mode found
  passed := Nat.le_trans yours.passed further
  here := fun index at_await none =>
    Nat.lt_of_lt_of_le (yours.here index at_await (same ▸ none)) further
  seen := fun index seen at_await some positive =>
    stays (yours.seen index seen at_await (same ▸ some) positive)

theorem Met.move (mine : Met own other kernel me place place') {later : Place}
    (inside : later.Inside own.length)
    (pipes : ∀ path mode, (next.pipes path).opens mode = (kernel.pipes path).opens mode ∧
      (next.pipes path).present mode = (kernel.pipes path).present mode)
    (arrived : later.arrived own.length = place.arrived own.length)
    (held : later.held own.length = place.held own.length)
    (passed : later.passed own.length ≤ place'.arrived other.length)
    (goes : ∀ index, later ≠ .await index) :
    Met own other next me later place' where
  inside := inside
  opens := fun index path mode found => by
    rw [(pipes path mode).1, arrived]
    exact mine.opens index path mode found
  present := fun index path mode found => by
    rw [(pipes path mode).2, held]
    exact mine.present index path mode found
  passed := passed
  here := fun index at_await => absurd at_await (goes index)
  seen := fun index _ at_await => absurd at_await (goes index)

end Met

section Steps

variable {Path : Type} {own other : List (Path × Mode)}
  {kernel next : Kernel Path} {me you : Peer} {place place' : Place} {size index opened : Nat}
  {path : Path} {mode : Mode} {outcome : Outcome}

theorem Met.move_on (mine : Met own other kernel me place place')
    (yours : Met other own kernel you place' place) {later : Place}
    (inside : later.Inside own.length)
    (pipes : ∀ path mode, (next.pipes path).opens mode = (kernel.pipes path).opens mode ∧
      (next.pipes path).present mode = (kernel.pipes path).present mode)
    (same : next.awaiting you = kernel.awaiting you)
    (arrived : later.arrived own.length = place.arrived own.length)
    (held : later.held own.length = place.held own.length)
    (passed : later.passed own.length ≤ place'.arrived other.length)
    (goes : ∀ index, later ≠ .await index) (stays : place.isGone = false) :
    Met own other next me later place' ∧ Met other own next you place' later :=
  ⟨mine.move inside pipes arrived held passed goes,
    yours.follow (fun _ _ _ _ => pipes _ _) same (Nat.le_of_eq arrived.symm) (by simp [stays])⟩

variable [DecidableEq Path]

theorem closeAll_absent {held : List (Path × Mode)} (pipes : Path → Pipe)
    (absent : path ∉ held.map Prod.fst) : closeAll held pipes path = pipes path := by
  induction held generalizing pipes with
  | nil => rfl
  | cons opening rest ih =>
      simp only [List.map_cons, List.mem_cons, not_or] at absent
      refine (ih _ absent.2).trans ?_
      exact Function.update_of_ne absent.1 _ _

theorem closeAll_held {held : List (Path × Mode)} (pipes : Path → Pipe)
    (distinct : (held.map Prod.fst).Nodup) (member : (path, mode) ∈ held) :
    closeAll held pipes path = (pipes path).close mode := by
  induction held generalizing pipes with
  | nil => cases member
  | cons opening rest ih =>
      rw [List.map_cons, List.nodup_cons] at distinct
      rcases List.mem_cons.mp member with rfl | later
      · refine (closeAll_absent _ distinct.1).trans ?_
        exact Function.update_self _ _ _
      · have different : path ≠ opening.1 := by
          rintro rfl
          exact distinct.1 (List.mem_map.mpr ⟨_, later, rfl⟩)
        refine (ih _ distinct.2 later).trans ?_
        exact congrArg (fun pipe => Pipe.close pipe mode) (Function.update_of_ne different _ _)

theorem count_arrive (meeting : Meeting own other) (found : own[index]? = some (path, mode))
    (count : Pipe → Mode → Nat) (pipes : Path → Pipe)
    (rises : count ((pipes path).arrive mode) mode = count (pipes path) mode + 1)
    (before : ∀ (second : Nat) path' mode', own[second]? = some (path', mode') →
      count (pipes path') mode' = among index second)
    (second : Nat) (path' : Path) (mode' : Mode) (at_second : own[second]? = some (path', mode')) :
    count (Function.update pipes path ((pipes path).arrive mode) path') mode' =
      among (index + 1) second := by
  by_cases same : second = index
  · subst second
    rw [found] at at_second
    cases at_second
    have old := before index path mode found
    rw [Function.update_self, rises, old, among_eq_zero (by omega), among_eq_one (by omega)]
  · have apart : path' ≠ path := by
      rintro rfl
      exact same (meeting.index at_second found)
    rw [Function.update_of_ne apart, before second path' mode' at_second, among_succ same]

theorem Met.arrive (meeting : Meeting own other) (different : me ≠ you)
    (mine : Met own other kernel me (.arrive index) place')
    (yours : Met other own kernel you place' (.arrive index))
    (found : own[index]? = some (path, mode))
    (performed : perform me (.arrive path mode) .succeeds kernel = some next) :
    Met own other next me (.await index) place' ∧ Met other own next you place' (.await index) := by
  obtain ⟨mode', partner, opposite⟩ := meeting.partner found
  simp only [perform, Option.some.injEq] at performed
  subst next
  constructor
  · refine ⟨mine.inside, ?_, ?_, mine.passed, ?_, ?_⟩
    · exact count_arrive meeting found Pipe.opens kernel.pipes (arrive_own opposite).1 mine.opens
    · exact count_arrive meeting found Pipe.present kernel.pipes (arrive_own opposite).2
        mine.present
    · intro second at_await none
      cases at_await
      simp only [Function.update_self, awaited_eq opposite, ite_eq_right_iff] at none
      have there := yours.present index path mode' partner
      rw [(arrive_other opposite).2] at none
      by_cases arrived : index < place'.held other.length
      · cases place' with
        | gone opened => exact absurd arrived (Nat.not_lt_zero _)
        | _ => exact arrived
      · rw [among_eq_zero arrived] at there
        exact absurd (none there) (by simp)
    · intro second seen at_await some positive
      cases at_await
      simp only [Function.update_self, awaited_eq opposite] at some
      have there := yours.present index path mode' partner
      have ever := yours.opens index path mode' partner
      rw [(arrive_other opposite).1, (arrive_other opposite).2] at some
      split at some
      · rename_i absent
        cases some
        rcases Place.held_or_gone other.length place' with stays | gone
        · rw [absent, stays] at there
          rw [← there] at ever
          omega
        · exact gone
      · cases some
  · refine yours.follow ?_ (Function.update_of_ne different.symm _ _) (Nat.le_succ _) (by simp [Place.isGone])
    intro second path' other' at_second
    by_cases same : path' = path
    · subst path'
      obtain ⟨rfl, apart⟩ := meeting.apart found at_second
      simp only [Function.update_self]
      exact arrive_other apart
    · simp only [Function.update_of_ne same, and_self]

theorem Met.answered (meeting : Meeting own other)
    (mine : Met own other kernel me (.await index) place')
    (yours : Met other own kernel you place' (.await index))
    (found : own[index]? = some (path, mode))
    (performed : perform me (.await path mode) .succeeds kernel = some next) :
    next = kernel ∧ index < place'.arrived other.length := by
  obtain ⟨mode', partner, opposite⟩ := meeting.partner found
  simp only [perform] at performed
  cases waited : kernel.awaiting me with
  | none =>
      simp only [waited, Option.some.injEq] at performed
      exact ⟨performed.symm, mine.here index rfl waited⟩
  | some seen =>
      simp only [waited, answered_eq opposite] at performed
      split at performed
      · rename_i later
        cases performed
        have ever := yours.opens index path mode' partner
        refine ⟨rfl, ?_⟩
        by_cases arrived : index < place'.arrived other.length
        · exact arrived
        · rw [among_eq_zero arrived] at ever
          simp [ever] at later
      · cases performed

theorem Met.leave (meeting : Meeting own other)
    (mine : Met own other kernel me (.leave opened) place')
    (yours : Met other own kernel you place' (.leave opened))
    (performed : perform me (.exit (own.take opened)) .succeeds kernel = some next) :
    Met own other next me (.gone opened) place' ∧ Met other own next you place' (.gone opened) := by
  simp only [perform, Option.some.injEq] at performed
  subst next
  have distinct : ((own.take opened).map Prod.fst).Nodup := by
    rw [List.map_take]
    exact (List.take_sublist _ _).nodup meeting.distinct
  have closed : ∀ {index : Nat} {path : Path} {mode : Mode}, own[index]? = some (path, mode) →
      closeAll (own.take opened) kernel.pipes path =
        if index < opened then (kernel.pipes path).close mode else kernel.pipes path := by
    intro index path mode found
    split
    · rename_i inside
      apply closeAll_held _ distinct
      rw [List.mem_iff_getElem?]
      exact ⟨index, by rw [List.getElem?_take_of_lt inside, found]⟩
    · rename_i outside
      apply closeAll_absent
      intro member
      obtain ⟨⟨path', mode'⟩, held, rfl⟩ := List.mem_map.mp member
      obtain ⟨second, there⟩ := List.mem_iff_getElem?.mp held
      rw [List.getElem?_take] at there
      split at there
      · rename_i early
        exact outside (meeting.index found there ▸ early)
      · cases there
  constructor
  · refine ⟨mine.inside, ?_, ?_, mine.passed, by simp, by simp⟩
    · intro index path mode found
      obtain ⟨_, _, opposite⟩ := meeting.partner found
      have old := mine.opens index path mode found
      change (closeAll _ _ path).opens mode = _
      rw [closed found]
      split
      · rw [close_opens opposite]
        exact old
      · exact old
    · intro index path mode found
      obtain ⟨_, _, opposite⟩ := meeting.partner found
      have old := mine.present index path mode found
      change (closeAll _ _ path).present mode = _
      change _ = among opened index at old
      rw [closed found, Place.held, among_eq_zero (Nat.not_lt_zero _)]
      split
      · rename_i held
        rw [close_own opposite, old, among_eq_one held]
      · rename_i absent
        rw [old, among_eq_zero absent]
  · refine yours.follow ?_ rfl (Nat.le_refl _) (by simp [Place.isGone])
    intro index path mode there
    obtain ⟨mode', found, opposite⟩ := meeting.symm.partner there
    change (closeAll _ _ path).opens mode = _ ∧ (closeAll _ _ path).present mode = _
    rw [closed found]
    split
    · exact ⟨congrFun (close_opens opposite.symm) _, close_other opposite.symm⟩
    · exact ⟨rfl, rfl⟩

theorem resize_ends {pipe later : Pipe} (resized : pipe.resize size = some later) :
    later.opens = pipe.opens ∧ later.present = pipe.present ∧ later.content = pipe.content ∧
      later.capacity = roundSize size := by
  simp only [Pipe.resize] at resized
  split at resized
  · cases resized
    exact ⟨rfl, rfl, rfl, rfl⟩
  · cases resized

theorem update_ends {pipe : Pipe} {pipes : Path → Pipe} (opens : pipe.opens = (pipes path).opens)
    (present : pipe.present = (pipes path).present) (path' : Path) (mode : Mode) :
    (Function.update pipes path pipe path').opens mode = (pipes path').opens mode ∧
      (Function.update pipes path pipe path').present mode = (pipes path').present mode := by
  by_cases same : path' = path
  · subst path'
    rw [Function.update_self, opens, present]
    exact ⟨rfl, rfl⟩
  · rw [Function.update_of_ne same]
    exact ⟨rfl, rfl⟩

theorem Met.step (meeting : Meeting own other) (different : me ≠ you)
    (mine : Met own other kernel me place place') (yours : Met other own kernel you place' place)
    {call : PipeCall Path} (at_call : (opener own size).call place = some call)
    (performed : perform me call outcome kernel = some next) :
    Met own other next me ((opener own size).next place outcome) place' ∧
      Met other own next you place' ((opener own size).next place outcome) := by
  have passed := mine.passed
  have inside := mine.inside
  cases place with
  | arrive index =>
      simp only [opener, Option.map_eq_some_iff] at at_call
      obtain ⟨⟨path, mode⟩, found, rfl⟩ := at_call
      cases outcome with
      | succeeds => exact mine.arrive meeting different yours found performed
      | fails =>
          cases performed
          exact mine.move_on yours (Nat.le_of_lt inside) (fun _ _ => ⟨rfl, rfl⟩) rfl rfl rfl
            passed (by simp [opener]) rfl
  | await index =>
      simp only [opener, Option.map_eq_some_iff] at at_call
      obtain ⟨⟨path, mode⟩, found, rfl⟩ := at_call
      cases outcome with
      | succeeds =>
          obtain ⟨rfl, arrived⟩ := mine.answered meeting yours found performed
          exact mine.move_on yours inside (fun _ _ => ⟨rfl, rfl⟩) rfl rfl rfl arrived
            (by simp [opener]) rfl
      | fails => cases performed
  | resize index =>
      simp only [opener, Option.map_eq_some_iff] at at_call
      obtain ⟨⟨path, mode⟩, found, rfl⟩ := at_call
      cases outcome with
      | succeeds =>
          simp only [perform, Option.map_eq_some_iff] at performed
          obtain ⟨pipe, resized, rfl⟩ := performed
          obtain ⟨opens, present, _⟩ := resize_ends resized
          obtain ⟨arrived, held, passes, within⟩ := openFrom_arrived inside
          refine mine.move_on yours within (update_ends opens present) rfl arrived held ?_ ?_ rfl
          · exact Nat.le_trans (Nat.le_of_eq passes) passed
          · intro second at_await
            simp only [opener, openFrom] at at_await
            split at at_await <;> cases at_await
      | fails =>
          cases performed
          exact mine.move_on yours inside (fun _ _ => ⟨rfl, rfl⟩) rfl rfl rfl passed
            (by simp [opener]) rfl
  | settle =>
      cases at_call
      cases outcome with
      | succeeds =>
          cases performed
          exact mine.move_on yours trivial (fun _ _ => ⟨rfl, rfl⟩) rfl rfl rfl passed
            (by simp [opener]) rfl
      | fails =>
          cases performed
          exact mine.move_on yours (Nat.le_refl _) (fun _ _ => ⟨rfl, rfl⟩) rfl rfl rfl passed
            (by simp [opener]) rfl
  | through => cases at_call
  | leave opened =>
      cases at_call
      cases outcome with
      | succeeds => exact mine.leave meeting yours performed
      | fails => cases performed
  | gone opened => cases at_call

end Steps

end NamedPipe
