import IpcBench.Rendezvous

/-!
Two programs that open the same pipes, side by side: what is known of every state they can
reach, and where they end.
-/

namespace NamedPipe

open Transition Calls

section Openers

variable {Path : Type} [DecidableEq Path] (clientOpens serverOpens : List (Path × Mode))
  (clientSize serverSize capacity : Nat)

def openers : System (Kernel Path) (PipeCall Path) Place Place where
  client := opener clientOpens clientSize
  server := opener serverOpens serverSize
  perform := perform

def openersStart : Duo (Kernel Path) Place Place where
  shared := ⟨fun _ => Pipe.fresh capacity, fun _ => none⟩
  client := openFrom clientOpens 0
  server := openFrom serverOpens 0

variable {clientOpens serverOpens : List (Path × Mode)} {clientSize serverSize capacity : Nat}
  {trace : List (Duo (Kernel Path) Place Place × (Peer × Outcome))}
  {duo next : Duo (Kernel Path) Place Place} {action : Peer × Outcome}

structure BothMet (clientOpens serverOpens : List (Path × Mode))
    (duo : Duo (Kernel Path) Place Place) : Prop where
  client : Met clientOpens serverOpens duo.shared .client duo.client duo.server
  server : Met serverOpens clientOpens duo.shared .server duo.server duo.client

omit [DecidableEq Path] in
theorem BothMet.initial :
    BothMet clientOpens serverOpens (openersStart clientOpens serverOpens capacity) := by
  have starts : ∀ (own other : List (Path × Mode)) (me : Peer) (place' : Place),
      Met own other ⟨fun _ => Pipe.fresh capacity, fun _ => none⟩ me (openFrom own 0) place' := by
    intro own other me place'
    obtain ⟨inside, arrived, held, passed, goes⟩ := openFrom_zero own
    refine ⟨inside, ?_, ?_, by omega, ?_, ?_⟩
    · intro index path mode _
      rw [arrived, among_eq_zero (Nat.not_lt_zero _)]
      cases mode <;> rfl
    · intro index path mode _
      rw [held, among_eq_zero (Nat.not_lt_zero _)]
      cases mode <;> rfl
    · intro index at_await
      exact absurd at_await (goes index)
    · intro index seen at_await
      exact absurd at_await (goes index)
  exact ⟨starts _ _ _ _, starts _ _ _ _⟩

theorem BothMet.step (meeting : Meeting clientOpens serverOpens)
    (met : BothMet clientOpens serverOpens duo)
    (taken : (openers clientOpens serverOpens clientSize serverSize).machine.step duo action =
      some next) :
    BothMet clientOpens serverOpens next := by
  obtain ⟨peer, outcome⟩ := action
  cases peer with
  | client =>
      obtain ⟨call, kernel, at_call, performed, rfl⟩ := System.step_client.mp taken
      have both := met.client.step meeting (by simp) met.server at_call performed
      exact ⟨both.1, both.2⟩
  | server =>
      obtain ⟨call, kernel, at_call, performed, rfl⟩ := System.step_server.mp taken
      have both := met.server.step meeting.symm (by simp) met.client at_call performed
      exact ⟨both.2, both.1⟩

theorem BothMet.run (meeting : Meeting clientOpens serverOpens)
    (run : Run (openers clientOpens serverOpens clientSize serverSize).machine
      (openersStart clientOpens serverOpens capacity) trace duo) :
    BothMet clientOpens serverOpens duo :=
  run.stateInvariant (BothMet clientOpens serverOpens) BothMet.initial
    fun _ _ _ met taken => met.step meeting taken

theorem arrive_kept (pipe : Pipe) (mode : Mode) :
    (pipe.arrive mode).content = pipe.content ∧ (pipe.arrive mode).capacity = pipe.capacity := by
  cases mode <;> exact ⟨rfl, rfl⟩

theorem close_kept (pipe : Pipe) (mode : Mode) :
    (pipe.close mode).content ≤ pipe.content ∧ (pipe.close mode).capacity = pipe.capacity := by
  cases mode <;> exact ⟨emptied_eq.2.2.2, emptied_eq.2.2.1⟩

theorem closeAll_kept (held : List (Path × Mode)) (pipes : Path → Pipe) (path : Path) :
    (closeAll held pipes path).content ≤ (pipes path).content ∧
      (closeAll held pipes path).capacity = (pipes path).capacity := by
  induction held generalizing pipes with
  | nil => exact ⟨Nat.le_refl _, rfl⟩
  | cons opening rest ih =>
      obtain ⟨content, capacity⟩ :=
        ih (Function.update pipes opening.1 ((pipes opening.1).close opening.2))
      by_cases same : path = opening.1
      · subst path
        rw [Function.update_self] at content capacity
        have closed := close_kept (pipes opening.1) opening.2
        exact ⟨Nat.le_trans content closed.1, capacity.trans closed.2⟩
      · rw [Function.update_of_ne same] at content capacity
        exact ⟨content, capacity⟩

theorem perform_kept {kernel later : Kernel Path} {peer : Peer} {call : PipeCall Path}
    {outcome : Outcome} (performed : perform peer call outcome kernel = some later) (path : Path) :
    (later.pipes path).content ≤ (kernel.pipes path).content ∧
      ((later.pipes path).capacity = (kernel.pipes path).capacity ∨
        ∃ size, call = .resize path size ∧ (later.pipes path).capacity = roundSize size) := by
  have same : later = kernel → (later.pipes path).content ≤ (kernel.pipes path).content ∧
      ((later.pipes path).capacity = (kernel.pipes path).capacity ∨
        ∃ size, call = .resize path size ∧ (later.pipes path).capacity = roundSize size) := by
    rintro rfl
    exact ⟨Nat.le_refl _, Or.inl rfl⟩
  cases call with
  | arrive opened mode =>
      cases outcome with
      | succeeds =>
          simp only [perform, Option.some.injEq] at performed
          subst later
          by_cases here : path = opened
          · subst path
            obtain ⟨content, capacity⟩ := arrive_kept (kernel.pipes opened) mode
            simp only [Function.update_self]
            exact ⟨Nat.le_of_eq content, Or.inl capacity⟩
          · simp only [Function.update_of_ne here]
            exact ⟨Nat.le_refl _, Or.inl trivial⟩
      | fails =>
          cases performed
          exact same rfl
  | await opened mode =>
      cases outcome with
      | succeeds =>
          simp only [perform] at performed
          split at performed
          · cases performed
            exact same rfl
          · split at performed
            · cases performed
              exact same rfl
            · cases performed
      | fails => cases performed
  | resize opened size =>
      cases outcome with
      | succeeds =>
          simp only [perform, Option.map_eq_some_iff] at performed
          obtain ⟨pipe, resized, rfl⟩ := performed
          obtain ⟨_, _, content, capacity⟩ := resize_ends resized
          by_cases here : path = opened
          · subst path
            simp only [Function.update_self]
            exact ⟨Nat.le_of_eq content, Or.inr ⟨size, rfl, capacity⟩⟩
          · simp only [Function.update_of_ne here]
            exact ⟨Nat.le_refl _, Or.inl trivial⟩
      | fails =>
          cases performed
          exact same rfl
  | settle =>
      cases outcome <;> (cases performed; exact same rfl)
  | exit held =>
      cases outcome with
      | succeeds =>
          cases performed
          obtain ⟨content, capacity⟩ := closeAll_kept held kernel.pipes path
          exact ⟨content, Or.inl capacity⟩
      | fails => cases performed

def Sized (wanted : Nat → Prop) (own : List (Path × Mode)) (kernel : Kernel Path)
    (place : Place) : Prop :=
  ∀ index path mode, own[index]? = some (path, mode) → index < place.sized own.length →
    wanted (kernel.pipes path).capacity

section Sizes

variable {wanted : Nat → Prop} {own : List (Path × Mode)} {kernel later : Kernel Path}
  {peer : Peer} {call : PipeCall Path} {outcome : Outcome} {place : Place} {size : Nat}

theorem Sized.keep (sized : Sized wanted own kernel place)
    (performed : perform peer call outcome kernel = some later)
    (asks : ∀ path size, call = .resize path size → wanted (roundSize size)) :
    Sized wanted own later place := by
  intro index path mode found reached
  rcases (perform_kept performed path).2 with same | ⟨size, resizes, capacity⟩
  · rw [same]
    exact sized index path mode found reached
  · rw [capacity]
    exact asks path size resizes

omit [DecidableEq Path] in
theorem opener_resize {path : Path} {asked : Nat}
    (at_call : (opener own size).call place = some (.resize path asked)) :
    asked = size ∧ ∃ index mode, place = .resize index ∧ own[index]? = some (path, mode) := by
  cases place with
  | resize index =>
      simp only [opener, Option.map_eq_some_iff, PipeCall.resize.injEq] at at_call
      obtain ⟨⟨path', mode⟩, found, rfl, rfl⟩ := at_call
      exact ⟨rfl, index, mode, rfl, found⟩
  | arrive index => simp [opener] at at_call
  | await index => simp [opener] at at_call
  | settle => simp [opener] at at_call
  | through => simp [opener] at at_call
  | leave opened => simp [opener] at at_call
  | gone opened => simp [opener] at at_call

theorem Sized.step (sized : Sized wanted own kernel place)
    (at_call : (opener own size).call place = some call)
    (performed : perform peer call outcome kernel = some later) (want : wanted (roundSize size)) :
    Sized wanted own later ((opener own size).next place outcome) := by
  have kept := sized.keep performed (by
    rintro path asked rfl
    rw [(opener_resize at_call).1]
    exact want)
  intro index path mode found reached
  cases place with
  | resize last =>
      cases outcome with
      | succeeds =>
          simp only [opener, Option.map_eq_some_iff] at at_call
          obtain ⟨⟨path', mode'⟩, there, rfl⟩ := at_call
          by_cases same : index = last
          · subst index
            rw [there] at found
            cases found
            simp only [perform, Option.map_eq_some_iff] at performed
            obtain ⟨pipe, resized, rfl⟩ := performed
            simp only [Function.update_self, (resize_ends resized).2.2.2]
            exact want
          · refine kept index path mode found ?_
            have inside := (List.getElem?_eq_some_iff.mp found).1
            simp only [opener, openFrom] at reached
            split at reached
            · simp only [Place.sized] at reached ⊢
              omega
            · simp only [Place.sized]
              omega
      | fails => exact absurd reached (Nat.not_lt_zero _)
  | arrive last =>
      cases outcome with
      | succeeds => exact kept index path mode found reached
      | fails => exact absurd reached (Nat.not_lt_zero _)
  | await last =>
      cases outcome with
      | succeeds => exact kept index path mode found reached
      | fails => exact absurd reached (Nat.not_lt_zero _)
  | settle =>
      cases outcome with
      | succeeds => exact kept index path mode found reached
      | fails => exact absurd reached (Nat.not_lt_zero _)
  | through => exact kept index path mode found reached
  | leave opened => exact absurd reached (Nat.not_lt_zero _)
  | gone opened => exact absurd reached (Nat.not_lt_zero _)

end Sizes

/-! Where it all ends. -/

section Halting

variable {own other : List (Path × Mode)} {kernel : Kernel Path} {me you : Peer}
  {place place' : Place} {size size' : Nat}

def Halted (own : List (Path × Mode)) (size : Nat) (kernel : Kernel Path) (me : Peer)
    (place : Place) : Prop :=
  ∀ call, (opener own size).call place = some call → perform me call .succeeds kernel = none

def Place.isOver : Place → Bool
  | .through => true
  | .gone _ => true
  | _ => false

/-- What keeps a program from going on is an open that finds no partner. -/
theorem Met.halted (mine : Met own other kernel me place place')
    (empty : ∀ path, (kernel.pipes path).content = 0) (halted : Halted own size kernel me place) :
    place.isOver = true ∨ ∃ index path mode seen, place = .await index ∧
      own[index]? = some (path, mode) ∧ kernel.awaiting me = some seen ∧
      (kernel.pipes path).answered seen mode = false := by
  have opening : ∀ index, index < own.length → ∃ path mode, own[index]? = some (path, mode) :=
    fun index inside => ⟨_, _, List.getElem?_eq_getElem inside⟩
  cases place with
  | arrive index =>
      obtain ⟨path, mode, found⟩ := opening index mine.inside
      have returned := halted (.arrive path mode) (by simp [opener, found])
      cases returned
  | await index =>
      obtain ⟨path, mode, found⟩ := opening index mine.inside
      have returned := halted (.await path mode) (by simp [opener, found])
      simp only [perform] at returned
      split at returned
      · cases returned
      · rename_i seen waits
        split at returned
        · cases returned
        · rename_i unanswered
          exact Or.inr ⟨index, path, mode, seen, rfl, found, waits, by simpa using unanswered⟩
  | resize index =>
      obtain ⟨path, mode, found⟩ := opening index mine.inside
      have returned := halted (.resize path size) (by simp [opener, found])
      simp [perform, Pipe.resize, empty path] at returned
  | settle => cases halted _ rfl
  | through => exact Or.inl rfl
  | leave opened => cases halted _ rfl
  | gone opened => exact Or.inl rfl

/-- A program waits in vain only for one that has gone. -/
theorem Met.stays (meeting : Meeting own other)
    (mine : Met own other kernel me place place') (yours : Met other own kernel you place' place)
    (empty : ∀ path, (kernel.pipes path).content = 0) (halted : Halted own size kernel me place)
    (halted' : Halted other size' kernel you place') :
    place.isOver = true ∨ place'.isGone = true := by
  rcases mine.halted empty halted with finished | ⟨index, path, mode, seen, rfl, found, waits, none⟩
  · exact Or.inl finished
  obtain ⟨mode', partner, opposite⟩ := meeting.partner found
  rw [answered_eq opposite, decide_eq_false_iff_not] at none
  refine Or.inr ?_
  by_cases positive : 0 < seen
  · exact mine.seen index seen rfl waits positive
  have behind : ¬index < place'.arrived other.length := by
    intro arrived
    rw [yours.opens index path mode' partner, among_eq_one arrived] at none
    omega
  have inside : index < other.length := by
    rw [← meeting.length]
    exact mine.inside
  rcases yours.halted empty halted' with finished | ⟨second, path', mode₂, seen', rfl, found', waits', none'⟩
  · cases place' with
    | gone opened => rfl
    | through => exact absurd inside behind
    | _ => cases finished
  · obtain ⟨mode₃, partner', opposite'⟩ := meeting.symm.partner found'
    rw [answered_eq opposite', decide_eq_false_iff_not] at none'
    have ahead : second < (Place.await index).arrived own.length := by
      simp only [Place.arrived] at behind ⊢
      omega
    rw [mine.opens second path' mode₃ partner', among_eq_one ahead] at none'
    exact absurd (yours.seen second seen' rfl waits' (by omega)) (by simp [Place.isGone])

def Place.left (length : Nat) : Place → Nat
  | .arrive index => 3 * (length - index) + 4
  | .await index => 3 * (length - index) + 3
  | .resize index => 3 * (length - index) + 2
  | .settle => 3
  | .through => 0
  | .leave _ => 1
  | .gone _ => 0

omit [DecidableEq Path] in
theorem left_next {call : PipeCall Path} (inside : place.Inside own.length)
    (at_call : (opener own size).call place = some call) (outcome : Outcome) :
    ((opener own size).next place outcome).left own.length < place.left own.length := by
  cases place with
  | arrive index =>
      cases outcome with
      | succeeds => exact Nat.lt_succ_self _
      | fails => simp only [opener, Place.left]; omega
  | await index =>
      cases outcome with
      | succeeds => exact Nat.lt_succ_self _
      | fails => simp only [opener, Place.left]; omega
  | resize index =>
      cases outcome with
      | succeeds =>
          simp only [Place.Inside] at inside
          simp only [opener, openFrom]
          split
          · simp only [Place.left]
            omega
          · simp only [Place.left]
            omega
      | fails => simp only [opener, Place.left]; omega
  | settle =>
      cases outcome with
      | succeeds => exact Nat.succ_pos _
      | fails => simp only [opener, Place.left]; omega
  | through => cases at_call
  | leave opened =>
      cases outcome with
      | succeeds => exact Nat.one_pos
      | fails => exact Nat.one_pos
  | gone opened => cases at_call

end Halting

variable {clientSize serverSize capacity : Nat}

def Settled (duo : Duo (Kernel Path) Place Place) : Prop :=
  (duo.client.isOver = true ∨ duo.server.isGone = true) ∧
    (duo.server.isOver = true ∨ duo.client.isGone = true)

structure Opening (clientOpens serverOpens : List (Path × Mode)) (clientSize serverSize : Nat)
    (duo : Duo (Kernel Path) Place Place) : Prop where
  met : BothMet clientOpens serverOpens duo
  empty : ∀ path, (duo.shared.pipes path).content = 0
  client : Sized (fun size => size = roundSize clientSize ∨ size = roundSize serverSize)
    clientOpens duo.shared duo.client
  server : Sized (fun size => size = roundSize clientSize ∨ size = roundSize serverSize)
    serverOpens duo.shared duo.server

omit [DecidableEq Path] in
theorem Opening.initial : Opening clientOpens serverOpens clientSize serverSize
    (openersStart clientOpens serverOpens capacity) := by
  have none : ∀ (own : List (Path × Mode)) wanted (kernel : Kernel Path),
      Sized wanted own kernel (openFrom own 0) := by
    intro own wanted kernel index path mode found reached
    have inside := (List.getElem?_eq_some_iff.mp found).1
    rw [openFrom, if_pos (by omega)] at reached
    exact absurd reached (Nat.not_lt_zero _)
  exact ⟨BothMet.initial, fun _ => rfl, none _ _ _, none _ _ _⟩

theorem Opening.step (meeting : Meeting clientOpens serverOpens)
    (opening : Opening clientOpens serverOpens clientSize serverSize duo)
    (taken : (openers clientOpens serverOpens clientSize serverSize).machine.step duo action =
      some next) :
    Opening clientOpens serverOpens clientSize serverSize next := by
  have met := opening.met.step meeting taken
  obtain ⟨peer, outcome⟩ := action
  cases peer with
  | client =>
      obtain ⟨call, kernel, at_call, performed, rfl⟩ := System.step_client.mp taken
      refine ⟨met, ?_, opening.client.step at_call performed (Or.inl rfl), ?_⟩
      · intro path
        exact Nat.le_zero.mp (opening.empty path ▸ (perform_kept performed path).1)
      · refine opening.server.keep performed ?_
        rintro path asked rfl
        exact Or.inl (congrArg roundSize (opener_resize at_call).1)
  | server =>
      obtain ⟨call, kernel, at_call, performed, rfl⟩ := System.step_server.mp taken
      refine ⟨met, ?_, ?_, opening.server.step at_call performed (Or.inr rfl)⟩
      · intro path
        exact Nat.le_zero.mp (opening.empty path ▸ (perform_kept performed path).1)
      · refine opening.client.keep performed ?_
        rintro path asked rfl
        exact Or.inr (congrArg roundSize (opener_resize at_call).1)

theorem Opening.run (meeting : Meeting clientOpens serverOpens)
    (run : Run (openers clientOpens serverOpens clientSize serverSize).machine
      (openersStart clientOpens serverOpens capacity) trace duo) :
    Opening clientOpens serverOpens clientSize serverSize duo :=
  run.stateInvariant (Opening clientOpens serverOpens clientSize serverSize) Opening.initial
    fun _ _ _ opening taken => opening.step meeting taken

theorem Opening.goes (meeting : Meeting clientOpens serverOpens)
    (opening : Opening clientOpens serverOpens clientSize serverSize duo) :
    Settled duo ∨ ∃ peer next, (openers clientOpens serverOpens clientSize serverSize).machine.step
      duo (peer, .succeeds) = some next := by
  by_cases goes : ∃ peer next, (openers clientOpens serverOpens clientSize serverSize).machine.step
      duo (peer, .succeeds) = some next
  · exact Or.inr goes
  refine Or.inl ?_
  have client : Halted clientOpens clientSize duo.shared .client duo.client := by
    intro call at_call
    refine Option.eq_none_iff_forall_ne_some.mpr fun kernel performed => goes ?_
    exact ⟨.client, _, System.step_client.mpr ⟨call, kernel, at_call, performed, rfl⟩⟩
  have server : Halted serverOpens serverSize duo.shared .server duo.server := by
    intro call at_call
    refine Option.eq_none_iff_forall_ne_some.mpr fun kernel performed => goes ?_
    exact ⟨.server, _, System.step_server.mpr ⟨call, kernel, at_call, performed, rfl⟩⟩
  exact ⟨opening.met.client.stays meeting opening.met.server opening.empty client server,
    opening.met.server.stays meeting.symm opening.met.client opening.empty server client⟩

theorem Opening.lowers
    (opening : Opening clientOpens serverOpens clientSize serverSize duo)
    (taken : (openers clientOpens serverOpens clientSize serverSize).machine.step duo action =
      some next) :
    next.client.left clientOpens.length + next.server.left serverOpens.length <
      duo.client.left clientOpens.length + duo.server.left serverOpens.length := by
  obtain ⟨peer, outcome⟩ := action
  cases peer with
  | client =>
      obtain ⟨call, kernel, at_call, _, rfl⟩ := System.step_client.mp taken
      exact Nat.add_lt_add_right (left_next opening.met.client.inside at_call outcome) _
  | server =>
      obtain ⟨call, kernel, at_call, _, rfl⟩ := System.step_server.mp taken
      exact Nat.add_lt_add_left (left_next opening.met.server.inside at_call outcome) _

/-- Whatever fails, both come to an end or wait for one that has gone. -/
theorem openers_settle (meeting : Meeting clientOpens serverOpens) :
    (openers clientOpens serverOpens clientSize serverSize).machine.Ends
      (openersStart clientOpens serverOpens capacity) Settled := by
  refine ends_of_measure (Opening clientOpens serverOpens clientSize serverSize)
    (fun duo => duo.client.left clientOpens.length + duo.server.left serverOpens.length)
    Opening.initial ?_ ?_
  · intro duo action next opening taken
    exact ⟨opening.step meeting taken, opening.lowers taken⟩
  · intro duo opening
    rcases opening.goes meeting with settled | ⟨peer, next, taken⟩
    · exact Or.inl settled
    · exact Or.inr ⟨_, next, taken⟩

def Place.leaves : Place → Bool
  | .leave _ => true
  | .gone _ => true
  | _ => false

/-- Without a failing call nobody leaves, and both get through. -/
theorem openers_through (meeting : Meeting clientOpens serverOpens) :
    ((openers clientOpens serverOpens clientSize serverSize).machine.restrict
        fun _ action => decide (action.2 = .succeeds)).Ends
      (openersStart clientOpens serverOpens capacity)
      fun duo => duo.client = .through ∧ duo.server = .through := by
  have starts : ∀ own : List (Path × Mode), (openFrom own 0).leaves = false := by
    intro own
    unfold openFrom
    split <;> rfl
  have next : ∀ (own : List (Path × Mode)) size place, place.leaves = false →
      ((opener own size).next place .succeeds).leaves = false := by
    intro own size place stays
    cases place with
    | resize index =>
        simp only [opener, openFrom]
        split <;> rfl
    | leave opened => cases stays
    | gone opened => cases stays
    | _ => rfl
  refine ends_of_measure
    (fun duo => Opening clientOpens serverOpens clientSize serverSize duo ∧
      duo.client.leaves = false ∧ duo.server.leaves = false)
    (fun duo => duo.client.left clientOpens.length + duo.server.left serverOpens.length)
    ⟨Opening.initial, starts _, starts _⟩ ?_ ?_
  · rintro duo ⟨peer, outcome⟩ later ⟨opening, client, server⟩ restricted
    obtain ⟨succeeds, taken⟩ := restrict_step.mp restricted
    obtain rfl := of_decide_eq_true succeeds
    refine ⟨⟨opening.step meeting taken, ?_⟩, opening.lowers taken⟩
    cases peer with
    | client =>
        obtain ⟨call, kernel, _, _, rfl⟩ := System.step_client.mp taken
        exact ⟨next clientOpens clientSize _ client, server⟩
    | server =>
        obtain ⟨call, kernel, _, _, rfl⟩ := System.step_server.mp taken
        exact ⟨client, next serverOpens serverSize _ server⟩
  · rintro duo ⟨opening, client, server⟩
    have through : ∀ place : Place, place.leaves = false → place.isOver = true →
        place = .through := by
      intro place stays finished
      cases place with
      | through => rfl
      | gone opened => cases stays
      | _ => cases finished
    have present : ∀ place : Place, place.leaves = false → place.isGone ≠ true := by
      intro place stays gone
      cases place with
      | gone opened => cases stays
      | _ => cases gone
    rcases opening.goes meeting with ⟨one, two⟩ | ⟨peer, later, taken⟩
    · exact Or.inl ⟨through _ client (one.resolve_right (present _ server)),
        through _ server (two.resolve_right (present _ client))⟩
    · exact Or.inr ⟨_, later, restrict_step.mpr ⟨by simp, taken⟩⟩

end Openers

end NamedPipe
