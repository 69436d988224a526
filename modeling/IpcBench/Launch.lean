import IpcBench.BuildPath
import IpcBench.Calls
import IpcBench.Children
import IpcBench.CommandLine

/-!
How a parent launches its benchmark: `setup_parent`, which starts a server and a client with
its own arguments and waits for both.
-/

namespace IpcBench

open Transition Calls Children

def newArguments (name : List Char) : List (Option (List Char)) :=
  some name :: List.replicate 7 none

/-- There is no result when the assertion fails. -/
def copyArguments (arguments : List (Option (List Char))) (argv : List (List Char)) :
    Option (List (Option (List Char))) :=
  if argv.length < 8 then
    some (((List.range' 1 (argv.length - 1)).foldl
      (fun arguments i => arguments.set i argv[i]?) arguments).set argv.length none)
  else none

def argvOf (arguments : List (Option (List Char))) : List (List Char) :=
  (arguments.takeWhile Option.isSome).filterMap id

/-- What a child executes: `start_process` up to either call, or the program. -/
inductive Image
  | setpgid (arguments : List (Option (List Char)))
  | execv (arguments : List (Option (List Char)))
  | program (argv : List (List Char))
deriving DecidableEq, Repr

inductive ParentPc
  | flag
  | signals
  | forkServer
  | forkClient
  | waitServer
  | waitClient
  | finished
  | usage
  | failed
  | aborted
deriving DecidableEq, Repr

structure Launch where
  parent : ParentPc
  server : Child Image
  client : Child Image
deriving DecidableEq, Repr

def Launch.initial : Launch where
  parent := .flag
  server := .unborn (.setpgid [])
  client := .unborn (.setpgid [])

def Launch.child (launch : Launch) : Peer → Child Image
  | .client => launch.client
  | .server => launch.server

def Launch.withChild (launch : Launch) (peer : Peer) (child : Child Image) : Launch :=
  match peer with
  | .client => { launch with client := child }
  | .server => { launch with server := child }

def ChildNames.of (names : ChildNames) : Peer → List Char
  | .client => names.client
  | .server => names.server

/-- `start_child` in the parent, which does not look at what `fork` returns. -/
def startChild (names : ChildNames) (argv : List (List Char)) (peer : Peer) (next : ParentPc)
    (outcome : Outcome) (launch : Launch) : Launch :=
  match copyArguments (newArguments (names.of peer)) argv with
  | none => { launch with parent := .aborted }
  | some arguments =>
      match outcome with
      | .succeeds => { launch.withChild peer (.fork (.setpgid arguments)) with parent := next }
      | .fails => { launch with parent := next }

/-- `waitpid` with what `fork` returned; after a failure that is -1, which means any child. -/
def waitChild (peer other : Peer) (next : ParentPc) (launch : Launch) : Option Launch :=
  if (launch.child peer).life = .unborn then
    (launch.child other).wait.map fun child => { launch.withChild other child with parent := next }
  else
    (launch.child peer).wait.map fun child => { launch.withChild peer child with parent := next }

def Launch.parentStep (names : ChildNames) (argv : List (List Char)) (outcome : Outcome)
    (launch : Launch) : Option Launch :=
  match launch.parent with
  | .flag =>
      some { launch with parent := if checkFlag helpFlag.chars argv then .usage else .signals }
  | .signals =>
      match outcome with
      | .succeeds => some { launch with parent := .forkServer }
      | .fails => some { launch with parent := .failed }
  | .forkServer => some (startChild names argv .server .forkClient outcome launch)
  | .forkClient => some (startChild names argv .client .waitServer outcome launch)
  | .waitServer => waitChild .server .client .waitClient launch
  | .waitClient => waitChild .client .server .finished launch
  | _ => none

def childStep (outcome : Outcome) (child : Child Image) : Option (Child Image) :=
  if child.life = .runs then
    match child.image, outcome with
    | .setpgid arguments, .succeeds => some { child with image := .execv arguments }
    | .execv arguments, .succeeds =>
        if argvOf arguments = [] then none
        else some { child with image := .program (argvOf arguments) }
    | .program _, _ => none
    | _, .fails => some child.finish
  else none

inductive LaunchAction
  | parent (outcome : Outcome)
  | child (peer : Peer) (outcome : Outcome)
  | happens (peer : Peer) (event : Event)
deriving DecidableEq, Repr

def Launch.step (names : ChildNames) (argv : List (List Char)) (launch : Launch) :
    LaunchAction → Option Launch
  | .parent outcome => launch.parentStep names argv outcome
  | .child peer outcome => (childStep outcome (launch.child peer)).map (launch.withChild peer)
  | .happens peer event => ((launch.child peer).happen event).map (launch.withChild peer)

def Launch.machine (names : ChildNames) (argv : List (List Char)) : Machine Launch LaunchAction where
  step := Launch.step names argv

/-! The arguments of the children. -/

section Arguments

variable {name first : List Char} {rest argv : List (List Char)}
  {arguments : List (Option (List Char))}

theorem copied_eq (name first : List Char) (rest : List (List Char)) (count : Nat)
    (within : count ≤ rest.length) (few : count ≤ 7) :
    (List.range' 1 count).foldl (fun arguments i => arguments.set i (first :: rest)[i]?)
      (newArguments name) =
      some name :: ((rest.take count).map some ++ List.replicate (7 - count) none) := by
  induction count with
  | zero => rfl
  | succ count ih =>
      have earlier := ih (by omega) (by omega)
      have room : 7 - count = (7 - (count + 1)) + 1 := by omega
      have length : ((rest.take count).map some).length = count := by
        rw [List.length_map, List.length_take, Nat.min_eq_left (by omega)]
      have here : rest[count]? = some rest[count] := List.getElem?_eq_getElem within
      rw [List.range'_concat, List.foldl_append, earlier, List.foldl_cons, List.foldl_nil,
        Nat.one_mul, Nat.add_comm 1 count, List.set_cons_succ, List.getElem?_cons_succ, here, room,
        List.replicate_succ, List.set_append, if_neg (by omega), length, Nat.sub_self,
        List.set_cons_zero, List.take_add_one, here]
      simp only [Option.toList_some, List.map_append, List.map_cons, List.map_nil,
        List.append_assoc, List.cons_append, List.nil_append]

theorem argvOf_copyArguments
    (copied : copyArguments (newArguments name) argv = some arguments) :
    argvOf arguments = if argv = [] then [] else name :: argv.tail := by
  unfold copyArguments at copied
  split at copied
  · rename_i few
    cases copied
    cases argv with
    | nil => rfl
    | cons first rest =>
        rw [List.length_cons] at few
        have whole : rest.take rest.length = rest := List.take_length
        have last : (rest.map some ++ List.replicate (7 - rest.length) none).set rest.length none =
            rest.map some ++ List.replicate (7 - rest.length) (none : Option (List Char)) := by
          have room : 7 - rest.length = (6 - rest.length) + 1 := by omega
          rw [room, List.replicate_succ, List.set_append, if_neg (by simp)]
          simp
        rw [List.length_cons, Nat.add_sub_cancel, copied_eq name first rest rest.length
          (Nat.le_refl _) (by omega), whole, List.set_cons_succ, last, if_neg (List.cons_ne_nil _ _)]
        have kept : (rest.map some ++ List.replicate (7 - rest.length) none).takeWhile
            Option.isSome = rest.map some := by
          rw [List.takeWhile_append_of_pos]
          · simp
          · intro argument member
            obtain ⟨word, _, rfl⟩ := List.mem_map.mp member
            rfl
        rw [argvOf, List.takeWhile_cons_of_pos rfl, kept]
        simp
  · cases copied

theorem copyArguments_few (copied : copyArguments (newArguments name) argv = some arguments) :
    argv.length < 8 := by
  unfold copyArguments at copied
  split at copied
  · assumption
  · cases copied

theorem copyArguments_many (refused : copyArguments (newArguments name) argv = none) :
    8 ≤ argv.length := by
  unfold copyArguments at refused
  split at refused
  · cases refused
  · omega

end Arguments

/-! What holds while children are launched. -/

def Image.For (name : List Char) (argv : List (List Char)) : Image → Prop
  | .setpgid arguments => copyArguments (newArguments name) argv = some arguments
  | .execv arguments => copyArguments (newArguments name) argv = some arguments
  | .program own => own = name :: argv.tail ∧ own.length = argv.length

def Waited (child : Child Image) : Prop :=
  child.life ≠ .unborn → child.halted = true

def Launches (argv : List (List Char)) : Prop :=
  checkFlag helpFlag.chars argv = false ∧ argv.length < 8

def ParentPc.Promise (argv : List (List Char)) (server client : Child Image) : ParentPc → Prop
  | .flag => server.life = .unborn ∧ client.life = .unborn
  | .signals => (server.life = .unborn ∧ client.life = .unborn) ∧
      checkFlag helpFlag.chars argv = false
  | .forkServer => (server.life = .unborn ∧ client.life = .unborn) ∧
      checkFlag helpFlag.chars argv = false
  | .forkClient => client.life = .unborn ∧ Launches argv
  | .waitServer => Launches argv
  | .waitClient => Waited server ∧ Launches argv
  | .finished => (Waited server ∧ Waited client) ∧ Launches argv
  | .usage => (server.life = .unborn ∧ client.life = .unborn) ∧
      checkFlag helpFlag.chars argv = true
  | .failed => (server.life = .unborn ∧ client.life = .unborn) ∧
      checkFlag helpFlag.chars argv = false
  | .aborted => (server.life = .unborn ∧ client.life = .unborn) ∧
      checkFlag helpFlag.chars argv = false ∧ 8 ≤ argv.length

structure Launched (names : ChildNames) (argv : List (List Char)) (launch : Launch) : Prop where
  sound : ∀ peer, (launch.child peer).Sound
  image : ∀ peer, (launch.child peer).life ≠ .unborn →
    (launch.child peer).image.For (names.of peer) argv
  promise : launch.parent.Promise argv launch.server launch.client

structure TakesOver (child after : Child Image) : Prop where
  unborn : child.life = .unborn → after.life = .unborn
  waited : Waited child → Waited after

section Steps

variable {names : ChildNames} {argv : List (List Char)} {launch next : Launch} {peer other : Peer}
  {child after : Child Image}

theorem Launched.initial : Launched names argv .initial where
  sound := by
    intro peer
    cases peer <;> exact Child.Sound.ofUnborn _
  image := by
    intro peer born
    cases peer <;> exact absurd rfl born
  promise := ⟨rfl, rfl⟩

theorem TakesOver.refl (child : Child Image) : TakesOver child child :=
  ⟨id, id⟩

theorem ParentPc.Promise.follow {place : ParentPc} {server client server' client' : Child Image}
    (promise : place.Promise argv server client) (first : TakesOver server server')
    (second : TakesOver client client') : place.Promise argv server' client' := by
  cases place with
  | flag => exact ⟨first.unborn promise.1, second.unborn promise.2⟩
  | signals => exact ⟨⟨first.unborn promise.1.1, second.unborn promise.1.2⟩, promise.2⟩
  | forkServer => exact ⟨⟨first.unborn promise.1.1, second.unborn promise.1.2⟩, promise.2⟩
  | forkClient => exact ⟨second.unborn promise.1, promise.2⟩
  | waitServer => exact promise
  | waitClient => exact ⟨first.waited promise.1, promise.2⟩
  | finished => exact ⟨⟨first.waited promise.1.1, second.waited promise.1.2⟩, promise.2⟩
  | usage => exact ⟨⟨first.unborn promise.1.1, second.unborn promise.1.2⟩, promise.2⟩
  | failed => exact ⟨⟨first.unborn promise.1.1, second.unborn promise.1.2⟩, promise.2⟩
  | aborted => exact ⟨⟨first.unborn promise.1.1, second.unborn promise.1.2⟩, promise.2⟩

@[simp] theorem withChild_parent (launch : Launch) (peer : Peer) (child : Child Image) :
    (launch.withChild peer child).parent = launch.parent := by
  cases peer <;> rfl

@[simp] theorem withChild_child (launch : Launch) (peer : Peer) (child : Child Image) :
    (launch.withChild peer child).child peer = child := by
  cases peer <;> rfl

theorem withChild_other (launch : Launch) (child : Child Image) (different : other ≠ peer) :
    (launch.withChild peer child).child other = launch.child other := by
  cases peer <;> cases other <;> first | rfl | exact absurd rfl different

theorem Launched.goto (launched : Launched names argv launch) {place : ParentPc}
    (promise : place.Promise argv launch.server launch.client) :
    Launched names argv { launch with parent := place } where
  sound := by
    intro peer
    cases peer
    · exact launched.sound .client
    · exact launched.sound .server
  image := by
    intro peer
    cases peer
    · exact launched.image .client
    · exact launched.image .server
  promise := promise

theorem Launched.replace (launched : Launched names argv launch) (place : ParentPc)
    (sound : child.Sound) (image : child.life ≠ .unborn → child.image.For (names.of peer) argv)
    (promise : place.Promise argv (launch.withChild peer child).server
      (launch.withChild peer child).client) :
    Launched names argv { launch.withChild peer child with parent := place } := by
  have same : ∀ peer', ({ launch.withChild peer child with parent := place } : Launch).child peer' =
      (launch.withChild peer child).child peer' := by
    intro peer'
    cases peer' <;> rfl
  refine ⟨?_, ?_, promise⟩
  · intro peer'
    rw [same]
    by_cases here : peer' = peer
    · subst here
      rw [withChild_child]
      exact sound
    · rw [withChild_other launch child here]
      exact launched.sound peer'
  · intro peer'
    rw [same]
    by_cases here : peer' = peer
    · subst here
      rw [withChild_child]
      exact image
    · rw [withChild_other launch child here]
      exact launched.image peer'

theorem Launched.withChild (launched : Launched names argv launch)
    (sound : child.Sound) (image : child.life ≠ .unborn → child.image.For (names.of peer) argv)
    (follows : TakesOver (launch.child peer) child) :
    Launched names argv (launch.withChild peer child) := by
  have kept : launch.parent.Promise argv (launch.withChild peer child).server
      (launch.withChild peer child).client := by
    cases peer with
    | client => exact launched.promise.follow (.refl _) follows
    | server => exact launched.promise.follow follows (.refl _)
  have replaced := launched.replace launch.parent sound image kept
  have same : ({ launch.withChild peer child with parent := launch.parent } : Launch) =
      launch.withChild peer child := by
    cases peer <;> rfl
  rwa [same] at replaced

theorem TakesOver.ofBorn (born : child.life ≠ .unborn) (halted : child.halted = true → after.halted = true) :
    TakesOver child after where
  unborn := fun unborn => absurd unborn born
  waited := fun waited _ => halted (waited born)

theorem childStep_inv (name : List Char) (argv : List (List Char)) {outcome : Outcome}
    (stepped : childStep outcome child = some after) :
    child.life = .runs ∧ (child.image.For name argv → after.image.For name argv) ∧
      (after = child.finish ∨ after = { child with image := after.image }) := by
  unfold childStep at stepped
  split at stepped
  · rename_i runs
    refine ⟨runs, ?_⟩
    split at stepped
    · rename_i arguments image
      cases stepped
      rw [image]
      exact ⟨id, Or.inr rfl⟩
    · rename_i arguments image
      split at stepped
      · cases stepped
      · rename_i named
        cases stepped
        rw [image]
        refine ⟨?_, Or.inr rfl⟩
        intro copied
        rw [argvOf_copyArguments copied] at named ⊢
        split at named
        · exact absurd rfl named
        · rename_i nonempty
          rw [if_neg nonempty]
          refine ⟨rfl, ?_⟩
          have positive := List.length_pos_iff.mpr nonempty
          rw [List.length_cons, List.length_tail]
          omega
    · cases stepped
    · cases stepped
      exact ⟨id, Or.inl rfl⟩
  · cases stepped

theorem Launched.child_step (launched : Launched names argv launch) {outcome : Outcome}
    (stepped : childStep outcome (launch.child peer) = some after) :
    Launched names argv (launch.withChild peer after) := by
  obtain ⟨runs, image, moved⟩ := childStep_inv (names.of peer) argv stepped
  have born : (launch.child peer).life ≠ .unborn := by
    rw [runs]
    intro unborn
    cases unborn
  rcases moved with finished | same
  · refine launched.withChild ?_ (fun _ => image (launched.image peer born)) (.ofBorn born ?_)
    · rw [finished]
      exact Child.Sound.ofFinish _
    · rw [finished]
      exact fun _ => rfl
  · refine launched.withChild ?_ (fun _ => image (launched.image peer born)) (.ofBorn born ?_)
    · rw [same]
      exact (launched.sound peer).withImage _
    · rw [same]
      exact id

theorem Launched.happen (launched : Launched names argv launch) {event : Event}
    (happened : (launch.child peer).happen event = some after) :
    Launched names argv (launch.withChild peer after) := by
  obtain ⟨born, _, image, halted⟩ := Child.happen_inv happened
  refine launched.withChild ((launched.sound peer).happen happened) ?_ (.ofBorn born halted)
  intro _
  rw [image]
  exact launched.image peer born

theorem Launched.start (launched : Launched names argv launch) {place : ParentPc}
    (unasked : checkFlag helpFlag.chars argv = false)
    (refused : 8 ≤ argv.length → launch.server.life = .unborn ∧ launch.client.life = .unborn)
    (later : Launches argv → ∀ server client : Child Image,
      (peer = .server → client = launch.client) → place.Promise argv server client)
    (outcome : Outcome) : Launched names argv (startChild names argv peer place outcome launch) := by
  unfold startChild
  split
  · rename_i many
    have big := copyArguments_many many
    exact launched.goto ⟨refused big, unasked, big⟩
  · rename_i arguments copied
    have few : Launches argv := ⟨unasked, copyArguments_few copied⟩
    cases outcome with
    | succeeds =>
        refine launched.replace place (Child.Sound.ofFork _) (fun _ => copied) (later few _ _ ?_)
        rintro rfl
        rfl
    | fails => exact launched.goto (later few _ _ fun _ => rfl)

theorem TakesOver.ofWait (waited : child.wait = some after) : TakesOver child after := by
  obtain ⟨life, _, halted⟩ := Child.wait_inv waited
  constructor
  · rw [life]
    exact id
  · unfold Waited
    rw [life, halted]
    exact id

theorem Launched.wait (launched : Launched names argv launch) {place : ParentPc}
    (different : other ≠ peer)
    (later : ∀ server client : Child Image, TakesOver launch.server server →
      TakesOver launch.client client → (peer = .server → Waited server) →
      (peer = .client → Waited client) → place.Promise argv server client)
    (waited : waitChild peer other place launch = some next) : Launched names argv next := by
  unfold waitChild at waited
  split at waited
  · rename_i unborn
    obtain ⟨after, finished, rfl⟩ := Option.map_eq_some_iff.mp waited
    obtain ⟨life, image, halted⟩ := Child.wait_inv finished
    refine launched.replace place ((launched.sound other).wait finished) ?_ ?_
    · rw [life, image]
      exact launched.image other
    · cases peer <;> cases other
      · exact absurd rfl different
      · exact later _ _ (.ofWait finished) (.refl _) (by intro same; cases same)
          fun _ born => absurd unborn born
      · exact later _ _ (.refl _) (.ofWait finished) (fun _ born => absurd unborn born)
          (by intro same; cases same)
      · exact absurd rfl different
  · rename_i born
    obtain ⟨after, finished, rfl⟩ := Option.map_eq_some_iff.mp waited
    obtain ⟨life, image, halted⟩ := Child.wait_inv finished
    have done : Waited after := by
      intro _
      rw [halted]
      exact (launched.sound peer).halted_of_wait finished born
    refine launched.replace place ((launched.sound peer).wait finished) ?_ ?_
    · rw [life, image]
      exact launched.image peer
    · cases peer with
      | client => exact later _ _ (.refl _) (.ofWait finished) (by intro same; cases same) fun _ => done
      | server => exact later _ _ (.ofWait finished) (.refl _) (fun _ => done) (by intro same; cases same)

theorem Launched.step (launched : Launched names argv launch) {action : LaunchAction}
    (taken : (Launch.machine names argv).step launch action = some next) :
    Launched names argv next := by
  cases action with
  | child peer outcome =>
      obtain ⟨after, stepped, rfl⟩ := Option.map_eq_some_iff.mp taken
      exact launched.child_step stepped
  | happens peer event =>
      obtain ⟨after, happened, rfl⟩ := Option.map_eq_some_iff.mp taken
      exact launched.happen happened
  | parent outcome =>
      have promise := launched.promise
      change launch.parentStep names argv outcome = some next at taken
      cases place : launch.parent with
      | flag =>
          simp only [Launch.parentStep, place] at taken promise
          cases taken
          apply launched.goto
          split
          · rename_i asked
            exact ⟨promise, asked⟩
          · rename_i unasked
            exact ⟨promise, by simpa using unasked⟩
      | signals =>
          simp only [Launch.parentStep, place] at taken promise
          cases outcome <;> cases taken
          · exact launched.goto promise
          · exact launched.goto promise
      | forkServer =>
          simp only [Launch.parentStep, place] at taken promise
          cases taken
          refine launched.start promise.2 (fun _ => promise.1) ?_ outcome
          intro few server client kept
          exact ⟨(congrArg Child.life (kept rfl)).trans promise.1.2, few⟩
      | forkClient =>
          simp only [Launch.parentStep, place] at taken promise
          cases taken
          refine launched.start promise.2.1 (fun many => absurd promise.2.2 (by omega)) ?_
            outcome
          exact fun few _ _ _ => few
      | waitServer =>
          simp only [Launch.parentStep, place] at taken promise
          refine launched.wait (by intro same; cases same) ?_ taken
          exact fun server client _ _ waited _ => ⟨waited rfl, promise⟩
      | waitClient =>
          simp only [Launch.parentStep, place] at taken promise
          refine launched.wait (by intro same; cases same) ?_ taken
          exact fun server client kept _ _ waited => ⟨⟨kept.waited promise.1, waited rfl⟩, promise.2⟩
      | _ => simp [Launch.parentStep, place] at taken

theorem Launched.run {trace : List (Launch × LaunchAction)}
    (run : Run (Launch.machine names argv) .initial trace launch) : Launched names argv launch :=
  run.stateInvariant (Launched names argv) Launched.initial
    fun _ _ _ launched taken => launched.step taken

/-! How far the parent gets. -/

def ParentPc.rank : ParentPc → Nat
  | .flag => 0
  | .signals => 1
  | .forkServer => 2
  | .forkClient => 3
  | .waitServer => 4
  | .waitClient => 5
  | _ => 6

def byParent (_ : Launch) : LaunchAction → Bool
  | .parent _ => true
  | _ => false

theorem waitChild_parent {place : ParentPc} (waited : waitChild peer other place launch = some next) :
    next.parent = place := by
  unfold waitChild at waited
  split at waited
  · obtain ⟨after, _, rfl⟩ := Option.map_eq_some_iff.mp waited
    rfl
  · obtain ⟨after, _, rfl⟩ := Option.map_eq_some_iff.mp waited
    rfl

theorem startChild_parent (names : ChildNames) (argv : List (List Char)) (peer : Peer)
    (place : ParentPc) (outcome : Outcome) (launch : Launch) :
    (startChild names argv peer place outcome launch).parent = .aborted ∨
      (startChild names argv peer place outcome launch).parent = place := by
  unfold startChild
  split
  · exact Or.inl rfl
  · cases outcome <;> exact Or.inr rfl

theorem parentStep_rank {outcome : Outcome}
    (taken : launch.parentStep names argv outcome = some next) :
    launch.parent.rank + 1 ≤ next.parent.rank := by
  cases place : launch.parent with
  | flag =>
      simp only [Launch.parentStep, place] at taken
      cases taken
      simp only
      split <;> decide
  | signals =>
      simp only [Launch.parentStep, place] at taken
      cases outcome <;> cases taken
      · exact Nat.le_refl 2
      · show 2 ≤ 6
        omega
  | forkServer =>
      simp only [Launch.parentStep, place] at taken
      cases taken
      rcases startChild_parent names argv .server .forkClient outcome launch with at_end | on
      · rw [at_end]
        decide
      · rw [on]
        decide
  | forkClient =>
      simp only [Launch.parentStep, place] at taken
      cases taken
      rcases startChild_parent names argv .client .waitServer outcome launch with at_end | on
      · rw [at_end]
        decide
      · rw [on]
        decide
  | waitServer =>
      simp only [Launch.parentStep, place] at taken
      rw [waitChild_parent taken]
      decide
  | waitClient =>
      simp only [Launch.parentStep, place] at taken
      rw [waitChild_parent taken]
      decide
  | _ => simp [Launch.parentStep, place] at taken

theorem ParentPc.rank_le (place : ParentPc) : place.rank ≤ 6 := by
  cases place <;> decide

/-- The parent makes few steps, whatever its children do. -/
theorem parent_steps {trace : List (Launch × LaunchAction)}
    (run : Run (Launch.machine names argv) .initial trace launch) :
    occasions byParent trace ≤ launch.parent.rank := by
  induction run with
  | start => exact Nat.zero_le _
  | step before taken ih =>
      rename_i trace launch action next
      rw [occasions_step]
      cases action with
      | parent outcome =>
          have higher := parentStep_rank taken
          simp only [byParent, if_true]
          omega
      | child peer outcome =>
          obtain ⟨after, _, rfl⟩ := Option.map_eq_some_iff.mp taken
          rw [withChild_parent]
          exact ih
      | happens peer event =>
          obtain ⟨after, _, rfl⟩ := Option.map_eq_some_iff.mp taken
          rw [withChild_parent]
          exact ih

def ParentPc.isOver (place : ParentPc) : Bool :=
  place.rank = 6

theorem Launched.alive_of_waits (launched : Launched names argv launch) {place : ParentPc}
    (waits : waitChild peer other place launch = none) : ∃ peer, (launch.child peer).alive := by
  unfold waitChild at waits
  split at waits
  · exact ⟨other, (launched.sound other).alive_of_wait (Option.map_eq_none_iff.mp waits)⟩
  · exact ⟨peer, (launched.sound peer).alive_of_wait (Option.map_eq_none_iff.mp waits)⟩

theorem Launched.blocked (launched : Launched names argv launch)
    (blocked : launch.parentStep names argv .succeeds = none) :
    launch.parent.isOver = true ∨ ∃ peer, (launch.child peer).alive := by
  cases place : launch.parent with
  | waitServer =>
      simp only [Launch.parentStep, place] at blocked
      exact Or.inr (launched.alive_of_waits blocked)
  | waitClient =>
      simp only [Launch.parentStep, place] at blocked
      exact Or.inr (launched.alive_of_waits blocked)
  | finished => exact Or.inl rfl
  | usage => exact Or.inl rfl
  | failed => exact Or.inl rfl
  | aborted => exact Or.inl rfl
  | _ => simp [Launch.parentStep, place] at blocked

theorem Launched.born (launched : Launched names argv launch)
    (born : (launch.child peer).life ≠ .unborn) : Launches argv := by
  have promise := launched.promise
  have unborn : ¬(launch.server.life = .unborn ∧ launch.client.life = .unborn) := by
    rintro ⟨server, client⟩
    cases peer
    · exact born client
    · exact born server
  cases place : launch.parent with
  | flag =>
      rw [place] at promise
      exact absurd promise unborn
  | forkClient =>
      rw [place] at promise
      exact promise.2
  | waitServer =>
      rw [place] at promise
      exact promise
  | waitClient =>
      rw [place] at promise
      exact promise.2
  | finished =>
      rw [place] at promise
      exact promise.2
  | _ =>
      rw [place] at promise
      exact absurd promise.1 unborn

end Steps

/-- Whatever fails and whatever becomes of the children: one that gets into its program has the
arguments of the parent under its own name and reads the same from them; none is started when
`check_flag` finds `--help` or for eight words; the parent makes at most six steps, waits only
while a child is alive, and finishes only when all have been stopped or have ended. -/
theorem launches_alike (names : ChildNames) (argv : List (List Char))
    {trace : List (Launch × LaunchAction)} {launch : Launch}
    (run : Run (Launch.machine names argv) .initial trace launch) :
    (∀ peer, (launch.child peer).life ≠ .unborn →
      (checkFlag helpFlag.chars argv = false ∧ argv.length < 8) ∧
        ∀ own, (launch.child peer).image = .program own →
          own = names.of peer :: argv.tail ∧ own.length = argv.length ∧
            parseArguments own = parseArguments argv ∧
            ∀ flag, checkFlag flag own = checkFlag flag argv) ∧
    occasions byParent trace ≤ 6 ∧
    (launch.parentStep names argv .succeeds = none →
      launch.parent.isOver = true ∨ ∃ peer, (launch.child peer).alive) ∧
    (launch.parent = .finished → ∀ peer, (launch.child peer).life ≠ .unborn →
      (launch.child peer).halted = true) := by
  have launched := Launched.run run
  refine ⟨?_, Nat.le_trans (parent_steps run) launch.parent.rank_le, launched.blocked, ?_⟩
  · intro peer born
    refine ⟨launched.born born, ?_⟩
    intro own image
    have mine := launched.image peer born
    rw [image] at mine
    obtain ⟨rfl, length⟩ := mine
    exact ⟨rfl, length, rfl, fun _ => rfl⟩
  · intro finished peer
    have promise := launched.promise
    rw [finished] at promise
    cases peer
    · exact promise.1.2
    · exact promise.1.1

/-- A launch without arguments, in which both programs are reached and end. -/
theorem launches_alike_bare : ∃ trace launch,
    Run (Launch.machine ⟨['s'], ['c']⟩ [['p']]) .initial trace launch ∧
      launch.parent = .finished ∧ ∀ peer, (launch.child peer).life ≠ .unborn →
        (launch.child peer).halted = true := by
  obtain ⟨trace, launch, run, finished⟩ := exists_run_of_execute
    (Launch.machine ⟨['s'], ['c']⟩ [['p']]) .initial
    [.parent .succeeds, .parent .succeeds, .parent .succeeds, .child .server .succeeds,
      .child .server .succeeds, .parent .succeeds, .child .client .succeeds,
      .child .client .succeeds, .happens .server .finish, .parent .succeeds,
      .happens .client .finish, .parent .succeeds]
    (fun result => result.2.parent == .finished)
    (by decide)
  rw [beq_iff_eq] at finished
  exact ⟨trace, launch, run, finished, (launches_alike _ _ run).2.2.2 finished⟩

end IpcBench
