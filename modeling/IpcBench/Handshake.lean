import IpcBench.Calls

/-!
A server that makes itself reachable and then tells a client so with a token in a pipe. The
client takes the token before it connects, and so it connects to a server that accepts.
-/

namespace Handshake

open Transition Calls

inductive ClientPhase
  | waits
  | prepares
  | connected
  | left
deriving DecidableEq, Repr

inductive ServerPhase
  | prepares
  | accepts
  | serves
  | left
deriving DecidableEq, Repr

structure View where
  client : ClientPhase
  server : ServerPhase
  tokens : Nat
  pending : Nat
  accepted : Nat
deriving DecidableEq, Repr

/-- A token is lost only when someone leaves while no server is there to hold the pipe. -/
inductive Step : View → View → Prop
  | announce {view} (server : view.server = .prepares) :
      Step view { view with server := .accepts, tokens := view.tokens + 1 }
  | release {view} (client : view.client = .waits) (some : 0 < view.tokens) :
      Step view { view with client := .prepares, tokens := view.tokens - 1 }
  | connect {view} (client : view.client = .prepares) :
      Step view { view with client := .connected, pending := view.pending + 1 }
  | accept {view} (server : view.server = .accepts) (some : 0 < view.pending) :
      Step view { view with
        server := .serves
        pending := view.pending - 1
        accepted := view.accepted + 1 }
  | clientLeaves {view} (tokens : Nat) (fewer : tokens ≤ view.tokens)
      (held : view.server = .accepts → tokens = view.tokens) :
      Step view { view with client := .left, tokens := tokens }
  | serverLeaves {view} (tokens : Nat) (fewer : tokens ≤ view.tokens)
      (server : view.server ≠ .accepts) :
      Step view { view with server := .left, tokens := tokens }

/-- There is one token, it becomes one connection, and that is accepted once. -/
structure Sound (view : View) : Prop where
  once : view.tokens + view.pending + view.accepted ≤ 1
  fresh : view.server = .prepares → view.tokens + view.pending + view.accepted = 0 ∧
    (view.client = .waits ∨ view.client = .left)
  waits : view.client = .waits → view.pending + view.accepted = 0 ∧ view.server ≠ .serves ∧
    (view.server = .accepts ∧ view.tokens = 1 ∨ view.server ≠ .accepts ∧ view.tokens = 0)
  prepares : view.client = .prepares → view.server = .accepts ∧
    view.tokens + view.pending + view.accepted = 0
  connected : view.client = .connected → view.tokens = 0 ∧
    (view.server = .accepts ∧ view.pending = 1 ∨
      (view.server = .serves ∨ view.server = .left) ∧ view.accepted = 1)
  serves : view.server = .serves → view.accepted = 1

def View.initial : View where
  client := .waits
  server := .prepares
  tokens := 0
  pending := 0
  accepted := 0

theorem Sound.initial : Sound View.initial := by
  constructor <;> simp [View.initial]

theorem Sound.step {view next : View} (sound : Sound view) (taken : Step view next) :
    Sound next := by
  have once := sound.once
  cases taken with
  | announce server =>
      obtain ⟨none, client⟩ := sound.fresh server
      constructor
      · simp only
        omega
      · simp
      · intro waits
        exact ⟨by simp only; omega, by simp, Or.inl ⟨rfl, by simp only; omega⟩⟩
      · intro prepares
        simp only at prepares
        simp [prepares] at client
      · intro connected
        simp only at connected
        simp [connected] at client
      · simp
  | release client some =>
      obtain ⟨none, _, either⟩ := sound.waits client
      have accepts : view.server = .accepts := by
        rcases either with ⟨accepts, _⟩ | ⟨_, empty⟩
        · exact accepts
        · omega
      constructor
      · simp only
        omega
      · simp [accepts]
      · simp
      · intro _
        refine ⟨accepts, by simp only; omega⟩
      · simp
      · simp [accepts]
  | connect client =>
      obtain ⟨accepts, none⟩ := sound.prepares client
      constructor
      · simp only
        omega
      · simp [accepts]
      · simp
      · simp
      · intro _
        exact ⟨by simp only; omega, Or.inl ⟨accepts, by simp only; omega⟩⟩
      · simp [accepts]
  | accept server some =>
      constructor
      · simp only
        omega
      · simp
      · intro waits
        have := (sound.waits waits).1
        omega
      · intro prepares
        have := (sound.prepares prepares).2
        omega
      · intro connected
        exact ⟨by simp only; omega, Or.inr ⟨Or.inl rfl, by simp only; omega⟩⟩
      · intro _
        simp only
        omega
  | clientLeaves tokens fewer held =>
      constructor
      · simp only
        omega
      · intro server
        have := (sound.fresh server).1
        exact ⟨by simp only; omega, Or.inr rfl⟩
      · simp
      · simp
      · simp
      · intro server
        exact sound.serves server
  | serverLeaves tokens fewer server =>
      constructor
      · simp only
        omega
      · simp
      · intro waits
        obtain ⟨none, _, either⟩ := sound.waits waits
        refine ⟨none, by simp, Or.inr ⟨by simp, ?_⟩⟩
        rcases either with ⟨accepts, _⟩ | ⟨_, empty⟩
        · exact absurd accepts server
        · simp only
          omega
      · intro prepares
        exact absurd (sound.prepares prepares).1 server
      · intro connected
        obtain ⟨none, either⟩ := sound.connected connected
        refine ⟨by simp only; omega, Or.inr ⟨Or.inr rfl, ?_⟩⟩
        rcases either with ⟨accepts, _⟩ | ⟨_, accepted⟩
        · exact absurd accepts server
        · exact accepted
      · simp

/-- Who serves, serves a client that has connected. -/
theorem Sound.partner {view : View} (sound : Sound view) (serves : view.server = .serves) :
    view.client = .connected ∨ view.client = .left := by
  have accepted := sound.serves serves
  cases phase : view.client with
  | connected => exact Or.inl rfl
  | left => exact Or.inr rfl
  | waits => exact absurd serves (sound.waits phase).2.1
  | prepares =>
      have none := (sound.prepares phase).2
      omega

theorem Sound.follow {view next : View} (sound : Sound view)
    (follows : next = view ∨ Step view next) : Sound next := by
  rcases follows with rfl | taken
  · exact sound
  · exact sound.step taken

/-! What the calls of the two parties do. -/

/-- The server's socket, the connections to it, and a pipe that either party may have open
for both reading and writing. `occupied` is a name in use for the address to bind. -/
structure Kernel (Address : Type) where
  occupied : Bool
  bound : Option Address
  listening : Bool
  pending : Nat
  accepted : Nat
  clientOpen : Bool
  serverOpen : Bool
  tokens : Nat
deriving DecidableEq, Repr

inductive NetCall (Address : Type)
  | socket (address : Address)
  | remove
  | bind (address : Address)
  | listen
  | connect (address : Address)
  | accept
  | closeListener
  | openFifo
  | writeToken
  | readToken
  | other
  | exit
deriving DecidableEq, Repr

namespace Kernel

variable {Address : Type}

def start (occupied : Bool) : Kernel Address where
  occupied := occupied
  bound := none
  listening := false
  pending := 0
  accepted := 0
  clientOpen := false
  serverOpen := false
  tokens := 0

def isOpen (kernel : Kernel Address) : Peer → Bool
  | .client => kernel.clientOpen
  | .server => kernel.serverOpen

def openFifo (kernel : Kernel Address) : Peer → Kernel Address
  | .client => { kernel with clientOpen := true }
  | .server => { kernel with serverOpen := true }

/-- What is in the pipe is lost when nobody has it open any more. -/
def leave (kernel : Kernel Address) : Peer → Kernel Address
  | .client => { kernel with
      clientOpen := false
      tokens := if kernel.serverOpen then kernel.tokens else 0 }
  | .server => { kernel with
      serverOpen := false
      listening := false
      bound := none
      tokens := if kernel.clientOpen then kernel.tokens else 0 }

end Kernel

section Perform

variable {Address : Type} [DecidableEq Address] (supported : Address → Bool)

def perform (peer : Peer) :
    NetCall Address → Outcome → Kernel Address → Option (Kernel Address)
  | .socket address, .succeeds, kernel => if supported address then some kernel else none
  | .remove, .succeeds, kernel =>
      if kernel.occupied then some { kernel with occupied := false } else none
  | .bind address, .succeeds, kernel =>
      if kernel.occupied then none
      else some { kernel with occupied := true, bound := some address }
  | .listen, .succeeds, kernel => some { kernel with listening := true }
  | .connect address, .succeeds, kernel =>
      if kernel.listening = true ∧ kernel.bound = some address then
        some { kernel with pending := kernel.pending + 1 }
      else none
  | .accept, .succeeds, kernel =>
      if kernel.listening = true ∧ 0 < kernel.pending then
        some { kernel with pending := kernel.pending - 1, accepted := kernel.accepted + 1 }
      else none
  | .accept, .fails, kernel =>
      if kernel.listening = true ∧ kernel.pending = 0 then none else some kernel
  | .closeListener, .succeeds, kernel => some { kernel with listening := false, bound := none }
  | .openFifo, .succeeds, kernel => some (kernel.openFifo peer)
  | .writeToken, .succeeds, kernel =>
      if kernel.isOpen peer then some { kernel with tokens := kernel.tokens + 1 } else none
  | .readToken, .succeeds, kernel =>
      if kernel.isOpen peer = true ∧ 0 < kernel.tokens then
        some { kernel with tokens := kernel.tokens - 1 }
      else none
  | .readToken, .fails, kernel =>
      if kernel.isOpen peer = true ∧ kernel.tokens = 0 then none else some kernel
  | .exit, .succeeds, kernel => some (kernel.leave peer)
  | .exit, .fails, _ => none
  | _, _, kernel => some kernel

def excused (kernel : Kernel Address) : NetCall Address → Bool
  | .socket address => !supported address
  | .remove => !kernel.occupied
  | _ => false

end Perform

section Views

variable {Address ClientPlace ServerPlace : Type}

def view (client : ClientPlace → ClientPhase) (server : ServerPlace → ServerPhase)
    (duo : Duo (Kernel Address) ClientPlace ServerPlace) : View where
  client := client duo.client
  server := server duo.server
  tokens := duo.shared.tokens
  pending := duo.shared.pending
  accepted := duo.shared.accepted

def NetCall.quiet : NetCall Address → Bool
  | .connect _ => false
  | .accept => false
  | .writeToken => false
  | .readToken => false
  | .exit => false
  | _ => true

def NetCall.serves : NetCall Address → Bool
  | .remove => true
  | .bind _ => true
  | .listen => true
  | .accept => true
  | .closeListener => true
  | .writeToken => true
  | _ => false

structure ServerFollows (server : Program ServerPlace (NetCall Address))
    (phase : ServerPlace → ServerPhase) : Prop where
  quiet : ∀ place call outcome, server.call place = some call → call.quiet = true →
    phase (server.next place outcome) = phase place ∨
      phase (server.next place outcome) = .left ∧ phase place ≠ .accepts
  announces : ∀ place, server.call place = some .writeToken → phase place = .prepares ∧
    phase (server.next place .succeeds) = .accepts ∧ phase (server.next place .fails) = .left
  accepts : ∀ place, server.call place = some .accept → phase place = .accepts ∧
    phase (server.next place .succeeds) = .serves ∧ phase (server.next place .fails) = .accepts
  exits : ∀ place outcome, server.call place = some .exit → phase place = .left ∧
    phase (server.next place outcome) = .left
  never : ∀ place, server.call place ≠ some .readToken ∧
    ∀ address, server.call place ≠ some (.connect address)
  ends : ∀ place, server.call place = none → phase place = .serves ∨ phase place = .left

structure ClientFollows (client : Program ClientPlace (NetCall Address))
    (phase : ClientPlace → ClientPhase) : Prop where
  quiet : ∀ place call outcome, client.call place = some call → call.quiet = true →
    phase (client.next place outcome) = phase place ∨ phase (client.next place outcome) = .left
  reads : ∀ place, client.call place = some .readToken → phase place = .waits ∧
    phase (client.next place .succeeds) = .prepares ∧ phase (client.next place .fails) = .left
  connects : ∀ place address, client.call place = some (.connect address) →
    phase place = .prepares ∧ phase (client.next place .succeeds) = .connected ∧
      phase (client.next place .fails) = .left
  exits : ∀ place outcome, client.call place = some .exit → phase place = .left ∧
    phase (client.next place outcome) = .left
  never : ∀ place call, client.call place = some call → call.serves = false
  ends : ∀ place, client.call place = none → phase place = .connected ∨ phase place = .left

theorem perform_quiet [DecidableEq Address] {supported : Address → Bool} {peer : Peer}
    {call : NetCall Address} {outcome : Outcome} {kernel next : Kernel Address}
    (quiet : call.quiet = true) (performed : perform supported peer call outcome kernel = some next) :
    next.tokens = kernel.tokens ∧ next.pending = kernel.pending ∧
      next.accepted = kernel.accepted := by
  cases call with
  | connect address => cases quiet
  | accept => cases quiet
  | writeToken => cases quiet
  | readToken => cases quiet
  | exit => cases quiet
  | openFifo =>
      cases outcome <;> cases peer <;> (cases performed; exact ⟨rfl, rfl, rfl⟩)
  | socket address =>
      cases outcome with
      | succeeds =>
          simp only [perform] at performed
          split at performed <;> cases performed
          exact ⟨rfl, rfl, rfl⟩
      | fails =>
          cases performed
          exact ⟨rfl, rfl, rfl⟩
  | remove =>
      cases outcome with
      | succeeds =>
          simp only [perform] at performed
          split at performed <;> cases performed
          exact ⟨rfl, rfl, rfl⟩
      | fails =>
          cases performed
          exact ⟨rfl, rfl, rfl⟩
  | bind address =>
      cases outcome with
      | succeeds =>
          simp only [perform] at performed
          split at performed <;> cases performed
          exact ⟨rfl, rfl, rfl⟩
      | fails =>
          cases performed
          exact ⟨rfl, rfl, rfl⟩
  | listen =>
      cases outcome <;> (cases performed; exact ⟨rfl, rfl, rfl⟩)
  | closeListener =>
      cases outcome <;> (cases performed; exact ⟨rfl, rfl, rfl⟩)
  | other =>
      cases outcome <;> (cases performed; exact ⟨rfl, rfl, rfl⟩)

section Follows

variable [DecidableEq Address] {supported : Address → Bool}
  {client : Program ClientPlace (NetCall Address)} {server : Program ServerPlace (NetCall Address)}
  {clientPhase : ClientPlace → ClientPhase} {serverPhase : ServerPlace → ServerPhase}
  {duo next : Duo (Kernel Address) ClientPlace ServerPlace} {outcome : Outcome}

theorem client_step (follows : ClientFollows client clientPhase)
    (held : serverPhase duo.server = .accepts → duo.shared.serverOpen = true)
    {call : NetCall Address} {kernel : Kernel Address}
    (at_call : client.call duo.client = some call)
    (performed : perform supported .client call outcome duo.shared = some kernel)
    (same : next = { duo with shared := kernel, client := client.next duo.client outcome }) :
    view clientPhase serverPhase next = view clientPhase serverPhase duo ∨
      Step (view clientPhase serverPhase duo) (view clientPhase serverPhase next) := by
  subst same
  have leaves : ∀ tokens, tokens ≤ duo.shared.tokens →
      (serverPhase duo.server = .accepts → tokens = duo.shared.tokens) →
      Step (view clientPhase serverPhase duo)
        ⟨.left, serverPhase duo.server, tokens, duo.shared.pending, duo.shared.accepted⟩ :=
    fun tokens fewer kept => Step.clientLeaves tokens fewer kept
  cases quiet : call.quiet with
  | true =>
      obtain ⟨tokens, pending, accepted⟩ := perform_quiet quiet performed
      rcases follows.quiet duo.client call outcome at_call quiet with stays | left
      · refine Or.inl ?_
        simp [view, stays, tokens, pending, accepted]
      · refine Or.inr ?_
        simp only [view, left, tokens, pending, accepted]
        exact leaves _ (Nat.le_refl _) fun _ => rfl
  | false =>
      cases call with
      | connect address =>
          obtain ⟨prepares, connected, left⟩ := follows.connects duo.client address at_call
          cases outcome with
          | succeeds =>
              simp only [perform] at performed
              split at performed
              · cases performed
                refine Or.inr ?_
                simp only [view, connected]
                exact Step.connect prepares
              · cases performed
          | fails =>
              cases performed
              refine Or.inr ?_
              simp only [view, left]
              exact leaves _ (Nat.le_refl _) fun _ => rfl
      | readToken =>
          obtain ⟨waits, prepares, left⟩ := follows.reads duo.client at_call
          cases outcome with
          | succeeds =>
              simp only [perform] at performed
              split at performed
              · rename_i some
                cases performed
                refine Or.inr ?_
                simp only [view, prepares]
                exact Step.release waits some.2
              · cases performed
          | fails =>
              simp only [perform] at performed
              split at performed
              · cases performed
              · cases performed
                refine Or.inr ?_
                simp only [view, left]
                exact leaves _ (Nat.le_refl _) fun _ => rfl
      | exit =>
          obtain ⟨_, left⟩ := follows.exits duo.client outcome at_call
          cases outcome with
          | succeeds =>
              cases performed
              refine Or.inr ?_
              simp only [view, left, Kernel.leave]
              apply leaves
              · split
                · exact Nat.le_refl _
                · exact Nat.zero_le _
              · intro accepts
                rw [if_pos (held accepts)]
          | fails => cases performed
      | accept => cases follows.never duo.client _ at_call
      | writeToken => cases follows.never duo.client _ at_call
      | socket address => cases quiet
      | remove => cases quiet
      | bind address => cases quiet
      | listen => cases quiet
      | closeListener => cases quiet
      | openFifo => cases quiet
      | other => cases quiet

theorem server_step (follows : ServerFollows server serverPhase)
    {call : NetCall Address} {kernel : Kernel Address}
    (at_call : server.call duo.server = some call)
    (performed : perform supported .server call outcome duo.shared = some kernel)
    (same : next = { duo with shared := kernel, server := server.next duo.server outcome }) :
    view clientPhase serverPhase next = view clientPhase serverPhase duo ∨
      Step (view clientPhase serverPhase duo) (view clientPhase serverPhase next) := by
  subst same
  have leaves : ∀ tokens, tokens ≤ duo.shared.tokens → serverPhase duo.server ≠ .accepts →
      Step (view clientPhase serverPhase duo)
        ⟨clientPhase duo.client, .left, tokens, duo.shared.pending, duo.shared.accepted⟩ :=
    fun tokens fewer away => Step.serverLeaves tokens fewer away
  cases quiet : call.quiet with
  | true =>
      obtain ⟨tokens, pending, accepted⟩ := perform_quiet quiet performed
      rcases follows.quiet duo.server call outcome at_call quiet with stays | ⟨left, away⟩
      · refine Or.inl ?_
        simp [view, stays, tokens, pending, accepted]
      · refine Or.inr ?_
        simp only [view, left, tokens, pending, accepted]
        exact leaves _ (Nat.le_refl _) away
  | false =>
      cases call with
      | accept =>
          obtain ⟨accepts, serves, again⟩ := follows.accepts duo.server at_call
          cases outcome with
          | succeeds =>
              simp only [perform] at performed
              split at performed
              · rename_i some
                cases performed
                refine Or.inr ?_
                simp only [view, serves]
                exact Step.accept accepts some.2
              · cases performed
          | fails =>
              simp only [perform] at performed
              split at performed
              · cases performed
              · cases performed
                refine Or.inl ?_
                simp [view, again, accepts]
      | writeToken =>
          obtain ⟨prepares, accepts, left⟩ := follows.announces duo.server at_call
          cases outcome with
          | succeeds =>
              simp only [perform] at performed
              split at performed
              · cases performed
                refine Or.inr ?_
                simp only [view, accepts]
                exact Step.announce prepares
              · cases performed
          | fails =>
              cases performed
              refine Or.inr ?_
              simp only [view, left]
              exact leaves _ (Nat.le_refl _) (by simp [prepares])
      | exit =>
          obtain ⟨gone, left⟩ := follows.exits duo.server outcome at_call
          cases outcome with
          | succeeds =>
              cases performed
              refine Or.inr ?_
              simp only [view, left, Kernel.leave]
              apply leaves _ _ (by simp [gone])
              split
              · exact Nat.le_refl _
              · exact Nat.zero_le _
          | fails => cases performed
      | connect address => exact absurd at_call ((follows.never duo.server).2 address)
      | readToken => exact absurd at_call (follows.never duo.server).1
      | socket address => cases quiet
      | remove => cases quiet
      | bind address => cases quiet
      | listen => cases quiet
      | closeListener => cases quiet
      | openFifo => cases quiet
      | other => cases quiet

theorem client_kept {kernel later : Kernel Address} {call : NetCall Address}
    (own : call.serves = false)
    (performed : perform supported .client call outcome kernel = some later) :
    later.occupied = kernel.occupied ∧ later.bound = kernel.bound ∧
      later.listening = kernel.listening ∧ later.serverOpen = kernel.serverOpen := by
  cases call with
  | remove => cases own
  | bind address => cases own
  | listen => cases own
  | accept => cases own
  | closeListener => cases own
  | writeToken => cases own
  | openFifo =>
      cases outcome <;> (cases performed; exact ⟨rfl, rfl, rfl, rfl⟩)
  | exit =>
      cases outcome <;> cases performed
      exact ⟨rfl, rfl, rfl, rfl⟩
  | other =>
      cases outcome <;> (cases performed; exact ⟨rfl, rfl, rfl, rfl⟩)
  | socket address =>
      cases outcome with
      | succeeds =>
          simp only [perform] at performed
          split at performed <;> cases performed
          exact ⟨rfl, rfl, rfl, rfl⟩
      | fails =>
          cases performed
          exact ⟨rfl, rfl, rfl, rfl⟩
  | connect address =>
      cases outcome with
      | succeeds =>
          simp only [perform] at performed
          split at performed <;> cases performed
          exact ⟨rfl, rfl, rfl, rfl⟩
      | fails =>
          cases performed
          exact ⟨rfl, rfl, rfl, rfl⟩
  | readToken =>
      cases outcome <;> simp only [perform] at performed <;> split at performed <;>
        cases performed <;> exact ⟨rfl, rfl, rfl, rfl⟩

theorem server_kept {kernel later : Kernel Address} {call : NetCall Address}
    (performed : perform supported .server call outcome kernel = some later) :
    later.clientOpen = kernel.clientOpen := by
  cases call <;> cases outcome <;> simp only [perform] at performed <;>
    first
    | (split at performed <;> cases performed <;> rfl)
    | (cases performed; rfl)
    | cases performed

theorem opened_step (follows : ServerFollows server serverPhase) {place : ServerPlace}
    {kernel later : Kernel Address} {call : NetCall Address}
    (held : serverPhase place = .accepts → kernel.serverOpen = true)
    (at_call : server.call place = some call)
    (performed : perform supported .server call outcome kernel = some later)
    (accepts : serverPhase (server.next place outcome) = .accepts) : later.serverOpen = true := by
  cases quiet : call.quiet with
  | true =>
      have opened : kernel.serverOpen = true := by
        rcases follows.quiet place call outcome at_call quiet with stays | ⟨left, _⟩
        · exact held (stays.symm.trans accepts)
        · rw [accepts] at left
          cases left
      cases call <;> cases outcome <;> simp only [perform] at performed <;>
        first
        | (split at performed <;> cases performed <;> exact opened)
        | (cases performed; first | exact opened | rfl)
        | cases quiet
  | false =>
      cases call with
      | writeToken =>
          cases outcome with
          | succeeds =>
              simp only [perform] at performed
              split at performed
              · rename_i opened
                cases performed
                exact opened
              · cases performed
          | fails =>
              rw [(follows.announces place at_call).2.2] at accepts
              cases accepts
      | accept =>
          cases outcome with
          | succeeds =>
              rw [(follows.accepts place at_call).2.1] at accepts
              cases accepts
          | fails =>
              simp only [perform] at performed
              split at performed <;> cases performed
              exact held (follows.accepts place at_call).1
      | exit =>
          rw [(follows.exits place outcome at_call).2] at accepts
          cases accepts
      | connect address => exact absurd at_call ((follows.never place).2 address)
      | readToken => exact absurd at_call (follows.never place).1
      | socket address => cases quiet
      | remove => cases quiet
      | bind address => cases quiet
      | listen => cases quiet
      | closeListener => cases quiet
      | openFifo => cases quiet
      | other => cases quiet

theorem waits_of_none {kernel : Kernel Address} {peer : Peer} {call : NetCall Address}
    (none : ∀ outcome, perform supported peer call outcome kernel = none) :
    call = .accept ∧ kernel.listening = true ∧ kernel.pending = 0 ∨
      call = .readToken ∧ kernel.tokens = 0 := by
  have succeeds := none .succeeds
  have fails := none .fails
  cases call with
  | accept =>
      simp only [perform, ite_eq_left_iff, reduceCtorEq, imp_false, Classical.not_not] at fails
      exact Or.inl ⟨rfl, fails⟩
  | readToken =>
      simp only [perform, ite_eq_left_iff, reduceCtorEq, imp_false, Classical.not_not] at fails
      exact Or.inr ⟨rfl, fails.2⟩
  | exit => cases succeeds
  | socket address => cases fails
  | remove => cases fails
  | bind address => cases fails
  | listen => cases fails
  | connect address => cases fails
  | closeListener => cases fails
  | openFifo => cases fails
  | writeToken => cases fails
  | other => cases fails

omit [DecidableEq Address] in
/-- Two parties of a sound handshake both wait only at its end, or when one has left. -/
theorem settled_of_waits (clientFollows : ClientFollows client clientPhase)
    (serverFollows : ServerFollows server serverPhase)
    (sound : Sound (view clientPhase serverPhase duo))
    (clientWaits : ∀ call, client.call duo.client = some call →
      call = .readToken ∧ duo.shared.tokens = 0)
    (serverWaits : ∀ call, server.call duo.server = some call →
      call = .accept ∧ duo.shared.pending = 0) :
    client.call duo.client = none ∧ clientPhase duo.client = .connected ∧
        server.call duo.server = none ∧ serverPhase duo.server = .serves ∨
      clientPhase duo.client = .left ∨ serverPhase duo.server = .left := by
  cases clientCall : client.call duo.client with
  | some call =>
      obtain ⟨rfl, empty⟩ := clientWaits call clientCall
      obtain ⟨none, away, either⟩ := sound.waits (clientFollows.reads duo.client clientCall).1
      cases serverCall : server.call duo.server with
      | some call =>
          obtain ⟨rfl, idle⟩ := serverWaits call serverCall
          have accepts : serverPhase duo.server = .accepts :=
            (serverFollows.accepts duo.server serverCall).1
          rcases either with ⟨_, one⟩ | ⟨other, _⟩
          · change duo.shared.tokens = 1 at one
            omega
          · exact absurd accepts other
      | none =>
          rcases serverFollows.ends duo.server serverCall with serves | left
          · exact absurd serves away
          · exact Or.inr (Or.inr left)
  | none =>
      rcases clientFollows.ends duo.client clientCall with connected | left
      · obtain ⟨_, either⟩ := sound.connected connected
        cases serverCall : server.call duo.server with
        | some call =>
            obtain ⟨rfl, idle⟩ := serverWaits call serverCall
            have accepts : serverPhase duo.server = .accepts :=
              (serverFollows.accepts duo.server serverCall).1
            rcases either with ⟨_, one⟩ | ⟨other, _⟩
            · change duo.shared.pending = 1 at one
              omega
            · change serverPhase duo.server = _ ∨ serverPhase duo.server = _ at other
              simp [accepts] at other
        | none =>
            rcases serverFollows.ends duo.server serverCall with serves | left
            · exact Or.inl ⟨rfl, connected, rfl, serves⟩
            · exact Or.inr (Or.inr left)
      · exact Or.inr (Or.inl left)

theorem stuck_settled (clientFollows : ClientFollows client clientPhase)
    (serverFollows : ServerFollows server serverPhase)
    (sound : Sound (view clientPhase serverPhase duo))
    (stuck : System.Stuck ⟨client, server, perform supported⟩ duo) :
    client.call duo.client = none ∧ clientPhase duo.client = .connected ∧
        server.call duo.server = none ∧ serverPhase duo.server = .serves ∨
      clientPhase duo.client = .left ∨ serverPhase duo.server = .left := by
  refine settled_of_waits clientFollows serverFollows sound ?_ ?_
  · intro call at_call
    rcases waits_of_none (stuck.client at_call) with ⟨rfl, _⟩ | waits
    · cases clientFollows.never duo.client _ at_call
    · exact waits
  · intro call at_call
    rcases waits_of_none (stuck.server at_call) with ⟨rfl, _, idle⟩ | ⟨rfl, _⟩
    · exact ⟨rfl, idle⟩
    · exact absurd at_call (serverFollows.never duo.server).1

/-! Runs without trouble. -/

def troubled (supported : Address → Bool) (client : Program ClientPlace (NetCall Address))
    (server : Program ServerPlace (NetCall Address))
    (duo : Duo (Kernel Address) ClientPlace ServerPlace) : Peer × Outcome → Bool
  | (_, .succeeds) => false
  | (.client, .fails) =>
      (client.call duo.client).any fun call => !excused supported duo.shared call
  | (.server, .fails) =>
      (server.call duo.server).any fun call => !excused supported duo.shared call

theorem calm_client (taken : (System.mk client server (perform supported)).machine.step duo
      (.client, outcome) = some next) (calm : troubled supported client server duo
      (.client, outcome) = false) :
    ∃ call kernel, client.call duo.client = some call ∧
      perform supported .client call outcome duo.shared = some kernel ∧
      next = { duo with shared := kernel, client := client.next duo.client outcome } ∧
      (outcome = .fails → excused supported duo.shared call = true) := by
  obtain ⟨call, kernel, at_call, performed, same⟩ := System.step_client.mp taken
  refine ⟨call, kernel, at_call, performed, same, ?_⟩
  rintro rfl
  change client.call duo.client = some call at at_call
  simpa [troubled, at_call] using calm

theorem calm_server (taken : (System.mk client server (perform supported)).machine.step duo
      (.server, outcome) = some next) (calm : troubled supported client server duo
      (.server, outcome) = false) :
    ∃ call kernel, server.call duo.server = some call ∧
      perform supported .server call outcome duo.shared = some kernel ∧
      next = { duo with shared := kernel, server := server.next duo.server outcome } ∧
      (outcome = .fails → excused supported duo.shared call = true) := by
  obtain ⟨call, kernel, at_call, performed, same⟩ := System.step_server.mp taken
  refine ⟨call, kernel, at_call, performed, same, ?_⟩
  rintro rfl
  change server.call duo.server = some call at at_call
  simpa [troubled, at_call] using calm

structure Smooth (client : Program ClientPlace (NetCall Address))
    (server : Program ServerPlace (NetCall Address))
    (duo : Duo (Kernel Address) ClientPlace ServerPlace) : Prop where
  bind : ∀ address, server.call duo.server = some (.bind address) → duo.shared.occupied = false
  connect : ∀ address, client.call duo.client = some (.connect address) →
    duo.shared.listening = true ∧ duo.shared.bound = some address
  writes : server.call duo.server = some .writeToken → duo.shared.serverOpen = true
  reads : client.call duo.client = some .readToken → duo.shared.clientOpen = true
  accepts : server.call duo.server = some .accept → duo.shared.listening = true

theorem waits_of_calm {kernel : Kernel Address} {peer : Peer} {call : NetCall Address}
    (halts : ∀ outcome, (outcome = .fails → excused supported kernel call = true) →
      perform supported peer call outcome kernel = none)
    (bind : ∀ address, call = .bind address → kernel.occupied = false)
    (connect : ∀ address, call = .connect address →
      kernel.listening = true ∧ kernel.bound = some address)
    (opened : call = .writeToken ∨ call = .readToken → kernel.isOpen peer = true)
    (accepts : call = .accept → kernel.listening = true) :
    call = .accept ∧ kernel.pending = 0 ∨ call = .readToken ∧ kernel.tokens = 0 := by
  have succeeds := halts .succeeds (by simp)
  cases call with
  | accept =>
      refine Or.inl ⟨rfl, ?_⟩
      simpa [perform, accepts rfl] using succeeds
  | readToken =>
      refine Or.inr ⟨rfl, ?_⟩
      simpa [perform, opened (Or.inr rfl)] using succeeds
  | writeToken => simp [perform, opened (Or.inl rfl)] at succeeds
  | bind address => simp [perform, bind address rfl] at succeeds
  | connect address => simp [perform, connect address rfl] at succeeds
  | socket address =>
      cases kind : supported address with
      | true => simp [perform, kind] at succeeds
      | false => cases halts .fails (by simp [excused, kind])
  | remove =>
      cases kind : kernel.occupied with
      | true => simp [perform, kind] at succeeds
      | false => cases halts .fails (by simp [excused, kind])
  | listen => cases succeeds
  | closeListener => cases succeeds
  | openFifo => cases succeeds
  | other => cases succeeds
  | exit => cases succeeds

/-- Without trouble too the two go on until the handshake is complete or one has left. -/
theorem smooth_goes (clientFollows : ClientFollows client clientPhase)
    (serverFollows : ServerFollows server serverPhase)
    (sound : Sound (view clientPhase serverPhase duo)) (smooth : Smooth client server duo) :
    (client.call duo.client = none ∧ clientPhase duo.client = .connected ∧
          server.call duo.server = none ∧ serverPhase duo.server = .serves ∨
        clientPhase duo.client = .left ∨ serverPhase duo.server = .left) ∨
      ∃ action next, troubled supported client server duo action = false ∧
        (System.mk client server (perform supported)).machine.step duo action = some next := by
  by_cases goes : ∃ action next, troubled supported client server duo action = false ∧
      (System.mk client server (perform supported)).machine.step duo action = some next
  · exact Or.inr goes
  refine Or.inl (settled_of_waits clientFollows serverFollows sound ?_ ?_)
  · intro call at_call
    have own := clientFollows.never duo.client call at_call
    have halts : ∀ outcome, (outcome = .fails → excused supported duo.shared call = true) →
        perform supported .client call outcome duo.shared = none := by
      intro outcome calm
      refine Option.eq_none_iff_forall_ne_some.mpr fun kernel performed => goes ?_
      refine ⟨(.client, outcome), _, ?_,
        System.step_client.mpr ⟨call, kernel, at_call, performed, rfl⟩⟩
      cases outcome with
      | succeeds => rfl
      | fails => simp [troubled, at_call, calm rfl]
    have waits := waits_of_calm halts (by rintro address rfl; cases own)
      (by rintro address rfl; exact smooth.connect address at_call)
      (by
        rintro (rfl | rfl)
        · cases own
        · exact smooth.reads at_call)
      (by rintro rfl; cases own)
    rcases waits with ⟨rfl, _⟩ | waits
    · cases own
    · exact waits
  · intro call at_call
    have halts : ∀ outcome, (outcome = .fails → excused supported duo.shared call = true) →
        perform supported .server call outcome duo.shared = none := by
      intro outcome calm
      refine Option.eq_none_iff_forall_ne_some.mpr fun kernel performed => goes ?_
      refine ⟨(.server, outcome), _, ?_,
        System.step_server.mpr ⟨call, kernel, at_call, performed, rfl⟩⟩
      cases outcome with
      | succeeds => rfl
      | fails => simp [troubled, at_call, calm rfl]
    have never := serverFollows.never duo.server
    have waits := waits_of_calm halts (by rintro address rfl; exact smooth.bind address at_call)
      (by rintro address rfl; exact absurd at_call (never.2 address))
      (by
        rintro (rfl | rfl)
        · exact smooth.writes at_call
        · exact absurd at_call never.1)
      (by rintro rfl; exact smooth.accepts at_call)
    rcases waits with waits | ⟨rfl, _⟩
    · exact waits
    · exact absurd at_call never.1

end Follows

end Views

end Handshake
