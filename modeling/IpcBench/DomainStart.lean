import IpcBench.Handshake

/-!
The start of the domain transport. The server binds its socket and listens before it writes a
byte into the FIFO; the client reads that byte before it connects.
-/

namespace IpcBench

open Transition Calls Handshake

namespace DomainStart

/-- `main` of the server with `create_socket`, `setup_socket` and `accept_connection`. -/
inductive ServerPlace
  | socket
  | remove
  | bind
  | listen
  | openFifo
  | write
  | accept
  | sendBuffer
  | receiveBuffer
  | closeListener
  | sigaction
  | communicate
  | exit
  | gone
deriving DecidableEq, Repr

/-- `main` of the client with `create_connection` and `setup_socket`. -/
inductive ClientPlace
  | openFifo
  | read
  | socket
  | sendBuffer
  | receiveBuffer
  | connect
  | sigaction
  | communicate
  | exit
  | gone
deriving DecidableEq, Repr

/-- There is one address, the path of the socket. Where the source throws or returns
EXIT_FAILURE the process exits; a failed `accept` is tried again. -/
def server : Program ServerPlace (NetCall Unit) where
  call
    | .socket => some (.socket ())
    | .remove => some .remove
    | .bind => some (.bind ())
    | .listen => some .listen
    | .openFifo => some .openFifo
    | .write => some .writeToken
    | .accept => some .accept
    | .sendBuffer => some .other
    | .receiveBuffer => some .other
    | .closeListener => some .closeListener
    | .sigaction => some .other
    | .communicate => none
    | .exit => some .exit
    | .gone => none
  next
    | .socket, .succeeds => .remove
    | .socket, .fails => .exit
    -- the result of remove is ignored
    | .remove, _ => .bind
    | .bind, .succeeds => .listen
    | .bind, .fails => .exit
    | .listen, .succeeds => .openFifo
    | .listen, .fails => .exit
    -- open_fifo prints errno and returns -1, on which the write then fails
    | .openFifo, _ => .write
    | .write, .succeeds => .accept
    | .write, .fails => .exit
    | .accept, .succeeds => .sendBuffer
    | .accept, .fails => .accept
    | .sendBuffer, .succeeds => .receiveBuffer
    | .sendBuffer, .fails => .exit
    | .receiveBuffer, .succeeds => .closeListener
    | .receiveBuffer, .fails => .exit
    | .closeListener, _ => .sigaction
    | .sigaction, .succeeds => .communicate
    | .sigaction, .fails => .exit
    | .communicate, _ => .communicate
    | .exit, _ => .gone
    | .gone, _ => .gone

/-- A failed `socket` makes `create_connection` return -1, and it is called again. -/
def client : Program ClientPlace (NetCall Unit) where
  call
    | .openFifo => some .openFifo
    | .read => some .readToken
    | .socket => some (.socket ())
    | .sendBuffer => some .other
    | .receiveBuffer => some .other
    | .connect => some (.connect ())
    | .sigaction => some .other
    | .communicate => none
    | .exit => some .exit
    | .gone => none
  next
    | .openFifo, _ => .read
    | .read, .succeeds => .socket
    | .read, .fails => .exit
    | .socket, .succeeds => .sendBuffer
    | .socket, .fails => .socket
    | .sendBuffer, .succeeds => .receiveBuffer
    | .sendBuffer, .fails => .exit
    | .receiveBuffer, .succeeds => .connect
    | .receiveBuffer, .fails => .exit
    | .connect, .succeeds => .sigaction
    | .connect, .fails => .exit
    | .sigaction, .succeeds => .communicate
    | .sigaction, .fails => .exit
    | .communicate, _ => .communicate
    | .exit, _ => .gone
    | .gone, _ => .gone

def start : System (Kernel Unit) (NetCall Unit) ClientPlace ServerPlace where
  client := client
  server := server
  perform := perform fun _ => true

/-- A socket file of an earlier run may be left. -/
def initial (leftover : Bool) : Duo (Kernel Unit) ClientPlace ServerPlace where
  shared := Kernel.start leftover
  client := .openFifo
  server := .socket

def ClientPlace.phase : ClientPlace → ClientPhase
  | .openFifo => .waits
  | .read => .waits
  | .socket => .prepares
  | .sendBuffer => .prepares
  | .receiveBuffer => .prepares
  | .connect => .prepares
  | .sigaction => .connected
  | .communicate => .connected
  | .exit => .left
  | .gone => .left

def ServerPlace.phase : ServerPlace → ServerPhase
  | .socket => .prepares
  | .remove => .prepares
  | .bind => .prepares
  | .listen => .prepares
  | .openFifo => .prepares
  | .write => .prepares
  | .accept => .accepts
  | .sendBuffer => .serves
  | .receiveBuffer => .serves
  | .closeListener => .serves
  | .sigaction => .serves
  | .communicate => .serves
  | .exit => .left
  | .gone => .left

theorem client_follows : ClientFollows client ClientPlace.phase where
  quiet := by
    intro place call outcome at_call quiet
    cases place <;> cases outcome <;> cases at_call <;>
      first | exact Or.inl rfl | exact Or.inr rfl | cases quiet
  reads := by
    intro place at_call
    cases place <;> cases at_call
    exact ⟨rfl, rfl, rfl⟩
  connects := by
    intro place address at_call
    cases place <;> cases at_call
    exact ⟨rfl, rfl, rfl⟩
  exits := by
    intro place outcome at_call
    cases place <;> cases at_call
    exact ⟨rfl, rfl⟩
  never := by
    intro place call at_call
    cases place <;> cases at_call <;> rfl
  ends := by
    intro place at_end
    cases place <;> cases at_end
    · exact Or.inl rfl
    · exact Or.inr rfl

theorem server_follows : ServerFollows server ServerPlace.phase where
  quiet := by
    intro place call outcome at_call quiet
    cases place <;> cases outcome <;> cases at_call <;>
      first | exact Or.inl rfl | exact Or.inr ⟨rfl, by rintro ⟨⟩⟩ | cases quiet
  announces := by
    intro place at_call
    cases place <;> cases at_call
    exact ⟨rfl, rfl, rfl⟩
  accepts := by
    intro place at_call
    cases place <;> cases at_call
    exact ⟨rfl, rfl, rfl⟩
  exits := by
    intro place outcome at_call
    cases place <;> cases at_call
    exact ⟨rfl, rfl⟩
  never := by
    intro place
    cases place <;> exact ⟨nofun, nofun⟩
  ends := by
    intro place at_end
    cases place <;> cases at_end
    · exact Or.inl rfl
    · exact Or.inr rfl

def ServerPlace.listens : ServerPlace → Bool
  | .openFifo => true
  | .write => true
  | .accept => true
  | .sendBuffer => true
  | .receiveBuffer => true
  | .closeListener => true
  | _ => false

structure Ready (kernel : Kernel Unit) (place : ServerPlace) : Prop where
  bound : place = .listen → kernel.bound = some ()
  listens : place.listens = true → kernel.listening = true ∧ kernel.bound = some ()
  opened : place.phase = .accepts → kernel.serverOpen = true

variable {kernel later : Kernel Unit} {outcome : Outcome}
  {duo next : Duo (Kernel Unit) ClientPlace ServerPlace} {action : Peer × Outcome}

theorem Ready.client {place : ClientPlace} {other : ServerPlace} {call : NetCall Unit}
    (ready : Ready kernel other) (at_call : client.call place = some call)
    (performed : perform (fun _ => true) .client call outcome kernel = some later) :
    Ready later other := by
  obtain ⟨_, bound, listening, opened⟩ := client_kept (client_follows.never place call at_call) performed
  exact ⟨fun at_listen => bound.trans (ready.bound at_listen),
    fun listens => ⟨listening.trans (ready.listens listens).1,
      bound.trans (ready.listens listens).2⟩,
    fun accepts => opened.trans (ready.opened accepts)⟩

theorem Ready.server {place : ServerPlace} {call : NetCall Unit} (ready : Ready kernel place)
    (at_call : server.call place = some call)
    (performed : perform (fun _ => true) .server call outcome kernel = some later) :
    Ready later (server.next place outcome) := by
  cases place with
  | bind =>
      cases at_call
      cases outcome with
      | succeeds =>
          simp only [perform] at performed
          split at performed <;> cases performed
          exact ⟨fun _ => rfl, by rintro ⟨⟩, by rintro ⟨⟩⟩
      | fails => constructor <;> rintro ⟨⟩
  | listen =>
      cases at_call
      cases outcome with
      | succeeds =>
          cases performed
          exact ⟨by rintro ⟨⟩, fun _ => ⟨rfl, ready.bound rfl⟩, by rintro ⟨⟩⟩
      | fails => constructor <;> rintro ⟨⟩
  | openFifo =>
      cases at_call
      cases outcome <;> (cases performed; exact ⟨by rintro ⟨⟩, fun _ => ready.listens rfl, by rintro ⟨⟩⟩)
  | write =>
      cases at_call
      cases outcome with
      | succeeds =>
          simp only [perform] at performed
          split at performed
          · rename_i opened
            cases performed
            exact ⟨by rintro ⟨⟩, fun _ => ready.listens rfl, fun _ => opened⟩
          · cases performed
      | fails => constructor <;> rintro ⟨⟩
  | accept =>
      cases at_call
      cases outcome with
      | succeeds =>
          simp only [perform] at performed
          split at performed <;> cases performed
          exact ⟨by rintro ⟨⟩, fun _ => ready.listens rfl, by rintro ⟨⟩⟩
      | fails =>
          simp only [perform] at performed
          split at performed <;> cases performed
          exact ready
  | sendBuffer =>
      cases at_call
      cases outcome with
      | succeeds =>
          cases performed
          exact ⟨by rintro ⟨⟩, fun _ => ready.listens rfl, by rintro ⟨⟩⟩
      | fails => constructor <;> rintro ⟨⟩
  | receiveBuffer =>
      cases at_call
      cases outcome with
      | succeeds =>
          cases performed
          exact ⟨by rintro ⟨⟩, fun _ => ready.listens rfl, by rintro ⟨⟩⟩
      | fails => constructor <;> rintro ⟨⟩
  | socket => cases outcome <;> constructor <;> rintro ⟨⟩
  | remove => cases outcome <;> constructor <;> rintro ⟨⟩
  | closeListener => cases outcome <;> constructor <;> rintro ⟨⟩
  | sigaction => cases outcome <;> constructor <;> rintro ⟨⟩
  | communicate => cases at_call
  | exit => cases outcome <;> constructor <;> rintro ⟨⟩
  | gone => cases at_call

structure Begun (duo : Duo (Kernel Unit) ClientPlace ServerPlace) : Prop where
  ready : Ready duo.shared duo.server
  sound : Sound (view ClientPlace.phase ServerPlace.phase duo)

theorem Begun.initial (leftover : Bool) : Begun (initial leftover) where
  ready := by constructor <;> rintro ⟨⟩
  sound := Sound.initial

theorem Begun.step (begun : Begun duo) (taken : start.machine.step duo action = some next) :
    Begun next := by
  obtain ⟨peer, outcome⟩ := action
  cases peer with
  | client =>
      obtain ⟨call, kernel, at_call, performed, same⟩ := System.step_client.mp taken
      refine ⟨by rw [same]; exact begun.ready.client at_call performed, ?_⟩
      exact begun.sound.follow
        (client_step client_follows begun.ready.opened at_call performed same)
  | server =>
      obtain ⟨call, kernel, at_call, performed, same⟩ := System.step_server.mp taken
      refine ⟨by rw [same]; exact begun.ready.server at_call performed, ?_⟩
      exact begun.sound.follow (server_step server_follows at_call performed same)

/-- The client never connects in vain, a connection is never lost, and the two are stuck
only when both communicate or one has exited. -/
structure StartsSafely (duo : Duo (Kernel Unit) ClientPlace ServerPlace) : Prop where
  reaches : duo.client = .connect →
    duo.shared.listening = true ∧ duo.shared.bound = some () ∧ duo.server = .accept
  once : duo.shared.tokens + duo.shared.pending + duo.shared.accepted ≤ 1
  joined : duo.client = .communicate →
    duo.server = .accept ∧ duo.shared.pending = 1 ∨ duo.shared.accepted = 1
  answered : duo.server = .communicate → duo.shared.accepted = 1 ∧
    (duo.client.phase = .connected ∨ duo.client.phase = .left)
  stuck : start.Stuck duo → duo.client = .communicate ∧ duo.server = .communicate ∨
    duo.client.phase = .left ∨ duo.server.phase = .left

theorem ServerPlace.accept_of_phase {place : ServerPlace} (accepts : place.phase = .accepts) :
    place = .accept := by
  cases place <;> cases accepts
  rfl

theorem ServerPlace.communicate_of {place : ServerPlace} (ends : server.call place = none)
    (serves : place.phase = .serves) : place = .communicate := by
  cases place <;> cases ends <;> cases serves
  rfl

theorem ClientPlace.communicate_of {place : ClientPlace} (ends : client.call place = none)
    (connected : place.phase = .connected) : place = .communicate := by
  cases place <;> cases ends <;> cases connected
  rfl

theorem Begun.safely (begun : Begun duo) : StartsSafely duo where
  reaches := by
    intro connect
    have accept := ServerPlace.accept_of_phase
      (begun.sound.prepares (congrArg ClientPlace.phase connect)).1
    have listens := begun.ready.listens (congrArg ServerPlace.listens accept)
    exact ⟨listens.1, listens.2, accept⟩
  once := begun.sound.once
  joined := by
    intro communicate
    rcases (begun.sound.connected (congrArg ClientPlace.phase communicate)).2 with
      ⟨accepts, one⟩ | ⟨_, one⟩
    · exact Or.inl ⟨ServerPlace.accept_of_phase accepts, one⟩
    · exact Or.inr one
  answered := by
    intro communicate
    have serves : duo.server.phase = .serves := congrArg ServerPlace.phase communicate
    exact ⟨begun.sound.serves serves, begun.sound.partner serves⟩
  stuck := by
    intro stuck
    rcases stuck_settled client_follows server_follows begun.sound stuck with
      ⟨clientEnds, connected, serverEnds, serves⟩ | left
    · exact Or.inl ⟨ClientPlace.communicate_of clientEnds connected,
        ServerPlace.communicate_of serverEnds serves⟩
    · exact Or.inr left

/-! Runs in which no call fails that should not. -/

def trouble (duo : Duo (Kernel Unit) ClientPlace ServerPlace) (action : Peer × Outcome) : Bool :=
  troubled (fun _ => true) client server duo action

structure Calm (duo : Duo (Kernel Unit) ClientPlace ServerPlace) : Prop where
  clientStays : duo.client.phase ≠ .left
  serverStays : duo.server.phase ≠ .left
  bind : duo.server = .bind → duo.shared.occupied = false
  write : duo.server = .write → duo.shared.serverOpen = true
  read : duo.client = .read → duo.shared.clientOpen = true

theorem Calm.step (calm : Calm duo) (taken : start.machine.step duo action = some next)
    (untroubled : trouble duo action = false) : Calm next := by
  obtain ⟨peer, outcome⟩ := action
  have clientStays := calm.clientStays
  have serverStays := calm.serverStays
  cases peer with
  | client =>
      obtain ⟨call, kernel, at_call, performed, rfl, excuses⟩ := Handshake.calm_client taken untroubled
      obtain ⟨occupied, _, _, opened⟩ := client_kept (client_follows.never _ _ at_call) performed
      have place : (client.next duo.client outcome).phase ≠ .left ∧
          (client.next duo.client outcome = .read → kernel.clientOpen = true) := by
        cases outcome with
        | succeeds =>
            cases place : duo.client with
            | openFifo =>
                rw [place] at at_call
                cases at_call
                cases performed
                exact ⟨by rintro ⟨⟩, fun _ => rfl⟩
            | exit => exact absurd (congrArg ClientPlace.phase place) clientStays
            | gone => exact absurd (congrArg ClientPlace.phase place) clientStays
            | _ => constructor <;> rintro ⟨⟩
        | fails =>
            -- clients neither ask for unknown sockets nor remove anything
            have excused := excuses rfl
            cases place : duo.client <;> rw [place] at at_call <;> cases at_call <;> cases excused
      exact ⟨place.1, serverStays, fun at_bind => occupied.trans (calm.bind at_bind),
        fun at_write => opened.trans (calm.write at_write), place.2⟩
  | server =>
      obtain ⟨call, kernel, at_call, performed, rfl, excuses⟩ := Handshake.calm_server taken untroubled
      have place : (server.next duo.server outcome).phase ≠ .left ∧
          (server.next duo.server outcome = .bind → kernel.occupied = false) ∧
          (server.next duo.server outcome = .write → kernel.serverOpen = true) := by
        cases outcome with
        | succeeds =>
            cases place : duo.server with
            | remove =>
                rw [place] at at_call
                cases at_call
                simp only [perform] at performed
                split at performed <;> cases performed
                exact ⟨by rintro ⟨⟩, fun _ => rfl, by rintro ⟨⟩⟩
            | openFifo =>
                rw [place] at at_call
                cases at_call
                cases performed
                exact ⟨by rintro ⟨⟩, by rintro ⟨⟩, fun _ => rfl⟩
            | exit => exact absurd (congrArg ServerPlace.phase place) serverStays
            | gone => exact absurd (congrArg ServerPlace.phase place) serverStays
            | _ => refine ⟨?_, ?_, ?_⟩ <;> rintro ⟨⟩
        | fails =>
            have excused := excuses rfl
            cases place : duo.server with
            | remove =>
                rw [place] at at_call
                cases at_call
                cases performed
                exact ⟨by rintro ⟨⟩, fun _ => by simpa [Handshake.excused] using excused, by rintro ⟨⟩⟩
            | _ =>
                rw [place] at at_call
                cases at_call <;> cases excused
      exact ⟨clientStays, place.1, place.2.1, place.2.2,
        fun at_read => (server_kept performed).trans (calm.read at_read)⟩

def ClientPlace.left : ClientPlace → Nat
  | .openFifo => 9
  | .read => 8
  | .socket => 7
  | .sendBuffer => 6
  | .receiveBuffer => 5
  | .connect => 4
  | .sigaction => 3
  | .communicate => 0
  | .exit => 1
  | .gone => 0

def ServerPlace.left : ServerPlace → Nat
  | .socket => 13
  | .remove => 12
  | .bind => 11
  | .listen => 10
  | .openFifo => 9
  | .write => 8
  | .accept => 7
  | .sendBuffer => 6
  | .receiveBuffer => 5
  | .closeListener => 4
  | .sigaction => 3
  | .communicate => 0
  | .exit => 1
  | .gone => 0

def measure (duo : Duo (Kernel Unit) ClientPlace ServerPlace) : Nat :=
  duo.client.left + duo.server.left

theorem measure_le (duo : Duo (Kernel Unit) ClientPlace ServerPlace) : measure duo ≤ 22 := by
  have client : duo.client.left ≤ 9 := by cases duo.client <;> simp [ClientPlace.left]
  have server : duo.server.left ≤ 13 := by cases duo.server <;> simp [ServerPlace.left]
  unfold measure
  omega

/-- Only a failed `socket` of the client and a failed `accept` are tried again. -/
theorem measure_lowers (taken : start.machine.step duo action = some next)
    (untroubled : trouble duo action = false) : measure next < measure duo := by
  obtain ⟨peer, outcome⟩ := action
  cases peer with
  | client =>
      obtain ⟨call, kernel, at_call, _, rfl, excuses⟩ := Handshake.calm_client taken untroubled
      have lower : (client.next duo.client outcome).left < duo.client.left := by
        cases outcome with
        | succeeds =>
            cases place : duo.client <;> rw [place] at at_call <;> cases at_call <;> decide
        | fails =>
            have excused := excuses rfl
            cases place : duo.client <;> rw [place] at at_call <;> cases at_call <;> cases excused
      exact Nat.add_lt_add_right lower _
  | server =>
      obtain ⟨call, kernel, at_call, _, rfl, excuses⟩ := Handshake.calm_server taken untroubled
      have lower : (server.next duo.server outcome).left < duo.server.left := by
        cases outcome with
        | succeeds =>
            cases place : duo.server <;> rw [place] at at_call <;> cases at_call <;> decide
        | fails =>
            have excused := excuses rfl
            cases place : duo.server with
            | remove => decide
            | _ =>
                rw [place] at at_call
                cases at_call <;> cases excused
      exact Nat.add_lt_add_left lower _

theorem Begun.smooth (begun : Begun duo) (calm : Calm duo) : Smooth client server duo where
  bind := by
    intro address at_call
    apply calm.bind
    cases place : duo.server <;> rw [place] at at_call <;> cases at_call
  connect := by
    intro address at_call
    have connect : duo.client = .connect := by
      cases place : duo.client <;> rw [place] at at_call <;> cases at_call
    obtain ⟨listening, bound, _⟩ := begun.safely.reaches connect
    exact ⟨listening, bound⟩
  writes := by
    intro at_call
    apply calm.write
    cases place : duo.server <;> rw [place] at at_call <;> cases at_call
  reads := by
    intro at_call
    apply calm.read
    cases place : duo.client <;> rw [place] at at_call <;> cases at_call
  accepts := by
    intro at_call
    have accept : duo.server = .accept := by
      cases place : duo.server <;> rw [place] at at_call <;> cases at_call
    exact (begun.ready.listens (congrArg ServerPlace.listens accept)).1

/-- Without trouble both come to `communicate`, whatever the schedule. -/
theorem calm_ends (leftover : Bool) :
    (start.machine.restrict fun duo action => !trouble duo action).Ends (initial leftover)
      fun duo => duo.client = .communicate ∧ duo.server = .communicate := by
  refine ends_of_measure (fun duo => Begun duo ∧ Calm duo) measure
    ⟨Begun.initial leftover, by rintro ⟨⟩, by rintro ⟨⟩, by rintro ⟨⟩, by rintro ⟨⟩, by rintro ⟨⟩⟩ ?_ ?_
  · rintro duo action next ⟨begun, calm⟩ restricted
    obtain ⟨untroubled, taken⟩ := restrict_step.mp restricted
    rw [Bool.not_eq_eq_eq_not, Bool.not_true] at untroubled
    exact ⟨⟨begun.step taken, calm.step taken untroubled⟩, measure_lowers taken untroubled⟩
  · rintro duo ⟨begun, calm⟩
    rcases smooth_goes client_follows server_follows begun.sound (begun.smooth calm) with
      (⟨clientEnds, connected, serverEnds, serves⟩ | left | left) | ⟨action, next, calmly, taken⟩
    · exact Or.inl ⟨ClientPlace.communicate_of clientEnds connected,
        ServerPlace.communicate_of serverEnds serves⟩
    · exact absurd left calm.clientStays
    · exact absurd left calm.serverStays
    · exact Or.inr ⟨action, next, restrict_step.mpr ⟨by simp [trouble, calmly], taken⟩⟩

end DomainStart

/-- The start of the domain transport is safe whatever calls fail, takes a bounded number of
steps for each that does, and brings both processes to `communicate` when none does. -/
theorem domain_starts (leftover : Bool) :
    (∀ trace duo, Run DomainStart.start.machine (DomainStart.initial leftover) trace duo →
        DomainStart.StartsSafely duo ∧
          trace.length ≤ 22 + 23 * occasions DomainStart.trouble trace) ∧
      (DomainStart.start.machine.restrict fun duo action => !DomainStart.trouble duo action).Ends
        (DomainStart.initial leftover)
        fun duo => duo.client = .communicate ∧ duo.server = .communicate := by
  refine ⟨?_, DomainStart.calm_ends leftover⟩
  intro trace duo run
  have begun : DomainStart.Begun duo :=
    run.stateInvariant DomainStart.Begun (DomainStart.Begun.initial leftover)
      fun _ _ _ begun taken => begun.step taken
  refine ⟨begun.safely, ?_⟩
  have bound := length_le_of_troubles run DomainStart.trouble DomainStart.measure 22
    DomainStart.measure_le fun _ _ _ taken calm => DomainStart.measure_lowers taken calm
  have start := DomainStart.measure_le (DomainStart.initial leftover)
  omega

end IpcBench
