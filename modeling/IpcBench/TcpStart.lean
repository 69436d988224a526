import IpcBench.Handshake

/-!
The start of the tcp transport. Both processes go through the addresses that `getaddrinfo`
finds for the same name and port; the server writes a byte into the FIFO once it listens, and
the client, which gives up when its `connect` fails, reads that byte first.
-/

namespace IpcBench

open Transition Calls Handshake

namespace TcpStart

/-- `main` of the server with `create_socket`, `get_address`, `accept_communication` and
`setup_socket`. -/
inductive ServerPlace (Address : Type)
  | getaddrinfo
  | socket (address : Address) (later : List Address)
  | reuse (address : Address)
  | bind (address : Address)
  | listen
  | openFifo
  | write
  | accept
  | sendBuffer
  | receiveBuffer
  | getFlags
  | setFlags
  | closeListener
  | sigaction
  | communicate
  | exit
  | gone
deriving DecidableEq, Repr

/-- `attempt` counts the calls of `create_socket`. -/
inductive ClientPlace (Address : Type)
  | openFifo
  | read
  | getaddrinfo (attempt : Nat)
  | socket (attempt : Nat) (address : Address) (later : List Address)
  | connect (attempt : Nat) (address : Address)
  | sendBuffer
  | receiveBuffer
  | getFlags
  | setFlags
  | sigaction
  | communicate
  | exit
  | gone
deriving DecidableEq, Repr

variable {Address : Type}

def ServerPlace.search : List Address → ServerPlace Address
  | [] => .getaddrinfo
  | address :: later => .socket address later

def ClientPlace.search (attempt : Nat) : List Address → ClientPlace Address
  | [] => .exit
  | address :: later => .socket attempt address later

def server (addresses : List Address) : Program (ServerPlace Address) (NetCall Address) where
  call
    | .getaddrinfo => some .other
    | .socket address _ => some (.socket address)
    | .reuse _ => some .other
    | .bind address => some (.bind address)
    | .listen => some .listen
    | .openFifo => some .openFifo
    | .write => some .writeToken
    | .accept => some .accept
    | .sendBuffer => some .other
    | .receiveBuffer => some .other
    | .getFlags => some .other
    | .setFlags => some .other
    | .closeListener => some .closeListener
    | .sigaction => some .other
    | .communicate => none
    | .exit => some .exit
    | .gone => none
  next
    | .getaddrinfo, .succeeds => .search addresses
    | .getaddrinfo, .fails => .exit
    | .socket address _, .succeeds => .reuse address
    | .socket _ later, .fails => .search later
    | .reuse address, .succeeds => .bind address
    | .reuse _, .fails => .exit
    -- bind and listen are compared with 1, which they never return
    | .bind _, _ => .listen
    | .listen, _ => .openFifo
    | .openFifo, _ => .write
    | .write, .succeeds => .accept
    | .write, .fails => .exit
    | .accept, .succeeds => .sendBuffer
    | .accept, .fails => .accept
    | .sendBuffer, .succeeds => .receiveBuffer
    | .sendBuffer, .fails => .exit
    | .receiveBuffer, .succeeds => .getFlags
    | .receiveBuffer, .fails => .exit
    | .getFlags, .succeeds => .setFlags
    | .getFlags, .fails => .exit
    | .setFlags, .succeeds => .closeListener
    | .setFlags, .fails => .exit
    | .closeListener, _ => .sigaction
    | .sigaction, .succeeds => .communicate
    | .sigaction, .fails => .exit
    | .communicate, _ => .communicate
    | .exit, _ => .gone
    | .gone, _ => .gone

/-- An attempt makes at most one socket, whose descriptor has the number `descriptors attempt`. -/
def client (addresses : List Address) (descriptors : Nat → Nat) :
    Program (ClientPlace Address) (NetCall Address) where
  call
    | .openFifo => some .openFifo
    | .read => some .readToken
    | .getaddrinfo _ => some .other
    | .socket _ address _ => some (.socket address)
    | .connect _ address => some (.connect address)
    | .sendBuffer => some .other
    | .receiveBuffer => some .other
    | .getFlags => some .other
    | .setFlags => some .other
    | .sigaction => some .other
    | .communicate => none
    | .exit => some .exit
    | .gone => none
  next
    | .openFifo, _ => .read
    | .read, .succeeds => .getaddrinfo 0
    | .read, .fails => .exit
    | .getaddrinfo attempt, .succeeds => .search attempt addresses
    | .getaddrinfo _, .fails => .exit
    | .socket attempt address _, .succeeds => .connect attempt address
    | .socket attempt _ later, .fails => .search attempt later
    -- create_socket returns -1 for the descriptor 1, and the loop of main calls it again
    | .connect attempt _, .succeeds =>
        if descriptors attempt = 1 then .getaddrinfo (attempt + 1) else .sendBuffer
    -- get_address returns -1 here too, with which setup_socket throws
    | .connect _ _, .fails => .exit
    | .sendBuffer, .succeeds => .receiveBuffer
    | .sendBuffer, .fails => .exit
    | .receiveBuffer, .succeeds => .getFlags
    | .receiveBuffer, .fails => .exit
    | .getFlags, .succeeds => .setFlags
    | .getFlags, .fails => .exit
    | .setFlags, .succeeds => .sigaction
    | .setFlags, .fails => .exit
    | .sigaction, .succeeds => .communicate
    | .sigaction, .fails => .exit
    | .communicate, _ => .communicate
    | .exit, _ => .gone
    | .gone, _ => .gone

/-- `foreign` are the addresses at which another process listens on the port: nobody else can
be bound there, and who connects is connected to that process. -/
def perform [DecidableEq Address] (supported foreign : Address → Bool) (peer : Peer) :
    NetCall Address → Outcome → Kernel Address → Option (Kernel Address)
  | .bind address, .succeeds, kernel =>
      if foreign address then none
      else Handshake.perform supported peer (.bind address) .succeeds kernel
  | .connect address, .succeeds, kernel =>
      if foreign address then some kernel
      else Handshake.perform supported peer (.connect address) .succeeds kernel
  | call, outcome, kernel => Handshake.perform supported peer call outcome kernel

def start [DecidableEq Address] (supported foreign : Address → Bool) (addresses : List Address)
    (descriptors : Nat → Nat) :
    System (Kernel Address) (NetCall Address) (ClientPlace Address) (ServerPlace Address) where
  client := client addresses descriptors
  server := server addresses
  perform := perform supported foreign

def initial : Duo (Kernel Address) (ClientPlace Address) (ServerPlace Address) where
  shared := Kernel.start false
  client := .openFifo
  server := .getaddrinfo

/-- Nothing but the server listens on the port. -/
def PortFree (foreign : Address → Bool) : Prop :=
  ∀ address, foreign address = false

/-- No socket of the client gets the number of a standard output that is closed. -/
def OutputOpen (descriptors : Nat → Nat) : Prop :=
  ∀ attempt, descriptors attempt ≠ 1

def ClientPlace.phase : ClientPlace Address → ClientPhase
  | .openFifo => .waits
  | .read => .waits
  | .getaddrinfo _ => .prepares
  | .socket _ _ _ => .prepares
  | .connect _ _ => .prepares
  | .sendBuffer => .connected
  | .receiveBuffer => .connected
  | .getFlags => .connected
  | .setFlags => .connected
  | .sigaction => .connected
  | .communicate => .connected
  | .exit => .left
  | .gone => .left

def ServerPlace.phase : ServerPlace Address → ServerPhase
  | .getaddrinfo => .prepares
  | .socket _ _ => .prepares
  | .reuse _ => .prepares
  | .bind _ => .prepares
  | .listen => .prepares
  | .openFifo => .prepares
  | .write => .prepares
  | .accept => .accepts
  | .sendBuffer => .serves
  | .receiveBuffer => .serves
  | .getFlags => .serves
  | .setFlags => .serves
  | .closeListener => .serves
  | .sigaction => .serves
  | .communicate => .serves
  | .exit => .left
  | .gone => .left

variable {addresses : List Address} {descriptors : Nat → Nat}

theorem search_phase (later : List Address) : (ServerPlace.search later).phase = .prepares := by
  cases later <;> rfl

theorem search_phase_client (attempt : Nat) (later : List Address) :
    (ClientPlace.search attempt later).phase = .prepares ∨
      (ClientPlace.search attempt later).phase = .left := by
  cases later with
  | nil => exact Or.inr rfl
  | cons address later => exact Or.inl rfl

theorem client_follows (named : OutputOpen descriptors) :
    ClientFollows (client addresses descriptors) ClientPlace.phase where
  quiet := by
    intro place call outcome at_call quiet
    cases place with
    | getaddrinfo attempt =>
        cases outcome with
        | succeeds => exact search_phase_client attempt addresses
        | fails => exact Or.inr rfl
    | socket attempt address later =>
        cases outcome with
        | succeeds => exact Or.inl rfl
        | fails => exact search_phase_client attempt later
    | _ =>
        cases at_call <;> cases outcome <;>
          first | exact Or.inl rfl | exact Or.inr rfl | cases quiet
  reads := by
    intro place at_call
    cases place <;> cases at_call
    exact ⟨rfl, rfl, rfl⟩
  connects := by
    intro place address at_call
    cases place <;> cases at_call
    refine ⟨rfl, ?_, rfl⟩
    simp only [client, if_neg (named _)]
    rfl
  exits := by
    intro place outcome at_call
    cases place <;> cases at_call
    exact ⟨rfl, rfl⟩
  never := by
    intro place call at_call
    cases place <;> cases at_call <;> rfl
  ends := by
    intro place at_end
    cases place <;> cases at_end
    · exact Or.inl rfl
    · exact Or.inr rfl

theorem server_follows : ServerFollows (server addresses) ServerPlace.phase where
  quiet := by
    intro place call outcome at_call quiet
    cases place with
    | getaddrinfo =>
        cases outcome with
        | succeeds => exact Or.inl (search_phase addresses)
        | fails => exact Or.inr ⟨rfl, by rintro ⟨⟩⟩
    | socket address later =>
        cases outcome with
        | succeeds => exact Or.inl rfl
        | fails => exact Or.inl (search_phase later)
    | _ =>
        cases at_call <;> cases outcome <;>
          first | exact Or.inl rfl | exact Or.inr ⟨rfl, by rintro ⟨⟩⟩ | cases quiet
  announces := by
    intro place at_call
    cases place <;> cases at_call
    exact ⟨rfl, rfl, rfl⟩
  accepts := by
    intro place at_call
    cases place <;> cases at_call
    exact ⟨rfl, rfl, rfl⟩
  exits := by
    intro place outcome at_call
    cases place <;> cases at_call
    exact ⟨rfl, rfl⟩
  never := by
    intro place
    cases place <;> exact ⟨nofun, nofun⟩
  ends := by
    intro place at_end
    cases place <;> cases at_end
    · exact Or.inl rfl
    · exact Or.inr rfl

variable [DecidableEq Address] {supported foreign : Address → Bool} {outcome : Outcome}
  {duo next : Duo (Kernel Address) (ClientPlace Address) (ServerPlace Address)}
  {action : Peer × Outcome} {address : Address} {attempt : Nat}

def undisputed (supported : Address → Bool) (addresses : List Address) (descriptors : Nat → Nat) :
    System (Kernel Address) (NetCall Address) (ClientPlace Address) (ServerPlace Address) where
  client := client addresses descriptors
  server := server addresses
  perform := Handshake.perform supported

theorem start_free (free : PortFree foreign) :
    start supported foreign addresses descriptors = undisputed supported addresses descriptors := by
  have same : perform supported foreign = Handshake.perform supported := by
    funext peer call outcome kernel
    cases call <;> cases outcome <;> simp only [perform, free _, Bool.false_eq_true, if_false]
  rw [start, same, undisputed]

structure Begun (duo : Duo (Kernel Address) (ClientPlace Address) (ServerPlace Address)) :
    Prop where
  opened : duo.server.phase = .accepts → duo.shared.serverOpen = true
  sound : Sound (view ClientPlace.phase ServerPlace.phase duo)

omit [DecidableEq Address] in
theorem Begun.initial : Begun (initial : Duo (Kernel Address) _ _) where
  opened := by rintro ⟨⟩
  sound := Sound.initial

theorem Begun.step (named : OutputOpen descriptors) (begun : Begun duo)
    (taken : (undisputed supported addresses descriptors).machine.step duo action = some next) :
    Begun next := by
  obtain ⟨peer, outcome⟩ := action
  cases peer with
  | client =>
      obtain ⟨call, kernel, at_call, performed, same⟩ := System.step_client.mp taken
      obtain ⟨_, _, _, opened⟩ := client_kept ((client_follows named).never _ _ at_call) performed
      refine ⟨?_, begun.sound.follow
        (client_step (client_follows named) begun.opened at_call performed same)⟩
      rw [same]
      exact fun accepts => opened.trans (begun.opened accepts)
  | server =>
      obtain ⟨call, kernel, at_call, performed, same⟩ := System.step_server.mp taken
      refine ⟨?_, begun.sound.follow (server_step server_follows at_call performed same)⟩
      rw [same]
      exact opened_step server_follows begun.opened at_call performed

/-- The client connects only while the server accepts, and the two are stuck only when both
communicate or one has exited. -/
structure StartsSafely (supported foreign : Address → Bool) (addresses : List Address)
    (descriptors : Nat → Nat)
    (duo : Duo (Kernel Address) (ClientPlace Address) (ServerPlace Address)) : Prop where
  reaches : ∀ attempt address, duo.client = .connect attempt address → duo.server = .accept
  once : duo.shared.tokens + duo.shared.pending + duo.shared.accepted ≤ 1
  joined : duo.client = .communicate →
    duo.server = .accept ∧ duo.shared.pending = 1 ∨ duo.shared.accepted = 1
  answered : duo.server = .communicate → duo.shared.accepted = 1 ∧
    (duo.client.phase = .connected ∨ duo.client.phase = .left)
  stuck : (start supported foreign addresses descriptors).Stuck duo →
    duo.client = .communicate ∧ duo.server = .communicate ∨
      duo.client.phase = .left ∨ duo.server.phase = .left

omit [DecidableEq Address] in
theorem ServerPlace.accept_of_phase {place : ServerPlace Address}
    (accepts : place.phase = .accepts) : place = .accept := by
  cases place <;> cases accepts
  rfl

omit [DecidableEq Address] in
theorem ServerPlace.communicate_of {place : ServerPlace Address}
    (ends : (server addresses).call place = none) (serves : place.phase = .serves) :
    place = .communicate := by
  cases place <;> cases ends <;> cases serves
  rfl

omit [DecidableEq Address] in
theorem ClientPlace.communicate_of {place : ClientPlace Address}
    (ends : (client addresses descriptors).call place = none) (connected : place.phase = .connected) :
    place = .communicate := by
  cases place <;> cases ends <;> cases connected
  rfl

theorem Begun.safely (free : PortFree foreign) (named : OutputOpen descriptors)
    (begun : Begun duo) : StartsSafely supported foreign addresses descriptors duo where
  reaches := by
    intro attempt address connect
    exact ServerPlace.accept_of_phase
      (begun.sound.prepares (congrArg ClientPlace.phase connect)).1
  once := begun.sound.once
  joined := by
    intro communicate
    rcases (begun.sound.connected (congrArg ClientPlace.phase communicate)).2 with
      ⟨accepts, one⟩ | ⟨_, one⟩
    · exact Or.inl ⟨ServerPlace.accept_of_phase accepts, one⟩
    · exact Or.inr one
  answered := by
    intro communicate
    have serves : duo.server.phase = .serves := congrArg ServerPlace.phase communicate
    exact ⟨begun.sound.serves serves, begun.sound.partner serves⟩
  stuck := by
    intro stuck
    rw [start_free free] at stuck
    rcases stuck_settled (client_follows named) server_follows begun.sound stuck with
      ⟨clientEnds, connected, serverEnds, serves⟩ | left
    · exact Or.inl ⟨ClientPlace.communicate_of clientEnds connected,
        ServerPlace.communicate_of serverEnds serves⟩
    · exact Or.inr left

/-! Runs in which no call fails that should not. Both processes then come to the first
address of which there are sockets. -/

def trouble (supported : Address → Bool) (addresses : List Address) (descriptors : Nat → Nat)
    (duo : Duo (Kernel Address) (ClientPlace Address) (ServerPlace Address))
    (action : Peer × Outcome) : Bool :=
  troubled supported (client addresses descriptors) (server addresses) duo action

def ServerPlace.Calm (supported : Address → Bool) (found : Address) (kernel : Kernel Address) :
    ServerPlace Address → Prop
  | .getaddrinfo => kernel.occupied = false
  | .socket address later =>
      kernel.occupied = false ∧ (address :: later).find? supported = some found
  | .reuse address => kernel.occupied = false ∧ address = found
  | .bind address => kernel.occupied = false ∧ address = found
  | .listen => kernel.bound = some found
  | .write => kernel.listening = true ∧ kernel.bound = some found ∧ kernel.serverOpen = true
  | .sigaction => True
  | .communicate => True
  | .exit => False
  | .gone => False
  | _ => kernel.listening = true ∧ kernel.bound = some found

def ClientPlace.Calm (supported : Address → Bool) (found : Address) (kernel : Kernel Address) :
    ClientPlace Address → Prop
  | .read => kernel.clientOpen = true
  | .socket _ address later => (address :: later).find? supported = some found
  | .connect _ address => address = found
  | .exit => False
  | .gone => False
  | _ => True

section Calm

variable {found : Address} {kernel later : Kernel Address}

omit [DecidableEq Address] in
theorem ServerPlace.Calm.stays {place : ServerPlace Address}
    (calm : place.Calm supported found kernel) : place.phase ≠ .left := by
  cases place with
  | exit => cases calm
  | gone => cases calm
  | _ => rintro ⟨⟩

omit [DecidableEq Address] in
theorem ClientPlace.Calm.stays {place : ClientPlace Address}
    (calm : place.Calm supported found kernel) : place.phase ≠ .left := by
  cases place with
  | exit => cases calm
  | gone => cases calm
  | _ => rintro ⟨⟩

omit [DecidableEq Address] in
theorem ServerPlace.Calm.keep {place : ServerPlace Address}
    (calm : place.Calm supported found kernel) (occupied : later.occupied = kernel.occupied)
    (bound : later.bound = kernel.bound) (listening : later.listening = kernel.listening)
    (opened : later.serverOpen = kernel.serverOpen) : place.Calm supported found later := by
  cases place <;> simp only [ServerPlace.Calm, occupied, bound, listening, opened] at calm ⊢ <;>
    exact calm

omit [DecidableEq Address] in
theorem ClientPlace.Calm.keep {place : ClientPlace Address}
    (calm : place.Calm supported found kernel) (opened : later.clientOpen = kernel.clientOpen) :
    place.Calm supported found later := by
  cases place <;> simp only [ClientPlace.Calm, opened] at calm ⊢ <;> exact calm

omit [DecidableEq Address] in
theorem find_later {address : Address} {rest : List Address} (none : supported address = false)
    (search : (address :: rest).find? supported = some found) :
    rest.find? supported = some found := by
  rw [List.find?_cons_of_neg (by simp [none])] at search
  exact search

omit [DecidableEq Address] in
theorem find_here {address : Address} {rest : List Address} (some : supported address = true)
    (search : (address :: rest).find? supported = .some found) : address = found := by
  rw [List.find?_cons_of_pos some] at search
  exact Option.some.inj search

omit [DecidableEq Address] in
theorem calm_search {rest : List Address} (free : kernel.occupied = false)
    (search : rest.find? supported = some found) :
    (ServerPlace.search rest).Calm supported found kernel := by
  cases rest with
  | nil => cases search
  | cons address rest => exact ⟨free, search⟩

omit [DecidableEq Address] in
theorem calm_search_client {rest : List Address} (search : rest.find? supported = some found) :
    (ClientPlace.search attempt rest).Calm supported found kernel := by
  cases rest with
  | nil => cases search
  | cons address rest => exact search

theorem calm_server_next (first : addresses.find? supported = some found)
    {place : ServerPlace Address} {call : NetCall Address}
    (calm : place.Calm supported found kernel)
    (at_call : (server addresses).call place = some call)
    (performed : Handshake.perform supported .server call outcome kernel = some later)
    (excuses : outcome = .fails → excused supported kernel call = true) :
    ((server addresses).next place outcome).Calm supported found later := by
  cases outcome with
  | succeeds =>
      cases place with
      | getaddrinfo =>
          cases at_call
          cases performed
          exact calm_search calm first
      | socket address rest =>
          cases at_call
          simp only [Handshake.perform] at performed
          split at performed
          · rename_i some
            cases performed
            exact ⟨calm.1, find_here some calm.2⟩
          · cases performed
      | bind address =>
          cases at_call
          obtain ⟨free, rfl⟩ := calm
          simp only [Handshake.perform, free, Bool.false_eq_true, if_false, Option.some.injEq] at performed
          subst later
          exact rfl
      | listen =>
          cases at_call
          cases performed
          exact ⟨rfl, calm⟩
      | openFifo =>
          cases at_call
          cases performed
          exact ⟨calm.1, calm.2, rfl⟩
      | write =>
          cases at_call
          simp only [Handshake.perform] at performed
          split at performed <;> cases performed
          exact ⟨calm.1, calm.2.1⟩
      | accept =>
          cases at_call
          simp only [Handshake.perform] at performed
          split at performed <;> cases performed
          exact calm
      | closeListener => trivial
      | sigaction => trivial
      | communicate => cases at_call
      | exit => cases calm
      | gone => cases calm
      | reuse address | sendBuffer | receiveBuffer | getFlags | setFlags =>
          cases at_call
          cases performed
          exact calm
  | fails =>
      have excused := excuses rfl
      cases place with
      | socket address rest =>
          cases at_call
          cases performed
          simp only [Handshake.excused, Bool.not_eq_eq_eq_not, Bool.not_true] at excused
          exact calm_search calm.1 (find_later excused calm.2)
      | _ => cases at_call <;> cases excused

theorem calm_client_next (named : OutputOpen descriptors)
    (first : addresses.find? supported = some found)
    {place : ClientPlace Address} {call : NetCall Address}
    (calm : place.Calm supported found kernel)
    (at_call : (client addresses descriptors).call place = some call)
    (performed : Handshake.perform supported .client call outcome kernel = some later)
    (excuses : outcome = .fails → excused supported kernel call = true) :
    ((client addresses descriptors).next place outcome).Calm supported found later := by
  cases outcome with
  | succeeds =>
      cases place with
      | openFifo =>
          cases at_call
          cases performed
          exact rfl
      | getaddrinfo attempt => exact calm_search_client first
      | socket attempt address rest =>
          cases at_call
          simp only [Handshake.perform] at performed
          split at performed
          · rename_i some
            exact find_here some calm
          · cases performed
      | connect attempt address =>
          simp only [client, if_neg (named attempt)]
          trivial
      | exit => cases calm
      | gone => cases calm
      | _ => trivial
  | fails =>
      have excused := excuses rfl
      cases place with
      | socket attempt address rest =>
          cases at_call
          simp only [Handshake.excused, Bool.not_eq_eq_eq_not, Bool.not_true] at excused
          exact calm_search_client (find_later excused calm)
      | _ => cases at_call <;> cases excused

structure BothCalm (supported : Address → Bool) (found : Address)
    (duo : Duo (Kernel Address) (ClientPlace Address) (ServerPlace Address)) : Prop where
  client : duo.client.Calm supported found duo.shared
  server : duo.server.Calm supported found duo.shared

theorem BothCalm.step (named : OutputOpen descriptors) (first : addresses.find? supported = some found)
    (calm : BothCalm supported found duo)
    (taken : (undisputed supported addresses descriptors).machine.step duo action = some next)
    (untroubled : trouble supported addresses descriptors duo action = false) :
    BothCalm supported found next := by
  obtain ⟨peer, outcome⟩ := action
  cases peer with
  | client =>
      obtain ⟨call, kernel, at_call, performed, rfl, excuses⟩ :=
        Handshake.calm_client taken untroubled
      obtain ⟨occupied, bound, listening, opened⟩ :=
        client_kept ((client_follows named).never _ _ at_call) performed
      exact ⟨calm_client_next named first calm.client at_call performed excuses,
        calm.server.keep occupied bound listening opened⟩
  | server =>
      obtain ⟨call, kernel, at_call, performed, rfl, excuses⟩ :=
        Handshake.calm_server taken untroubled
      exact ⟨calm.client.keep (server_kept performed),
        calm_server_next first calm.server at_call performed excuses⟩

def ServerPlace.left (length : Nat) : ServerPlace Address → Nat
  | .getaddrinfo => length + 18
  | .socket _ later => later.length + 17
  | .reuse _ => 16
  | .bind _ => 15
  | .listen => 14
  | .openFifo => 13
  | .write => 12
  | .accept => 11
  | .sendBuffer => 10
  | .receiveBuffer => 9
  | .getFlags => 8
  | .setFlags => 7
  | .closeListener => 6
  | .sigaction => 5
  | .communicate => 0
  | .exit => 1
  | .gone => 0

def ClientPlace.left (length : Nat) : ClientPlace Address → Nat
  | .openFifo => length + 14
  | .read => length + 13
  | .getaddrinfo _ => length + 12
  | .socket _ _ later => later.length + 11
  | .connect _ _ => 10
  | .sendBuffer => 9
  | .receiveBuffer => 8
  | .getFlags => 7
  | .setFlags => 6
  | .sigaction => 5
  | .communicate => 0
  | .exit => 1
  | .gone => 0

omit [DecidableEq Address] in
theorem server_left (first : addresses.find? supported = some found)
    {place : ServerPlace Address} {call : NetCall Address}
    (calm : place.Calm supported found kernel)
    (at_call : (server addresses).call place = some call)
    (excuses : outcome = .fails → excused supported kernel call = true) :
    ((server addresses).next place outcome).left addresses.length <
      place.left addresses.length := by
  have searched : ∀ rest : List Address, rest.find? supported = some found →
      (ServerPlace.search rest).left addresses.length < rest.length + 17 := by
    intro rest search
    cases rest with
    | nil => cases search
    | cons address rest => exact Nat.lt_succ_self _
  cases outcome with
  | succeeds =>
      cases place with
      | getaddrinfo => exact Nat.lt_succ_of_lt (searched addresses first)
      | socket address rest => exact Nat.le_add_left _ _
      | exit => cases calm
      | gone => cases calm
      | communicate => cases at_call
      | _ => simp [server, ServerPlace.left]
  | fails =>
      have excused := excuses rfl
      cases place with
      | socket address rest =>
          cases at_call
          simp only [Handshake.excused, Bool.not_eq_eq_eq_not, Bool.not_true] at excused
          exact searched rest (find_later excused calm.2)
      | _ => cases at_call <;> cases excused

omit [DecidableEq Address] in
theorem client_left (named : OutputOpen descriptors) (first : addresses.find? supported = some found)
    {place : ClientPlace Address} {call : NetCall Address}
    (calm : place.Calm supported found kernel)
    (at_call : (client addresses descriptors).call place = some call)
    (excuses : outcome = .fails → excused supported kernel call = true) :
    ((client addresses descriptors).next place outcome).left addresses.length <
      place.left addresses.length := by
  have searched : ∀ rest : List Address, rest.find? supported = some found →
      ∀ attempt, (ClientPlace.search attempt rest).left addresses.length < rest.length + 11 := by
    intro rest search attempt
    cases rest with
    | nil => cases search
    | cons address rest => exact Nat.lt_succ_self _
  cases outcome with
  | succeeds =>
      cases place with
      | getaddrinfo attempt => exact Nat.lt_succ_of_lt (searched addresses first attempt)
      | socket attempt address rest => exact Nat.le_add_left _ _
      | connect attempt address => simp [client, named attempt, ClientPlace.left]
      | exit => cases calm
      | gone => cases calm
      | communicate => cases at_call
      | _ => simp [client, ClientPlace.left]
  | fails =>
      have excused := excuses rfl
      cases place with
      | socket attempt address rest =>
          cases at_call
          simp only [Handshake.excused, Bool.not_eq_eq_eq_not, Bool.not_true] at excused
          exact searched rest (find_later excused calm) attempt
      | _ => cases at_call <;> cases excused

theorem BothCalm.lowers (named : OutputOpen descriptors) (first : addresses.find? supported = some found)
    (calm : BothCalm supported found duo)
    (taken : (undisputed supported addresses descriptors).machine.step duo action = some next)
    (untroubled : trouble supported addresses descriptors duo action = false) :
    next.client.left addresses.length + next.server.left addresses.length <
      duo.client.left addresses.length + duo.server.left addresses.length := by
  obtain ⟨peer, outcome⟩ := action
  cases peer with
  | client =>
      obtain ⟨call, kernel, at_call, _, rfl, excuses⟩ := Handshake.calm_client taken untroubled
      exact Nat.add_lt_add_right (client_left named first calm.client at_call excuses) _
  | server =>
      obtain ⟨call, kernel, at_call, _, rfl, excuses⟩ := Handshake.calm_server taken untroubled
      exact Nat.add_lt_add_left (server_left first calm.server at_call excuses) _

omit [DecidableEq Address] in
/-- Where nothing has failed, the client connects to the address that the server listens at. -/
theorem BothCalm.reaches (calm : BothCalm supported found duo) (begun : Begun duo)
    (connect : duo.client = .connect attempt address) :
    address = found ∧ duo.shared.listening = true ∧ duo.shared.bound = some found := by
  have clientCalm := calm.client
  have serverCalm := calm.server
  have accept := ServerPlace.accept_of_phase
    (begun.sound.prepares (congrArg ClientPlace.phase connect)).1
  rw [connect] at clientCalm
  rw [accept] at serverCalm
  exact ⟨clientCalm, serverCalm⟩

omit [DecidableEq Address] in
theorem smooth_of_calm (calm : BothCalm supported found duo) (begun : Begun duo) :
    Smooth (client addresses descriptors) (server addresses) duo where
  bind := by
    intro address at_call
    have serverCalm := calm.server
    cases place : duo.server <;> rw [place] at at_call serverCalm <;> cases at_call
    exact serverCalm.1
  connect := by
    intro address at_call
    obtain ⟨attempt, connect⟩ : ∃ attempt, duo.client = .connect attempt address := by
      cases place : duo.client <;> rw [place] at at_call <;> cases at_call
      exact ⟨_, rfl⟩
    obtain ⟨rfl, listening, bound⟩ := calm.reaches begun connect
    exact ⟨listening, bound⟩
  writes := by
    intro at_call
    have serverCalm := calm.server
    cases place : duo.server <;> rw [place] at at_call serverCalm <;> cases at_call
    exact serverCalm.2.2
  reads := by
    intro at_call
    have clientCalm := calm.client
    cases place : duo.client <;> rw [place] at at_call clientCalm <;> cases at_call
    exact clientCalm
  accepts := by
    intro at_call
    have serverCalm := calm.server
    cases place : duo.server <;> rw [place] at at_call serverCalm <;> cases at_call
    exact serverCalm.1

theorem calm_ends (named : OutputOpen descriptors)
    (first : addresses.find? supported = some found) :
    ((undisputed supported addresses descriptors).machine.restrict fun duo action =>
        !trouble supported addresses descriptors duo action).Ends initial
      fun duo => duo.client = .communicate ∧ duo.server = .communicate := by
  refine ends_of_measure (fun duo => Begun duo ∧ BothCalm supported found duo)
    (fun duo => duo.client.left addresses.length + duo.server.left addresses.length)
    ⟨Begun.initial, trivial, rfl⟩ ?_ ?_
  · rintro duo action next ⟨begun, calm⟩ restricted
    obtain ⟨untroubled, taken⟩ := restrict_step.mp restricted
    rw [Bool.not_eq_eq_eq_not, Bool.not_true] at untroubled
    exact ⟨⟨begun.step named taken, calm.step named first taken untroubled⟩,
      calm.lowers named first taken untroubled⟩
  · rintro duo ⟨begun, calm⟩
    rcases smooth_goes (client_follows named) server_follows begun.sound
      (smooth_of_calm calm begun) with
      (⟨clientEnds, connected, serverEnds, serves⟩ | left | left) | ⟨action, next, calmly, taken⟩
    · exact Or.inl ⟨ClientPlace.communicate_of clientEnds connected,
        ServerPlace.communicate_of serverEnds serves⟩
    · exact absurd left calm.client.stays
    · exact absurd left calm.server.stays
    · exact Or.inr ⟨action, next, restrict_step.mpr ⟨by simp [trouble, calmly], taken⟩⟩

end Calm

end TcpStart

/-- The start of the tcp transport, where nothing else listens on the port and no socket of the
client gets the descriptor 1: whatever fails, the client connects only to a server that accepts,
and nobody waits but for a process that has exited. Where nothing fails and there are sockets
of some address, both come to `communicate`, at the first such address. -/
theorem tcp_starts {Address : Type} [DecidableEq Address] (supported foreign : Address → Bool)
    (addresses : List Address) (descriptors : Nat → Nat) (free : TcpStart.PortFree foreign)
    (named : TcpStart.OutputOpen descriptors) :
    (∀ trace duo,
        Run (TcpStart.start supported foreign addresses descriptors).machine TcpStart.initial
          trace duo →
        TcpStart.StartsSafely supported foreign addresses descriptors duo) ∧
      ∀ found, addresses.find? supported = some found →
        ((TcpStart.start supported foreign addresses descriptors).machine.restrict
            fun duo action => !TcpStart.trouble supported addresses descriptors duo action).Ends
          TcpStart.initial
          (fun duo => duo.client = .communicate ∧ duo.server = .communicate) ∧
        ∀ trace duo, Run ((TcpStart.start supported foreign addresses descriptors).machine.restrict
            fun duo action => !TcpStart.trouble supported addresses descriptors duo action)
            TcpStart.initial trace duo →
          ∀ attempt address, duo.client = .connect attempt address →
            address = found ∧ duo.shared.listening = true ∧ duo.shared.bound = some found := by
  rw [TcpStart.start_free free]
  constructor
  · intro trace duo run
    have begun : TcpStart.Begun duo :=
      run.stateInvariant TcpStart.Begun TcpStart.Begun.initial
        fun _ _ _ begun taken => begun.step named taken
    exact begun.safely free named
  · intro found first
    refine ⟨TcpStart.calm_ends named first, ?_⟩
    intro trace duo run attempt address connect
    obtain ⟨begun, calm⟩ : TcpStart.Begun duo ∧ TcpStart.BothCalm supported found duo := by
      refine run.stateInvariant
        (fun duo => TcpStart.Begun duo ∧ TcpStart.BothCalm supported found duo)
        ⟨TcpStart.Begun.initial, trivial, rfl⟩ ?_
      rintro duo action next ⟨begun, calm⟩ restricted
      obtain ⟨untroubled, taken⟩ := restrict_step.mp restricted
      rw [Bool.not_eq_eq_eq_not, Bool.not_true] at untroubled
      exact ⟨begun.step named taken, calm.step named first taken untroubled⟩
    exact calm.reaches begun connect

/-- There are sockets of the second of two addresses only. -/
theorem tcp_starts_second : ∃ trace duo,
    Run ((TcpStart.start (fun address => address == 2) (fun _ => false) [1, 2]
        fun attempt => attempt + 4).machine.restrict fun duo action =>
          !TcpStart.trouble (fun address => address == 2) [1, 2] (fun attempt => attempt + 4)
            duo action)
      TcpStart.initial trace duo ∧
    duo.client = .connect 0 2 ∧ duo.server = .accept ∧ duo.shared.bound = some 2 := by
  have starts := tcp_starts (fun address => address == 2) (fun _ => false) [1, 2]
    (fun attempt => attempt + 4) (fun _ => rfl) (fun _ => Nat.succ_succ_ne_one _)
  obtain ⟨trace, duo, run, connects⟩ := exists_run_of_execute
    ((TcpStart.start (fun address => address == 2) (fun _ => false) [1, 2]
        fun attempt => attempt + 4).machine.restrict fun duo action =>
          !TcpStart.trouble (fun address => address == 2) [1, 2] (fun attempt => attempt + 4)
            duo action)
    TcpStart.initial
    [(.client, .succeeds), (.server, .succeeds), (.server, .fails), (.server, .succeeds),
      (.server, .succeeds), (.server, .succeeds), (.server, .succeeds), (.server, .succeeds),
      (.server, .succeeds), (.client, .succeeds), (.client, .succeeds), (.client, .fails),
      (.client, .succeeds)]
    (fun result => result.2.client == .connect 0 2)
    (by decide)
  rw [beq_iff_eq] at connects
  have accepts := (starts.1 trace duo run.of_restrict).reaches 0 2 connects
  obtain ⟨_, _, bound⟩ := (starts.2 2 (by decide)).2 trace duo run 0 2 connects
  exact ⟨trace, duo, run, connects, accepts, bound⟩

end IpcBench
