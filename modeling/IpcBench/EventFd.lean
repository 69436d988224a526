import IpcBench.Transition

/-!
The bidirectional eventfd benchmark: a client and a server that pass tokens through one
shared eventfd counter, in which each may find its own token again.
-/

namespace IpcBench

open Transition

def serverToken : Nat := 1

def clientToken : Nat := 2

def eventfdWrite (value counter : Nat) : Option Nat :=
  if counter + value ≤ 18446744073709551614 then some (counter + value) else none

inductive WaitPc
  | read
  | compare (stored : Nat)
  | writeBack (stored : Nat)
deriving DecidableEq, Repr

/-- A step of `eventfd_wait`, with the new counter; it returns where no place is left.
Reading takes the whole counter and blocks at 0. -/
def eventfdWait (wanted counter : Nat) : WaitPc → Option (Nat × Option WaitPc)
  | .read => if counter = 0 then none else some (0, some (.compare counter))
  | .compare stored =>
      if stored = wanted then some (counter, none) else some (counter, some (.writeBack stored))
  | .writeBack stored =>
      (eventfdWrite stored counter).map fun counter => (counter, some .read)

inductive TokenPc
  | test
  | notify
  | wait (place : WaitPc)
  | finished
deriving DecidableEq, Repr

structure TokenClient where
  pc : TokenPc
  count : Int
deriving DecidableEq, Repr

structure TokenServer where
  pc : TokenPc
  message : Int
  count : Int
deriving DecidableEq, Repr

def TokenClient.step (counter : Nat) (client : TokenClient) : Option (Nat × TokenClient) :=
  match client.pc with
  | .test =>
      if 0 < client.count then some (counter, { client with pc := .notify })
      else some (counter, { client with pc := .finished })
  | .notify =>
      (eventfdWrite serverToken counter).map fun counter =>
        (counter, { client with pc := .wait .read })
  | .wait place =>
      match eventfdWait clientToken counter place with
      | some (counter, some place) => some (counter, { client with pc := .wait place })
      | some (counter, none) => some (counter, { client with pc := .test, count := client.count - 1 })
      | none => none
  | .finished => none

def TokenServer.step (counter : Nat) (server : TokenServer) : Option (Nat × TokenServer) :=
  match server.pc with
  | .test =>
      if server.message < server.count then some (counter, { server with pc := .wait .read })
      else some (counter, { server with pc := .finished })
  | .wait place =>
      match eventfdWait serverToken counter place with
      | some (counter, some place) => some (counter, { server with pc := .wait place })
      | some (counter, none) => some (counter, { server with pc := .notify })
      | none => none
  | .notify =>
      (eventfdWrite clientToken counter).map fun counter =>
        (counter, { server with pc := .test, message := server.message + 1 })
  | .finished => none

structure TokenPair where
  counter : Nat
  client : TokenClient
  server : TokenServer
deriving DecidableEq, Repr

inductive Party
  | client
  | server
deriving DecidableEq, Repr

namespace TokenPair

def step (pair : TokenPair) : Party → Option TokenPair
  | .client =>
      (pair.client.step pair.counter).map fun result =>
        { pair with counter := result.1, client := result.2 }
  | .server =>
      (pair.server.step pair.counter).map fun result =>
        { pair with counter := result.1, server := result.2 }

def machine : Machine TokenPair Party where
  step := step

def initial (count : Int) : TokenPair where
  counter := 0
  client := ⟨.test, count⟩
  server := ⟨.test, 0, count⟩

inductive Step (pair : TokenPair) : Party → TokenPair → Prop
  | clientEnter (pc : pair.client.pc = .test) (more : 0 < pair.client.count) :
      Step pair .client { pair with client := { pair.client with pc := .notify } }
  | clientFinish (pc : pair.client.pc = .test) (isOver : pair.client.count ≤ 0) :
      Step pair .client { pair with client := { pair.client with pc := .finished } }
  | clientNotify (pc : pair.client.pc = .notify) :
      Step pair .client { pair with
        counter := pair.counter + serverToken
        client := { pair.client with pc := .wait .read } }
  | clientRead (pc : pair.client.pc = .wait .read) (some : 0 < pair.counter) :
      Step pair .client { pair with
        counter := 0
        client := { pair.client with pc := .wait (.compare pair.counter) } }
  | clientReturn (pc : pair.client.pc = .wait (.compare clientToken)) :
      Step pair .client { pair with
        client := { pair.client with pc := .test, count := pair.client.count - 1 } }
  | clientMismatch (stored : Nat) (pc : pair.client.pc = .wait (.compare stored))
      (other : stored ≠ clientToken) :
      Step pair .client { pair with
        client := { pair.client with pc := .wait (.writeBack stored) } }
  | clientWriteBack (stored : Nat) (pc : pair.client.pc = .wait (.writeBack stored)) :
      Step pair .client { pair with
        counter := pair.counter + stored
        client := { pair.client with pc := .wait .read } }
  | serverEnter (pc : pair.server.pc = .test) (more : pair.server.message < pair.server.count) :
      Step pair .server { pair with server := { pair.server with pc := .wait .read } }
  | serverFinish (pc : pair.server.pc = .test) (isOver : pair.server.count ≤ pair.server.message) :
      Step pair .server { pair with server := { pair.server with pc := .finished } }
  | serverRead (pc : pair.server.pc = .wait .read) (some : 0 < pair.counter) :
      Step pair .server { pair with
        counter := 0
        server := { pair.server with pc := .wait (.compare pair.counter) } }
  | serverReturn (pc : pair.server.pc = .wait (.compare serverToken)) :
      Step pair .server { pair with server := { pair.server with pc := .notify } }
  | serverMismatch (stored : Nat) (pc : pair.server.pc = .wait (.compare stored))
      (other : stored ≠ serverToken) :
      Step pair .server { pair with
        server := { pair.server with pc := .wait (.writeBack stored) } }
  | serverWriteBack (stored : Nat) (pc : pair.server.pc = .wait (.writeBack stored)) :
      Step pair .server { pair with
        counter := pair.counter + stored
        server := { pair.server with pc := .wait .read } }
  | serverNotify (pc : pair.server.pc = .notify) :
      Step pair .server { pair with
        counter := pair.counter + clientToken
        server := { pair.server with pc := .test, message := pair.server.message + 1 } }

variable {pair next : TokenPair} {party : Party}

theorem eventfdWrite_eq {value counter result : Nat}
    (taken : eventfdWrite value counter = some result) : result = counter + value := by
  unfold eventfdWrite at taken
  split at taken
  · exact (Option.some.inj taken).symm
  · cases taken

theorem eventfdWait_inv {wanted counter result : Nat} {place : WaitPc} {later : Option WaitPc}
    (taken : eventfdWait wanted counter place = some (result, later)) :
    (place = .read ∧ 0 < counter ∧ result = 0 ∧ later = some (.compare counter)) ∨
      (place = .compare wanted ∧ result = counter ∧ later = none) ∨
      (∃ stored, place = .compare stored ∧ stored ≠ wanted ∧ result = counter ∧
        later = some (.writeBack stored)) ∨
      (∃ stored, place = .writeBack stored ∧ result = counter + stored ∧ later = some .read) := by
  cases place with
  | read =>
      simp only [eventfdWait] at taken
      split at taken <;> cases taken
      rename_i some
      exact Or.inl ⟨rfl, Nat.pos_of_ne_zero some, rfl, rfl⟩
  | compare stored =>
      simp only [eventfdWait] at taken
      split at taken <;> cases taken
      · rename_i same
        exact Or.inr (Or.inl ⟨by rw [same], rfl, rfl⟩)
      · rename_i other
        exact Or.inr (Or.inr (Or.inl ⟨stored, rfl, other, rfl, rfl⟩))
  | writeBack stored =>
      simp only [eventfdWait, Option.map_eq_some_iff, Prod.mk.injEq] at taken
      obtain ⟨counted, wrote, rfl, rfl⟩ := taken
      exact Or.inr (Or.inr (Or.inr ⟨stored, rfl, eventfdWrite_eq wrote, rfl⟩))

theorem step_inv (taken : pair.step party = some next) : Step pair party next := by
  cases party with
  | client =>
      simp only [step, Option.map_eq_some_iff] at taken
      obtain ⟨⟨counter, client⟩, taken, rfl⟩ := taken
      unfold TokenClient.step at taken
      split at taken
      case h_1 pc =>
        split at taken <;> cases taken
        · rename_i more
          exact .clientEnter pc more
        · rename_i isOver
          exact .clientFinish pc (by omega)
      case h_2 pc =>
        simp only [Option.map_eq_some_iff, Prod.mk.injEq] at taken
        obtain ⟨result, wrote, rfl, rfl⟩ := taken
        rw [eventfdWrite_eq wrote]
        exact .clientNotify pc
      case h_3 place pc =>
        split at taken
        case h_1 result later waited =>
          cases taken
          rcases eventfdWait_inv waited with ⟨rfl, some, rfl, same⟩ | ⟨_, _, same⟩ |
            ⟨stored, rfl, other, rfl, same⟩ | ⟨stored, rfl, rfl, same⟩ <;> cases same
          · exact .clientRead pc some
          · exact .clientMismatch stored pc other
          · exact .clientWriteBack stored pc
        case h_2 result waited =>
          cases taken
          rcases eventfdWait_inv waited with ⟨_, _, _, same⟩ | ⟨rfl, rfl, _⟩ |
            ⟨_, _, _, _, same⟩ | ⟨_, _, _, same⟩
          · cases same
          · exact .clientReturn pc
          · cases same
          · cases same
        case h_3 => cases taken
      case h_4 pc => cases taken
  | server =>
      simp only [step, Option.map_eq_some_iff] at taken
      obtain ⟨⟨counter, server⟩, taken, rfl⟩ := taken
      unfold TokenServer.step at taken
      split at taken
      case h_1 pc =>
        split at taken <;> cases taken
        · rename_i more
          exact .serverEnter pc more
        · rename_i isOver
          exact .serverFinish pc (by omega)
      case h_2 place pc =>
        split at taken
        case h_1 result later waited =>
          cases taken
          rcases eventfdWait_inv waited with ⟨rfl, some, rfl, same⟩ | ⟨_, _, same⟩ |
            ⟨stored, rfl, other, rfl, same⟩ | ⟨stored, rfl, rfl, same⟩ <;> cases same
          · exact .serverRead pc some
          · exact .serverMismatch stored pc other
          · exact .serverWriteBack stored pc
        case h_2 result waited =>
          cases taken
          rcases eventfdWait_inv waited with ⟨_, _, _, same⟩ | ⟨rfl, rfl, _⟩ |
            ⟨_, _, _, _, same⟩ | ⟨_, _, _, same⟩
          · cases same
          · exact .serverReturn pc
          · cases same
          · cases same
        case h_3 => cases taken
      case h_3 pc =>
        simp only [Option.map_eq_some_iff, Prod.mk.injEq] at taken
        obtain ⟨result, wrote, rfl, rfl⟩ := taken
        rw [eventfdWrite_eq wrote]
        exact .serverNotify pc
      case h_4 pc => cases taken

end TokenPair

/-! Whose turn it is: the token that exists, the places the two processes can then be in,
and what has happened in the round. -/

def WaitPc.held : WaitPc → Nat
  | .read => 0
  | .compare stored => stored
  | .writeBack stored => stored

def TokenPc.held : TokenPc → Nat
  | .wait place => place.held
  | _ => 0

section Held

variable (place : WaitPc) (stored : Nat)

@[simp] theorem WaitPc.held_read : WaitPc.read.held = 0 := rfl
@[simp] theorem WaitPc.held_compare : (WaitPc.compare stored).held = stored := rfl
@[simp] theorem WaitPc.held_writeBack : (WaitPc.writeBack stored).held = stored := rfl
@[simp] theorem TokenPc.held_test : TokenPc.test.held = 0 := rfl
@[simp] theorem TokenPc.held_notify : TokenPc.notify.held = 0 := rfl
@[simp] theorem TokenPc.held_finished : TokenPc.finished.held = 0 := rfl
@[simp] theorem TokenPc.held_wait : (TokenPc.wait place).held = place.held := rfl

end Held

def WaitPc.Holds (token : Nat) : WaitPc → Prop
  | .read => True
  | .compare stored => stored = token
  | .writeBack stored => stored = token

inductive Turn
  | idle
  | request
  | serving
  | response

namespace Turn

def token : Turn → Nat
  | .idle => 0
  | .request => serverToken
  | .serving => 0
  | .response => clientToken

def ClientAt (pc : TokenPc) : Turn → Prop
  | .idle => pc = .test ∨ pc = .notify ∨ pc = .finished
  | .request => ∃ place, pc = .wait place ∧ place.Holds serverToken
  | .serving => pc = .wait .read
  | .response => ∃ place, pc = .wait place ∧ place.Holds clientToken

def ServerAt (pc : TokenPc) : Turn → Prop
  | .idle => pc = .test ∨ pc = .wait .read ∨ pc = .finished
  | .request => pc = .test ∨ ∃ place, pc = .wait place ∧ place.Holds serverToken
  | .serving => pc = .notify
  | .response => pc = .test ∨ pc = .finished ∨
      ∃ place, pc = .wait place ∧ place.Holds clientToken

def requested : Turn → Nat
  | .idle => 0
  | _ => 1

def served : Turn → Nat
  | .serving => 1
  | .response => 1
  | _ => 0

def answered : Turn → Nat
  | .response => 1
  | _ => 0

end Turn

structure Passes where
  clientNotified : Nat
  serverReturned : Nat
  serverNotified : Nat
  clientReturned : Nat

def TokenPc.active : TokenPc → Bool
  | .notify => true
  | .wait _ => true
  | _ => false

namespace TokenPair

def note (passes : Passes) (pair : TokenPair) : Party → Passes
  | .client =>
      match pair.client.pc with
      | .notify => { passes with clientNotified := passes.clientNotified + 1 }
      | .wait (.compare stored) =>
          if stored = clientToken then
            { passes with clientReturned := passes.clientReturned + 1 }
          else passes
      | _ => passes
  | .server =>
      match pair.server.pc with
      | .notify => { passes with serverNotified := passes.serverNotified + 1 }
      | .wait (.compare stored) =>
          if stored = serverToken then
            { passes with serverReturned := passes.serverReturned + 1 }
          else passes
      | _ => passes

def passes (trace : List (TokenPair × Party)) : Passes :=
  trace.foldl (fun passes entry => note passes entry.1 entry.2) ⟨0, 0, 0, 0⟩

@[simp] theorem passes_nil : passes [] = ⟨0, 0, 0, 0⟩ := rfl

@[simp] theorem passes_step (trace : List (TokenPair × Party)) (pair : TokenPair) (party : Party) :
    passes (trace ++ [(pair, party)]) = note (passes trace) pair party := by
  simp [passes]

structure Placed (turn : Turn) (pair : TokenPair) : Prop where
  token : pair.counter + pair.client.pc.held + pair.server.pc.held = turn.token
  counter : pair.counter = 0 ∨ pair.counter = turn.token
  client : turn.ClientAt pair.client.pc
  server : turn.ServerAt pair.server.pc

end TokenPair

structure Passes.InTurn (turn : Turn) (done : Passes) : Prop where
  clientNotified : done.clientNotified = done.clientReturned + turn.requested
  serverReturned : done.serverReturned = done.clientReturned + turn.served
  serverNotified : done.serverNotified = done.clientReturned + turn.answered

structure TokenClient.InRound (count : Int) (completed : Nat) (client : TokenClient) : Prop where
  count : client.count = count - completed
  active : client.pc.active = true → 0 < client.count
  finished : client.pc = .finished → client.count ≤ 0

structure TokenServer.InRound (count : Int) (completed : Nat) (server : TokenServer) : Prop where
  message : server.message = completed
  count : server.count = count
  active : server.pc.active = true → server.message < server.count
  finished : server.pc = .finished → server.count ≤ server.message

theorem TokenClient.InRound.move {count : Int} {completed : Nat} {client : TokenClient}
    (round : client.InRound count completed) (running : 0 < client.count) (pc : TokenPc)
    (stays : pc ≠ .finished) : InRound count completed { client with pc := pc } where
  count := round.count
  active := fun _ => running
  finished := fun isOver => absurd isOver stays

theorem TokenServer.InRound.move {count : Int} {completed : Nat} {server : TokenServer}
    (round : server.InRound count completed) (running : server.message < server.count)
    (pc : TokenPc) (stays : pc ≠ .finished) : InRound count completed { server with pc := pc } where
  message := round.message
  count := round.count
  active := fun _ => running
  finished := fun isOver => absurd isOver stays

namespace TokenPair

structure Passing (count : Int) (turn : Turn) (done : Passes) (pair : TokenPair) : Prop where
  placed : Placed turn pair
  passes : done.InTurn turn
  client : pair.client.InRound count done.clientReturned
  server : pair.server.InRound count done.serverNotified

theorem Passing.initial (count : Int) : Passing count .idle ⟨0, 0, 0, 0⟩ (initial count) where
  placed := ⟨rfl, Or.inl rfl, Or.inl rfl, Or.inl rfl⟩
  passes := ⟨rfl, rfl, rfl⟩
  client := ⟨by simp [TokenPair.initial], by simp [TokenPair.initial, TokenPc.active],
    by simp [TokenPair.initial]⟩
  server := ⟨rfl, rfl, by simp [TokenPair.initial, TokenPc.active], by simp [TokenPair.initial]⟩

variable {count : Int} {turn : Turn} {done : Passes} {pair next : TokenPair} {party : Party}

theorem Passing.server_running (passing : Passing count .idle done pair)
    (more : 0 < pair.client.count) :
    pair.server.pc = .test ∨ pair.server.pc = .wait .read := by
  obtain ⟨⟨_, _, _, serverAt⟩, ⟨_, _, answered⟩, client, server⟩ := passing
  rcases serverAt with test | waiting | finished
  · exact Or.inl test
  · exact Or.inr waiting
  · have isOver := server.finished finished
    have rounds := client.count
    have message := server.message
    have total := server.count
    simp only [Turn.answered] at answered
    omega

theorem Passing.client_running (passing : Passing count .request done pair) :
    pair.server.message < pair.server.count := by
  obtain ⟨⟨_, _, clientAt, _⟩, ⟨_, _, answered⟩, client, server⟩ := passing
  obtain ⟨place, pc, _⟩ := clientAt
  have more := client.active (by rw [pc]; rfl)
  have rounds := client.count
  have message := server.message
  have total := server.count
  simp only [Turn.answered] at answered
  omega

theorem Passing.stepClient (passing : Passing count turn done pair)
    (taken : Step pair .client next) :
    ∃ turn, Passing count turn (note done pair .client) next := by
  have idle := fun same : turn = .idle => (same ▸ passing : Passing count .idle done pair)
  obtain ⟨⟨token, counter, clientAt, serverAt⟩, counts, client, server⟩ := passing
  have active := client.active
  cases taken with
  | clientEnter pc more =>
      simp only [note, pc]
      cases turn <;> simp [pc, Turn.ClientAt] at clientAt
      rw [pc] at token
      exact ⟨.idle, ⟨token, counter, Or.inr (Or.inl rfl), serverAt⟩, counts,
        client.move more _ (by simp), server⟩
  | clientFinish pc isOver =>
      simp only [note, pc]
      cases turn <;> simp [pc, Turn.ClientAt] at clientAt
      rw [pc] at token
      exact ⟨.idle, ⟨token, counter, Or.inr (Or.inr rfl), serverAt⟩, counts,
        ⟨client.count, by simp [TokenPc.active], fun _ => isOver⟩, server⟩
  | clientNotify pc =>
      simp only [note, pc]
      simp only [pc, TokenPc.active, forall_const] at active
      cases turn <;> simp [pc, Turn.ClientAt] at clientAt
      simp only [pc, TokenPc.held_notify, Turn.token] at token
      obtain ⟨notified, returned, answered⟩ := counts
      refine ⟨.request, ⟨?_, ?_, ⟨.read, rfl, trivial⟩, ?_⟩, ⟨by simp [notified, Turn.requested],
        returned, answered⟩, client.move active _ (by simp), server⟩
      · simp only [TokenPc.held_wait, WaitPc.held_read, Turn.token]
        omega
      · simp only [Turn.token]
        omega
      · rcases (idle rfl).server_running active with test | waiting
        · exact Or.inl test
        · exact Or.inr ⟨.read, waiting, trivial⟩
  | clientRead pc some =>
      simp only [note, pc]
      simp only [pc, TokenPc.active, forall_const] at active
      rw [pc] at token
      cases turn with
      | idle => simp [pc, Turn.ClientAt] at clientAt
      | request =>
          refine ⟨.request, ⟨?_, Or.inl rfl, ⟨_, rfl, ?_⟩, serverAt⟩, counts,
            client.move active _ (by simp), server⟩
          · simpa using token
          · simp only [WaitPc.Holds]
            simp only [Turn.token] at counter
            omega
      | serving =>
          simp only [Turn.token] at counter
          omega
      | response =>
          refine ⟨.response, ⟨?_, Or.inl rfl, ⟨_, rfl, ?_⟩, serverAt⟩, counts,
            client.move active _ (by simp), server⟩
          · simpa using token
          · simp only [WaitPc.Holds]
            simp only [Turn.token] at counter
            omega
  | clientReturn pc =>
      simp only [note, pc, if_true]
      simp only [pc, TokenPc.active, forall_const] at active
      cases turn <;> simp [pc, Turn.ClientAt, WaitPc.Holds, clientToken, serverToken] at clientAt
      simp only [pc, TokenPc.held_wait, WaitPc.held_compare, Turn.token] at token
      obtain ⟨notified, returned, answered⟩ := counts
      simp only [Turn.requested, Turn.served, Turn.answered] at notified returned answered
      refine ⟨.idle, ⟨?_, ?_, Or.inl rfl, ?_⟩, ⟨notified, returned, answered⟩,
        ⟨?_, by simp [TokenPc.active], by simp⟩, server⟩
      · simp only [TokenPc.held_test, Turn.token]
        omega
      · simp only [Turn.token]
        omega
      · rcases serverAt with test | finished | ⟨place, waiting, holds⟩
        · exact Or.inl test
        · exact Or.inr (Or.inr finished)
        · rw [waiting, TokenPc.held_wait] at token
          cases place with
          | read => exact Or.inr (Or.inl waiting)
          | compare stored =>
              simp only [WaitPc.Holds, WaitPc.held_compare, clientToken] at holds token
              omega
          | writeBack stored =>
              simp only [WaitPc.Holds, WaitPc.held_writeBack, clientToken] at holds token
              omega
      · have rounds := client.count
        simp only
        omega
  | clientMismatch stored pc other =>
      simp only [note, pc, other, if_false]
      simp only [pc, TokenPc.active, forall_const] at active
      rw [pc] at token
      cases turn with
      | request =>
          obtain ⟨place, same, holds⟩ := clientAt
          rw [pc, TokenPc.wait.injEq] at same
          subst place
          exact ⟨.request, ⟨token, counter, ⟨_, rfl, holds⟩, serverAt⟩, counts,
            client.move active _ (by simp), server⟩
      | idle => simp [pc, Turn.ClientAt] at clientAt
      | serving => simp [pc, Turn.ClientAt] at clientAt
      | response => simp [pc, Turn.ClientAt, WaitPc.Holds, other] at clientAt
  | clientWriteBack stored pc =>
      simp only [note, pc]
      simp only [pc, TokenPc.active, forall_const] at active
      simp only [pc, TokenPc.held_wait, WaitPc.held_writeBack] at token
      cases turn with
      | idle => simp [pc, Turn.ClientAt] at clientAt
      | serving => simp [pc, Turn.ClientAt] at clientAt
      | request =>
          simp only [pc, Turn.ClientAt, TokenPc.wait.injEq, exists_eq_left', WaitPc.Holds]
            at clientAt
          refine ⟨.request, ⟨by simpa using token, ?_, ⟨.read, rfl, trivial⟩, serverAt⟩, counts,
            client.move active _ (by simp), server⟩
          simp only [Turn.token] at token ⊢
          omega
      | response =>
          simp only [pc, Turn.ClientAt, TokenPc.wait.injEq, exists_eq_left', WaitPc.Holds]
            at clientAt
          refine ⟨.response, ⟨by simpa using token, ?_, ⟨.read, rfl, trivial⟩, serverAt⟩, counts,
            client.move active _ (by simp), server⟩
          simp only [Turn.token] at token ⊢
          omega

theorem Passing.stepServer (passing : Passing count turn done pair)
    (taken : Step pair .server next) :
    ∃ turn, Passing count turn (note done pair .server) next := by
  have request := fun same : turn = .request => (same ▸ passing : Passing count .request done pair)
  obtain ⟨⟨token, counter, clientAt, serverAt⟩, counts, client, server⟩ := passing
  have active := server.active
  cases taken with
  | serverEnter pc more =>
      simp only [note, pc]
      rw [pc] at token
      refine ⟨turn, ⟨by simpa using token, counter, clientAt, ?_⟩, counts, client,
        server.move more _ (by simp)⟩
      cases turn with
      | idle => exact Or.inr (Or.inl rfl)
      | request => exact Or.inr ⟨.read, rfl, trivial⟩
      | serving => simp [pc, Turn.ServerAt] at serverAt
      | response => exact Or.inr (Or.inr ⟨.read, rfl, trivial⟩)
  | serverFinish pc isOver =>
      simp only [note, pc]
      rw [pc] at token
      refine ⟨turn, ⟨by simpa using token, counter, clientAt, ?_⟩, counts, client,
        ⟨server.message, server.count, by simp [TokenPc.active], fun _ => isOver⟩⟩
      cases turn with
      | idle => exact Or.inr (Or.inr rfl)
      | request =>
          have more := (request rfl).client_running
          omega
      | serving => simp [pc, Turn.ServerAt] at serverAt
      | response => exact Or.inr (Or.inl rfl)
  | serverRead pc some =>
      simp only [note, pc]
      simp only [pc, TokenPc.active, forall_const] at active
      rw [pc] at token
      refine ⟨turn, ⟨by simpa [Nat.add_comm, Nat.add_left_comm] using token, Or.inl rfl, clientAt,
        ?_⟩, counts, client, server.move active _ (by simp)⟩
      cases turn with
      | idle =>
          simp only [Turn.token] at counter
          omega
      | serving => simp [pc, Turn.ServerAt] at serverAt
      | request =>
          refine Or.inr ⟨_, rfl, ?_⟩
          simp only [WaitPc.Holds]
          simp only [Turn.token] at counter
          omega
      | response =>
          refine Or.inr (Or.inr ⟨_, rfl, ?_⟩)
          simp only [WaitPc.Holds]
          simp only [Turn.token] at counter
          omega
  | serverReturn pc =>
      simp only [note, pc, if_true]
      simp only [pc, TokenPc.active, forall_const] at active
      cases turn <;> simp [pc, Turn.ServerAt, WaitPc.Holds, clientToken, serverToken] at serverAt
      simp only [pc, TokenPc.held_wait, WaitPc.held_compare, Turn.token] at token
      obtain ⟨notified, returned, answered⟩ := counts
      simp only [Turn.requested, Turn.served, Turn.answered] at notified returned answered
      have empty : pair.counter = 0 := by omega
      have held : pair.client.pc.held = 0 := by omega
      refine ⟨.serving, ⟨?_, ?_, ?_, rfl⟩, ⟨notified, by simp [returned, Turn.served], answered⟩,
        client, server.move active _ (by simp)⟩
      · simp [empty, held, Turn.token]
      · simp [empty]
      · obtain ⟨place, waiting, holds⟩ := clientAt
        rw [waiting, TokenPc.held_wait] at held
        cases place with
        | read => exact waiting
        | compare stored => simp_all [WaitPc.Holds, serverToken]
        | writeBack stored => simp_all [WaitPc.Holds, serverToken]
  | serverMismatch stored pc other =>
      simp only [note, pc, other, if_false]
      simp only [pc, TokenPc.active, forall_const] at active
      rw [pc] at token
      cases turn with
      | response =>
          simp only [pc, Turn.ServerAt, TokenPc.wait.injEq, exists_eq_left', reduceCtorEq,
            false_or, WaitPc.Holds] at serverAt
          exact ⟨.response, ⟨token, counter, clientAt, Or.inr (Or.inr ⟨_, rfl, serverAt⟩)⟩, counts,
            client, server.move active _ (by simp)⟩
      | idle => simp [pc, Turn.ServerAt] at serverAt
      | serving => simp [pc, Turn.ServerAt] at serverAt
      | request => simp [pc, Turn.ServerAt, WaitPc.Holds, other] at serverAt
  | serverWriteBack stored pc =>
      simp only [note, pc]
      simp only [pc, TokenPc.active, forall_const] at active
      simp only [pc, TokenPc.held_wait, WaitPc.held_writeBack] at token
      cases turn with
      | idle => simp [pc, Turn.ServerAt] at serverAt
      | serving => simp [pc, Turn.ServerAt] at serverAt
      | request =>
          simp only [pc, Turn.ServerAt, TokenPc.wait.injEq, exists_eq_left', reduceCtorEq,
            false_or, WaitPc.Holds] at serverAt
          refine ⟨.request, ⟨?_, ?_, clientAt, Or.inr ⟨.read, rfl, trivial⟩⟩, counts, client,
            server.move active _ (by simp)⟩
          · simp only [TokenPc.held_wait, WaitPc.held_read]
            omega
          · simp only [Turn.token] at token ⊢
            omega
      | response =>
          simp only [pc, Turn.ServerAt, TokenPc.wait.injEq, exists_eq_left', reduceCtorEq,
            false_or, WaitPc.Holds] at serverAt
          refine ⟨.response, ⟨?_, ?_, clientAt, Or.inr (Or.inr ⟨.read, rfl, trivial⟩)⟩, counts,
            client, server.move active _ (by simp)⟩
          · simp only [TokenPc.held_wait, WaitPc.held_read]
            omega
          · simp only [Turn.token] at token ⊢
            omega
  | serverNotify pc =>
      simp only [note, pc]
      cases turn <;> simp [pc, Turn.ServerAt] at serverAt
      simp only [pc, TokenPc.held_notify, Turn.token] at token
      obtain ⟨notified, returned, answered⟩ := counts
      have empty : pair.counter = 0 := by omega
      refine ⟨.response, ⟨?_, ?_, ⟨.read, clientAt, trivial⟩, Or.inl rfl⟩,
        ⟨notified, returned, by simp [answered, Turn.answered]⟩, client,
        ⟨?_, server.count, by simp [TokenPc.active], by simp⟩⟩
      · have held : pair.client.pc.held = 0 := by omega
        simp [empty, held, Turn.token]
      · simp [empty, Turn.token]
      · have message := server.message
        simp only
        omega

theorem Passing.step (passing : Passing count turn done pair)
    (taken : pair.step party = some next) : ∃ turn, Passing count turn (note done pair party) next := by
  cases party with
  | client => exact passing.stepClient (step_inv taken)
  | server => exact passing.stepServer (step_inv taken)

variable {trace : List (TokenPair × Party)}

theorem Passing.run (run : Run machine (TokenPair.initial count) trace pair) :
    ∃ turn, Passing count turn (TokenPair.passes trace) pair := by
  refine run.invariant (fun trace pair => ∃ turn, Passing count turn (TokenPair.passes trace) pair)
    ⟨.idle, Passing.initial count⟩ ?_
  intro trace pair party next _ held taken
  obtain ⟨turn, passing⟩ := held
  rw [passes_step]
  exact passing.step taken

def blocks (counter : Nat) (pc : TokenPc) : Prop :=
  pc = .wait .read ∧ counter = 0

/-- No token is merged or lost: one token at most, in the counter or in the hands of one
process; the notifications and the returns of the two processes alternate; and the two
are never both blocked before they are finished. -/
structure Orderly (trace : List (TokenPair × Party)) (pair : TokenPair) : Prop where
  counter : pair.counter = 0 ∨ pair.counter = serverToken ∨ pair.counter = clientToken
  single : (pair.counter = 0 ∧ pair.client.pc.held = 0) ∨
    (pair.counter = 0 ∧ pair.server.pc.held = 0) ∨
    (pair.client.pc.held = 0 ∧ pair.server.pc.held = 0)
  held : ∀ stored, 0 < stored → (pair.client.pc.held = stored ∨ pair.server.pc.held = stored) →
    stored = serverToken ∨ stored = clientToken
  serverReturns : (passes trace).serverReturned ≤ (passes trace).clientNotified ∧
    (passes trace).clientNotified ≤ (passes trace).serverReturned + 1
  clientReturns : (passes trace).clientReturned ≤ (passes trace).serverNotified ∧
    (passes trace).serverNotified ≤ (passes trace).clientReturned + 1
  moving : pair.client.pc ≠ .finished ∨ pair.server.pc ≠ .finished →
    ¬((pair.client.pc ≠ .finished → blocks pair.counter pair.client.pc) ∧
      (pair.server.pc ≠ .finished → blocks pair.counter pair.server.pc))

theorem Placed.held_eq (placed : Placed turn pair) :
    (pair.client.pc.held = 0 ∨ pair.client.pc.held = turn.token) ∧
      (pair.server.pc.held = 0 ∨ pair.server.pc.held = turn.token) := by
  obtain ⟨token, counter, clientAt, serverAt⟩ := placed
  have client : pair.client.pc.held = 0 ∨ pair.client.pc.held = turn.token := by
    cases turn with
    | idle => rcases clientAt with pc | pc | pc <;> simp [pc]
    | serving => simp [show pair.client.pc = .wait .read from clientAt]
    | request | response =>
        obtain ⟨place, pc, holds⟩ := clientAt
        rw [pc, TokenPc.held_wait]
        cases place with
        | read => exact Or.inl rfl
        | compare stored => exact Or.inr holds
        | writeBack stored => exact Or.inr holds
  exact ⟨client, by omega⟩

theorem Passing.moving (passing : Passing count turn done pair)
    (running : pair.client.pc ≠ .finished ∨ pair.server.pc ≠ .finished)
    (client : pair.client.pc ≠ .finished → blocks pair.counter pair.client.pc)
    (server : pair.server.pc ≠ .finished → blocks pair.counter pair.server.pc) : False := by
  obtain ⟨⟨token, counter, clientAt, serverAt⟩, ⟨_, _, answered⟩, clientRound, serverRound⟩ :=
    passing
  have clientHeld : pair.client.pc.held = 0 := by
    by_cases isOver : pair.client.pc = .finished
    · rw [isOver]
      rfl
    · rw [(client isOver).1]
      rfl
  have serverHeld : pair.server.pc.held = 0 := by
    by_cases isOver : pair.server.pc = .finished
    · rw [isOver]
      rfl
    · rw [(server isOver).1]
      rfl
  cases turn with
  | idle =>
      -- The client has finished, so the server has no round to wait for.
      have isOver : pair.client.pc = .finished := by
        by_cases isOver : pair.client.pc = .finished
        · exact isOver
        · rcases clientAt with pc | pc | pc <;> simp [pc, blocks] at client isOver
      have waits : pair.server.pc ≠ .finished := by
        rcases running with still | still
        · exact absurd isOver still
        · exact still
      have more := serverRound.active (by rw [(server waits).1]; rfl)
      have ended := clientRound.finished isOver
      have rounds := clientRound.count
      have message := serverRound.message
      have total := serverRound.count
      simp only [Turn.answered] at answered
      omega
  | request =>
      obtain ⟨place, pc, _⟩ := clientAt
      have empty := (client (by simp [pc])).2
      simp only [clientHeld, serverHeld, empty, Turn.token, serverToken] at token
      omega
  | serving =>
      have waits := server (by simp [show pair.server.pc = .notify from serverAt])
      simp [blocks, show pair.server.pc = .notify from serverAt] at waits
  | response =>
      obtain ⟨place, pc, _⟩ := clientAt
      have empty := (client (by simp [pc])).2
      simp only [clientHeld, serverHeld, empty, Turn.token, clientToken] at token
      omega

theorem Passing.orderly (passing : Passing count turn (TokenPair.passes trace) pair) :
    Orderly trace pair := by
  have moving := passing.moving
  obtain ⟨placed, ⟨requested, served, answered⟩, _, _⟩ := passing
  have held := placed.held_eq
  have token := placed.token
  have counter := placed.counter
  have tokens : turn.token = 0 ∨ turn.token = serverToken ∨ turn.token = clientToken := by
    cases turn <;> simp [Turn.token]
  have bounds : turn.served ≤ turn.requested ∧ turn.requested ≤ turn.served + 1 ∧
      turn.answered ≤ 1 := by
    cases turn <;> decide
  refine ⟨by omega, by omega, ?_, by omega, by omega,
    fun running blocked => moving running blocked.1 blocked.2⟩
  intro stored some holder
  omega

end TokenPair

/-- Any number of rounds, any order of the reads and writes of the two processes. -/
theorem tokens_pass_orderly {count : Int} {trace : List (TokenPair × Party)} {pair : TokenPair}
    (run : Run TokenPair.machine (TokenPair.initial count) trace pair) :
    pair.Orderly trace := by
  obtain ⟨turn, passing⟩ := TokenPair.Passing.run run
  exact passing.orderly

/-- A round in which the client reads its own token first and puts it back. -/
theorem tokens_pass_orderly_own : ∃ trace pair,
    Run TokenPair.machine (TokenPair.initial 1) trace pair ∧
    (pair.client.pc = .finished ∧ pair.server.pc = .finished) ∧ pair.Orderly trace := by
  obtain ⟨trace, pair, run, reached⟩ := exists_run_of_execute TokenPair.machine
    (TokenPair.initial 1)
    [.client, .client, .client, .client, .client, .server, .server, .server, .server, .client,
      .client, .client, .server]
    (fun result => result.2.client.pc == .finished && result.2.server.pc == .finished)
    (by decide)
  exact ⟨trace, pair, run, by simpa using reached, tokens_pass_orderly run⟩

end IpcBench
