import IpcBench.Duo

/-!
Sockets for requests and replies: one side sends a request and waits for its reply, the other
receives a request and replies to it. `Exchange` says what passes between two such sockets;
an implementation conforms to it when its calls do to an exchange what is said here.
-/

namespace Requests

open Transition

inductive Answer (Result : Type)
  | done (result : Result)
  | waits
  | failed
deriving DecidableEq, Repr

def Answer.map {Result Other : Type} (change : Result → Other) : Answer Result → Answer Other
  | .done result => .done (change result)
  | .waits => .waits
  | .failed => .failed

structure Exchange (Message : Type) where
  requests : List Message
  replies : List Message
  clientSends : Bool
  serverSends : Bool
deriving DecidableEq, Repr

namespace Exchange

variable {Message : Type}

def initial : Exchange Message where
  requests := []
  replies := []
  clientSends := true
  serverSends := false

/-- A send out of turn is an error. -/
def send (message : Message) (exchange : Exchange Message) : Peer → Answer (Exchange Message)
  | .client =>
      if exchange.clientSends then
        .done { exchange with requests := exchange.requests ++ [message], clientSends := false }
      else .failed
  | .server =>
      if exchange.serverSends then
        .done { exchange with replies := exchange.replies ++ [message], serverSends := false }
      else .failed

def receive (exchange : Exchange Message) : Peer → Answer (Message × Exchange Message)
  | .client =>
      if exchange.clientSends then .failed
      else
        match exchange.replies with
        | [] => .waits
        | message :: rest => .done (message, { exchange with replies := rest, clientSends := true })
  | .server =>
      if exchange.serverSends then .failed
      else
        match exchange.requests with
        | [] => .waits
        | message :: rest => .done (message, { exchange with requests := rest, serverSends := true })

def sent (exchange : Exchange Message) : Peer → List Message
  | .client => exchange.requests
  | .server => exchange.replies

end Exchange

structure Sockets (Message Link : Type) where
  send : Peer → Message → Link → Answer Link
  receive : Peer → Link → Answer (Message × Link)

variable {Message Link : Type}

/-- The calls do what an exchange does; with messages of its own under way, a side may also
have to wait before it sends more. -/
structure Sockets.Conforms (sockets : Sockets Message Link) (view : Link → Exchange Message) :
    Prop where
  send : ∀ peer message link, (view link).sent peer = [] →
    (sockets.send peer message link).map view = (view link).send message peer
  receive : ∀ peer link, (sockets.receive peer link).map (Prod.map id view) =
    (view link).receive peer

def Sockets.plain : Sockets Message (Exchange Message) where
  send peer message exchange := exchange.send message peer
  receive peer exchange := exchange.receive peer

theorem Answer.map_id {Result : Type} (answer : Answer Result) : answer.map id = answer := by
  cases answer <;> rfl

theorem Sockets.plain_conforms : (Sockets.plain : Sockets Message (Exchange Message)).Conforms id where
  send _ _ _ _ := Answer.map_id _
  receive _ _ := Answer.map_id _

section Calls

variable {sockets : Sockets Message Link} {view : Link → Exchange Message} {link next : Link}
  {peer : Peer} {message : Message} {exchange : Exchange Message}

theorem Answer.map_eq_done {Result Other : Type} {change : Result → Other} {answer : Answer Result}
    {other : Other} (done : answer.map change = .done other) :
    ∃ result, answer = .done result ∧ change result = other := by
  cases answer with
  | done result => exact ⟨result, rfl, Answer.done.inj done⟩
  | waits => cases done
  | failed => cases done

theorem Answer.map_eq_waits {Result Other : Type} {change : Result → Other} {answer : Answer Result}
    (waits : answer.map change = .waits) : answer = .waits := by
  cases answer with
  | waits => rfl
  | done result => cases waits
  | failed => cases waits

theorem Sockets.Conforms.send_done (conforms : sockets.Conforms view)
    (free : (view link).sent peer = []) (sends : (view link).send message peer = .done exchange) :
    ∃ next, sockets.send peer message link = .done next ∧ view next = exchange :=
  Answer.map_eq_done ((conforms.send peer message link free).trans sends)

theorem Sockets.Conforms.receive_done (conforms : sockets.Conforms view)
    (receives : (view link).receive peer = .done (message, exchange)) :
    ∃ next, sockets.receive peer link = .done (message, next) ∧ view next = exchange := by
  obtain ⟨⟨_, next⟩, done, same⟩ := Answer.map_eq_done ((conforms.receive peer link).trans receives)
  cases same
  exact ⟨next, done, rfl⟩

theorem Sockets.Conforms.receive_waits (conforms : sockets.Conforms view)
    (waits : (view link).receive peer = .waits) : sockets.receive peer link = .waits :=
  Answer.map_eq_waits ((conforms.receive peer link).trans waits)

end Calls

end Requests
