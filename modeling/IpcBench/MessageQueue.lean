import IpcBench.Duo
import Mathlib.Algebra.GroupWithZero.Nat

/-!
The mq transport: a server and a client that pass one message to and fro through a System V
message queue, told apart by the types of the messages.
-/

namespace IpcBench

open Transition

def maximumMessageSize : Nat := 2048

def clientMessageType : Nat := 1

def serverMessageType : Nat := 2

structure Message where
  type : Nat
  text : List Char
  round : Nat
deriving DecidableEq, Repr

structure MessageQueue where
  messages : List Message
  bytes : Nat
  removed : Bool
deriving DecidableEq, Repr

inductive Sending
  | sent (queue : MessageQueue)
  | full
  | failed
deriving DecidableEq, Repr

inductive Receiving
  | received (message : Message) (queue : MessageQueue)
  | empty
  | failed
deriving DecidableEq, Repr

namespace MessageQueue

def used (queue : MessageQueue) : Nat :=
  (queue.messages.map fun message => message.text.length).sum

/-- The capacity bounds the bytes and also the number of messages. -/
def msgsnd (queue : MessageQueue) (message : Message) : Sending :=
  if queue.removed then .failed
  else if queue.used + message.text.length ≤ queue.bytes ∧
      queue.messages.length + 1 ≤ queue.bytes then
    .sent { queue with messages := queue.messages ++ [message] }
  else .full

/-- The first message of the type, unless it is larger than the buffer. -/
def msgrcv (queue : MessageQueue) (size type : Nat) : Receiving :=
  if queue.removed then .failed
  else
    match queue.messages.find? fun message => message.type = type with
    | none => .empty
    | some message =>
        if size < message.text.length then .failed
        else .received message { queue with messages := queue.messages.erase message }

end MessageQueue

inductive QueueServerPc
  | test
  | send
  | receive
  | cleanup
  | finished
  | failed
deriving DecidableEq, Repr

structure QueueServer where
  pc : QueueServerPc
  index : Nat
  received : List Message
deriving DecidableEq, Repr

inductive QueueClientPc
  | test
  | receive
  | send
  | finished
  | failed
deriving DecidableEq, Repr

structure QueueClient where
  pc : QueueClientPc
  count : Nat
  received : List Message
deriving DecidableEq, Repr

structure QueueArguments where
  size : Nat
  count : Nat
deriving DecidableEq, Repr

namespace QueueArguments

def limitMessageSize (args : QueueArguments) : QueueArguments :=
  if maximumMessageSize < args.size then { args with size := maximumMessageSize } else args

variable (args : QueueArguments)

def serverMessage (round : Nat) : Message where
  type := serverMessageType
  text := List.replicate args.size '2'
  round := round

def clientMessage (round : Nat) : Message where
  type := clientMessageType
  text := List.replicate args.size '1'
  round := round

end QueueArguments

/-- An error in a system call ends the process; the server does not wait for space. -/
def QueueServer.step (args : QueueArguments) (queue : MessageQueue) (server : QueueServer) :
    Option (MessageQueue × QueueServer) :=
  match server.pc with
  | .test =>
      if server.index < args.count then some (queue, { server with pc := .send })
      else some (queue, { server with pc := .cleanup })
  | .send =>
      match queue.msgsnd (args.serverMessage server.index) with
      | .sent queue => some (queue, { server with pc := .receive })
      | .full => some (queue, { server with pc := .failed })
      | .failed => some (queue, { server with pc := .failed })
  | .receive =>
      match queue.msgrcv args.size clientMessageType with
      | .received message rest =>
          if message.text.length < args.size then some (rest, { server with pc := .failed })
          else
            some (rest, { server with
              pc := .test
              index := server.index + 1
              received := server.received ++ [message] })
      | .empty => none
      | .failed => some (queue, { server with pc := .failed })
  | .cleanup =>
      if queue.removed then some (queue, { server with pc := .failed })
      else some ({ queue with removed := true }, { server with pc := .finished })
  | .finished => none
  | .failed => none

def QueueClient.round (args : QueueArguments) (client : QueueClient) : Nat :=
  args.count - client.count

def QueueClient.step (args : QueueArguments) (queue : MessageQueue) (client : QueueClient) :
    Option (MessageQueue × QueueClient) :=
  match client.pc with
  | .test =>
      if 0 < client.count then some (queue, { client with pc := .receive })
      else some (queue, { client with pc := .finished })
  | .receive =>
      match queue.msgrcv args.size serverMessageType with
      | .received message rest =>
          if message.text.length < args.size then some (rest, { client with pc := .failed })
          else
            some (rest, { client with
              pc := .send
              received := client.received ++ [message] })
      | .empty => none
      | .failed => some (queue, { client with pc := .failed })
  | .send =>
      match queue.msgsnd (args.clientMessage (client.round args)) with
      | .sent queue => some (queue, { client with pc := .test, count := client.count - 1 })
      | .full => none
      | .failed => some (queue, { client with pc := .failed })
  | .finished => none
  | .failed => none

abbrev QueuePair := Duo MessageQueue QueueClient QueueServer

def queueMachine (args : QueueArguments) : Machine QueuePair Peer :=
  Duo.machine (QueueClient.step args) (QueueServer.step args)

def QueuePair.initial (args : QueueArguments) (bytes : Nat) : QueuePair where
  shared := ⟨[], bytes, false⟩
  client := ⟨.test, args.count, []⟩
  server := ⟨.test, 0, []⟩

/-! What passes through the queue. -/

inductive QueueMove
  | sent (sender : Peer)
  | received (receiver : Peer)
deriving DecidableEq, Repr

def queueMove : Nat → QueueMove
  | 0 => .sent .server
  | 1 => .received .client
  | 2 => .sent .client
  | _ => .received .server

def queueScript : Nat → QueueMove × Nat :=
  rounds 4 queueMove

namespace QueuePair

def note (args : QueueArguments) (pair : QueuePair) : Peer → List (QueueMove × Nat)
  | .client =>
      match pair.client.pc with
      | .receive =>
          match pair.shared.msgrcv args.size serverMessageType with
          | .received message _ => [(.received .client, message.round)]
          | _ => []
      | .send =>
          match pair.shared.msgsnd (args.clientMessage (pair.client.round args)) with
          | .sent _ => [(.sent .client, pair.client.round args)]
          | _ => []
      | _ => []
  | .server =>
      match pair.server.pc with
      | .send =>
          match pair.shared.msgsnd (args.serverMessage pair.server.index) with
          | .sent _ => [(.sent .server, pair.server.index)]
          | _ => []
      | .receive =>
          match pair.shared.msgrcv args.size clientMessageType with
          | .received message _ => [(.received .server, message.round)]
          | _ => []
      | _ => []

def passed (args : QueueArguments) (trace : List (QueuePair × Peer)) : List (QueueMove × Nat) :=
  trace.flatMap fun entry => entry.1.note args entry.2

end QueuePair

end IpcBench
