import IpcBench.MessageQueue
import IpcBench.Requests

/-!
The zeromq transport: a client that sends requests through a `ZMQ_REQ` socket and a server
that replies to them through a `ZMQ_REP` socket. The sockets are any that conform to an exchange
of requests and replies.
-/

namespace IpcBench

open Transition Requests

inductive ZmqPc
  | test
  | send
  | receive
  | finished
  | failed
deriving DecidableEq, Repr

structure ZmqClient where
  pc : ZmqPc
  message : Nat
  buffer : List Char
  received : List (List Char)
deriving DecidableEq, Repr

structure ZmqServer where
  pc : ZmqPc
  count : Nat
  buffer : List Char
  received : List (List Char)
deriving DecidableEq, Repr

/-- What `zmq_recv` leaves in the buffer; the end of a long message is lost. -/
def recvInto (message buffer : List Char) : List Char :=
  message.take buffer.length ++ buffer.drop message.length

section Steps

variable {Link : Type} (sockets : Sockets (List Char) Link) (args : QueueArguments)

def ZmqClient.step (link : Link) (client : ZmqClient) : Option (Link × ZmqClient) :=
  match client.pc with
  | .test =>
      if client.message < args.count then some (link, { client with pc := .send })
      else some (link, { client with pc := .finished })
  | .send =>
      match sockets.send .client client.buffer link with
      | .done link =>
          if client.buffer.length < args.size then some (link, { client with pc := .failed })
          else some (link, { client with pc := .receive })
      | .waits => none
      | .failed => some (link, { client with pc := .failed })
  | .receive =>
      match sockets.receive .client link with
      | .done (message, link) =>
          if message.length < args.size then some (link, { client with pc := .failed })
          else
            some (link, {
              pc := .test
              message := client.message + 1
              buffer := recvInto message client.buffer
              received := client.received ++ [message] })
      | .waits => none
      | .failed => some (link, { client with pc := .failed })
  | .finished => none
  | .failed => none

def ZmqServer.step (link : Link) (server : ZmqServer) : Option (Link × ZmqServer) :=
  match server.pc with
  | .test =>
      if 0 < server.count then some (link, { server with pc := .receive })
      else some (link, { server with pc := .finished })
  | .receive =>
      match sockets.receive .server link with
      | .done (message, link) =>
          if message.length < args.size then some (link, { server with pc := .failed })
          else
            some (link, { server with
              pc := .send
              buffer := List.replicate args.size '*'
              received := server.received ++ [message] })
      | .waits => none
      | .failed => some (link, { server with pc := .failed })
  | .send =>
      match sockets.send .server server.buffer link with
      | .done link =>
          if server.buffer.length < args.size then some (link, { server with pc := .failed })
          else some (link, { server with pc := .test, count := server.count - 1 })
      | .waits => none
      | .failed => some (link, { server with pc := .failed })
  | .finished => none
  | .failed => none

end Steps

abbrev ZmqPair (Link : Type) := Duo Link ZmqClient ZmqServer

def zmqMachine {Link : Type} (sockets : Sockets (List Char) Link) (args : QueueArguments) :
    Machine (ZmqPair Link) Peer :=
  Duo.machine (ZmqClient.step sockets args) (ZmqServer.step sockets args)

/-- `malloc` leaves anything in the buffers. -/
def ZmqPair.initial {Link : Type} (args : QueueArguments) (link : Link)
    (clientBuffer serverBuffer : List Char) : ZmqPair Link where
  shared := link
  client := ⟨.test, 0, clientBuffer, []⟩
  server := ⟨.test, args.count, serverBuffer, []⟩

/-! What passes through the sockets. -/

def zmqMove : Nat → QueueMove
  | 0 => .sent .client
  | 1 => .received .server
  | 2 => .sent .server
  | _ => .received .client

def zmqScript : Nat → QueueMove × Nat :=
  rounds 4 zmqMove

def stars (args : QueueArguments) : List Char :=
  List.replicate args.size '*'

/-- The first request is what the client's buffer held, all others are the reply before. -/
def zmqRequest (args : QueueArguments) (clientBuffer : List Char) (round : Nat) : List Char :=
  if round = 0 then clientBuffer else stars args

section Notes

variable {Link : Type} (sockets : Sockets (List Char) Link) (args : QueueArguments)

def ZmqPair.note (pair : ZmqPair Link) : Peer → List (QueueMove × Nat)
  | .client =>
      match pair.client.pc with
      | .send =>
          match sockets.send .client pair.client.buffer pair.shared with
          | .done _ => [(.sent .client, pair.client.message)]
          | _ => []
      | .receive =>
          match sockets.receive .client pair.shared with
          | .done _ => [(.received .client, pair.client.message)]
          | _ => []
      | _ => []
  | .server =>
      match pair.server.pc with
      | .send =>
          match sockets.send .server pair.server.buffer pair.shared with
          | .done _ => [(.sent .server, args.count - pair.server.count)]
          | _ => []
      | .receive =>
          match sockets.receive .server pair.shared with
          | .done _ => [(.received .server, args.count - pair.server.count)]
          | _ => []
      | _ => []

def ZmqPair.passed (trace : List (ZmqPair Link × Peer)) : List (QueueMove × Nat) :=
  trace.flatMap fun entry => entry.1.note sockets args entry.2

end Notes

end IpcBench
