import IpcBench.StartUp

/-!
The pipe transport: a parent that writes messages into a pipe and a child that reads them,
each telling the other by a signal when it is its turn.
-/

namespace IpcBench

open Transition Signals

structure PipeSetup where
  size : Nat
  count : Nat
  capacity : Nat
deriving DecidableEq, Repr

abbrev PipeByte := Nat × Nat

structure PipeShared where
  pipe : List PipeByte
  signals : Peer → SignalState UserSignal

inductive PipeClientPc
  | start
  | test
  | wait
  | read
  | notify
  | finished
deriving DecidableEq, Repr

structure PipeClient where
  pc : PipeClientPc
  count : Nat
  buffer : List PipeByte
  messages : List (List PipeByte)
deriving DecidableEq, Repr

inductive PipeServerPc
  | start
  | test
  | write (index : Nat)
  | notify
  | wait
  | finished
deriving DecidableEq, Repr

/-- The parent in `server_communicate`. -/
structure PipeServer where
  pc : PipeServerPc
  message : Nat
deriving DecidableEq, Repr

namespace PipeShared

def send (signal : UserSignal) (shared : PipeShared) : PipeShared :=
  { shared with signals := fun process => (shared.signals process).deliver signal }

def await (process : Peer) (flags : Nat) (shared : PipeShared) : Option PipeShared :=
  ((shared.signals process).take (signalMask flags)).map fun state =>
    { shared with signals := Function.update shared.signals process state }

end PipeShared

/-- `fread` takes byte after byte and waits while the pipe is empty. -/
def PipeClient.step (setup : PipeSetup) (shared : PipeShared) (client : PipeClient) :
    Option (PipeShared × PipeClient) :=
  match client.pc with
  | .start => some (shared.send .usr1, { client with pc := .test })
  | .test =>
      if 0 < client.count then some (shared, { client with pc := .wait })
      else some (shared, { client with pc := .finished })
  | .wait =>
      (shared.await .client clientFlags).map fun shared =>
        (shared, { client with pc := .read, buffer := [] })
  | .read =>
      if client.buffer.length < setup.size then
        match shared.pipe with
        | [] => none
        | byte :: rest =>
            some ({ shared with pipe := rest }, { client with buffer := client.buffer ++ [byte] })
      else
        some (shared, { client with pc := .notify, messages := client.messages ++ [client.buffer] })
  | .notify => some (shared.send .usr1, { client with pc := .test, count := client.count - 1 })
  | .finished => none

def PipeServer.step (setup : PipeSetup) (shared : PipeShared) (server : PipeServer) :
    Option (PipeShared × PipeServer) :=
  match server.pc with
  | .start =>
      (shared.await .server serverFlags).map fun shared => (shared, { server with pc := .test })
  | .test =>
      if server.message < setup.count then some (shared, { server with pc := .write 0 })
      else some (shared, { server with pc := .finished })
  | .write index =>
      if index < setup.size then
        if shared.pipe.length < setup.capacity then
          some ({ shared with pipe := shared.pipe ++ [(server.message, index)] },
            { server with pc := .write (index + 1) })
        else none
      else some (shared, { server with pc := .notify })
  | .notify => some (shared.send .usr2, { server with pc := .wait })
  | .wait =>
      (shared.await .server serverFlags).map fun shared =>
        (shared, { server with pc := .test, message := server.message + 1 })
  | .finished => none

abbrev PipePair := Duo PipeShared PipeClient PipeServer

def pipeMachine (setup : PipeSetup) : Machine PipePair Peer :=
  Duo.machine (PipeClient.step setup) (PipeServer.step setup)

def afterSetup (calls : List (Call UserSignal)) : SignalState UserSignal :=
  calls.foldl (fun state call => (call.own state).getD state) .initial

namespace PipePair

def initial (setup : PipeSetup) : PipePair where
  shared := {
    pipe := []
    signals := fun
      | .client => afterSetup setupClientSignals
      | .server => afterSetup setupServerSignals }
  client := ⟨.start, setup.count, [], []⟩
  server := ⟨.start, 0⟩

def Merges (pair : PipePair) : Peer → Prop
  | .client => (pair.client.pc = .start ∨ pair.client.pc = .notify) ∧
      (pair.shared.signals .server).pending .usr1 = true
  | .server => pair.server.pc = .notify ∧ (pair.shared.signals .client).pending .usr2 = true

end PipePair

def pipeMessage (size round : Nat) : List PipeByte :=
  (List.range size).map fun index => (round, index)

/-- What a run of the transport promises: the two do not block each other, no notification
is merged with an earlier one, and the client has the messages of the server. -/
structure PipePair.Completes (setup : PipeSetup) (trace : List (PipePair × Peer))
    (pair : PipePair) : Prop where
  goes_on : ¬Stranded (pair.client.pc = .finished) (pair.client.step setup pair.shared = none)
    (pair.server.pc = .finished) (pair.server.step setup pair.shared = none)
  separate : ∀ entry ∈ trace, ¬entry.1.Merges entry.2
  messages : ∃ rounds, rounds ≤ setup.count ∧
    pair.client.messages = (List.range rounds).map (pipeMessage setup.size) ∧
    (pair.client.pc = .finished → rounds = setup.count)

end IpcBench
