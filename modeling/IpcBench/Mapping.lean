import IpcBench.Duo
import Mathlib.Logic.Function.Basic

/-!
The shm and mmap transports: a server and a client that exchange messages through one
mapping, in which byte 0 is the guard. The loops are the same in both transports; they
differ in where the payload begins.
-/

namespace IpcBench

open Transition

/-- A byte of a mapping; for a payload byte also whose message it belongs to. -/
structure Cell where
  value : Char
  message : Option (Peer × Nat)
deriving DecidableEq, Repr

abbrev Memory := Nat → Cell

def zeroFilled : Memory :=
  fun _ => ⟨Char.ofNat 0, none⟩

structure Mapping where
  payload : Nat
  size : Nat
  count : Nat
deriving DecidableEq, Repr

def shm (size count : Nat) : Mapping where
  payload := 1
  size := size
  count := count

def mmap (size count : Nat) : Mapping where
  payload := 0
  size := size
  count := count

def guardIs (wanted : Char) (memory : Memory) : Bool :=
  (memory 0).value = wanted

def guardStore (value : Char) (memory : Memory) : Memory :=
  Function.update memory 0 ⟨value, none⟩

/-! `shm_wait` and `shm_notify`, `mmap_wait` and `mmap_notify`, of either side. -/

def serverWait (memory : Memory) : Bool :=
  guardIs 's' memory

def serverNotify (memory : Memory) : Memory :=
  guardStore 'c' memory

def clientWait (memory : Memory) : Bool :=
  guardIs 'c' memory

/-- Also the `atomic_init` of the shm client. -/
def clientNotify (memory : Memory) : Memory :=
  guardStore 's' memory

def Mapping.put (mapping : Mapping) (index : Nat) (message : Peer × Nat) (memory : Memory) :
    Memory :=
  Function.update memory (mapping.payload + index) ⟨'*', some message⟩

inductive MappedServerPc
  | start
  | test
  | memset (index : Nat)
  | notify
  | wait
  | memcpy (index : Nat)
  | finished
deriving DecidableEq, Repr

/-- A server in `communicate`. `copies` keeps every content its buffer has had. -/
structure MappedServer where
  pc : MappedServerPc
  message : Nat
  buffer : List Cell
  copies : List (List Cell)
deriving DecidableEq, Repr

inductive MappedClientPc
  | init
  | test
  | wait
  | memcpy (index : Nat)
  | memset (index : Nat)
  | notify
  | finished
deriving DecidableEq, Repr

structure MappedClient where
  pc : MappedClientPc
  count : Nat
  buffer : List Cell
  copies : List (List Cell)
deriving DecidableEq, Repr

def MappedServer.initial : MappedServer where
  pc := .start
  message := 0
  buffer := []
  copies := []

def MappedClient.initial (mapping : Mapping) : MappedClient where
  pc := .init
  count := mapping.count
  buffer := []
  copies := []

/-- A wait that finds another value looks again. -/
def MappedServer.step (mapping : Mapping) (memory : Memory) (server : MappedServer) :
    Option (Memory × MappedServer) :=
  match server.pc with
  | .start =>
      if serverWait memory then some (memory, { server with pc := .test })
      else some (memory, server)
  | .test =>
      if server.message < mapping.count then some (memory, { server with pc := .memset 0 })
      else some (memory, { server with pc := .finished })
  | .memset index =>
      if index < mapping.size then
        some (mapping.put index (.server, server.message) memory,
          { server with pc := .memset (index + 1) })
      else some (memory, { server with pc := .notify })
  | .notify => some (serverNotify memory, { server with pc := .wait })
  | .wait =>
      if serverWait memory then some (memory, { server with pc := .memcpy 0, buffer := [] })
      else some (memory, server)
  | .memcpy index =>
      if index < mapping.size then
        some (memory, { server with
          pc := .memcpy (index + 1)
          buffer := server.buffer ++ [memory (mapping.payload + index)] })
      else
        some (memory, { server with
          pc := .test
          message := server.message + 1
          copies := server.copies ++ [server.buffer] })
  | .finished => none

def MappedClient.round (mapping : Mapping) (client : MappedClient) : Nat :=
  mapping.count - client.count

def MappedClient.step (mapping : Mapping) (memory : Memory) (client : MappedClient) :
    Option (Memory × MappedClient) :=
  match client.pc with
  | .init => some (clientNotify memory, { client with pc := .test })
  | .test =>
      if 0 < client.count then some (memory, { client with pc := .wait })
      else some (memory, { client with pc := .finished })
  | .wait =>
      if clientWait memory then some (memory, { client with pc := .memcpy 0, buffer := [] })
      else some (memory, client)
  | .memcpy index =>
      if index < mapping.size then
        some (memory, { client with
          pc := .memcpy (index + 1)
          buffer := client.buffer ++ [memory (mapping.payload + index)] })
      else
        some (memory, { client with
          pc := .memset 0
          copies := client.copies ++ [client.buffer] })
  | .memset index =>
      if index < mapping.size then
        some (mapping.put index (.client, client.round mapping) memory,
          { client with pc := .memset (index + 1) })
      else some (memory, { client with pc := .notify })
  | .notify =>
      some (clientNotify memory, { client with pc := .test, count := client.count - 1 })
  | .finished => none

abbrev MappedPair := Duo Memory MappedClient MappedServer

namespace Mapping

def machine (mapping : Mapping) : Machine MappedPair Peer :=
  Duo.machine (MappedClient.step mapping) (MappedServer.step mapping)

def initial (mapping : Mapping) (memory : Memory) : MappedPair where
  shared := memory
  client := MappedClient.initial mapping
  server := MappedServer.initial

end Mapping

/-! The accesses to the payload. -/

inductive Access
  | serverMemset
  | clientMemcpy
  | clientMemset
  | serverMemcpy
deriving DecidableEq, Repr

inductive AccessMove
  | enter (access : Access)
  | leave (access : Access)
deriving DecidableEq, Repr

def accessMove : Nat → AccessMove
  | 0 => .enter .serverMemset
  | 1 => .leave .serverMemset
  | 2 => .enter .clientMemcpy
  | 3 => .leave .clientMemcpy
  | 4 => .enter .clientMemset
  | 5 => .leave .clientMemset
  | 6 => .enter .serverMemcpy
  | _ => .leave .serverMemcpy

def accessScript : Nat → AccessMove × Nat :=
  rounds 8 accessMove

def MappedServerPc.inside : MappedServerPc → Bool
  | .memset _ => true
  | .memcpy _ => true
  | _ => false

def MappedClientPc.inside : MappedClientPc → Bool
  | .memcpy _ => true
  | .memset _ => true
  | _ => false

namespace Mapping

variable (mapping : Mapping)

def note (pair : MappedPair) : Peer → List (AccessMove × Nat)
  | .client =>
      let round := pair.client.round mapping
      match pair.client.pc with
      | .wait => if clientWait pair.shared then [(.enter .clientMemcpy, round)] else []
      | .memcpy index =>
          if index < mapping.size then []
          else [(.leave .clientMemcpy, round), (.enter .clientMemset, round)]
      | .memset index => if index < mapping.size then [] else [(.leave .clientMemset, round)]
      | _ => []
  | .server =>
      let round := pair.server.message
      match pair.server.pc with
      | .test => if round < mapping.count then [(.enter .serverMemset, round)] else []
      | .memset index => if index < mapping.size then [] else [(.leave .serverMemset, round)]
      | .wait => if serverWait pair.shared then [(.enter .serverMemcpy, round)] else []
      | .memcpy index => if index < mapping.size then [] else [(.leave .serverMemcpy, round)]
      | _ => []

def accesses (trace : List (MappedPair × Peer)) : List (AccessMove × Nat) :=
  trace.flatMap fun entry => mapping.note entry.1 entry.2

def Spins (pair : MappedPair) : Prop :=
  Stranded (pair.client.pc = .finished)
    (pair.client.pc = .wait ∧ clientWait pair.shared = false)
    (pair.server.pc = .finished)
    ((pair.server.pc = .start ∨ pair.server.pc = .wait) ∧ serverWait pair.shared = false)

end Mapping

end IpcBench
