import IpcBench.Arguments
import IpcBench.Transfer
import Mathlib.Algebra.GroupWithZero.Nat

/-!
What the client and the server processes of the tcp, domain and fifo transports
have in common: the actions they take and the answers of the operating system.
-/

namespace IpcBench

inductive Transport
  | tcp
  | domain
  | fifo
deriving DecidableEq, Repr

/-- The tcp processes pass `nonBlock = true` to their helpers, the domain processes
`false`; the pipe helpers have no such parameter and always block. -/
def Transport.nonBlock : Transport → Bool
  | .tcp => true
  | .domain => false
  | .fifo => false

/-- An action of a process with the answer of its environment. A `poll` that
returns -1 has no answer; otherwise the answer says whether the read side is
reported readable and the write side writable. `stop` is a transfer call that
returned 0 or -1, `broken` one that also raised SIGPIPE. The code between two
system calls is one action, given the time that `now()` returns in it. -/
inductive Action (Byte : Type)
  | signal
  | advance (time : Nat)
  | poll (ready : Option (Bool × Bool))
  | recv (data : List Byte)
  | send (amount : Nat)
  | stop
  | broken
deriving DecidableEq, Repr

namespace Action

variable {Byte : Type}

def received : Action Byte → Nat
  | .recv data => data.length
  | _ => 0

def sent : Action Byte → Nat
  | .send amount => amount
  | _ => 0

def incoming : Action Byte → List Byte
  | .recv data => data
  | _ => []

def outgoing (buffered : Nat → List Byte) : Action Byte → List Byte
  | .send amount => buffered amount
  | _ => []

theorem incoming_length (action : Action Byte) : action.incoming.length = action.received := by
  cases action <;> rfl

def undisturbed : Action Byte → Bool
  | .signal => false
  | .poll none => false
  | .broken => false
  | _ => true

end Action

theorem Config.metaData_consistent (config : Config) (transfer : Transfer) :
    (transfer.metaData config.arguments.reqSize).Consistent config.size := by
  rw [Config.reqSize_eq]
  exact Transfer.metaData_consistent config.size transfer

def bytesReceived {State Byte : Type} (trace : List (State × Action Byte)) : Nat :=
  (trace.map fun entry => entry.2.received).sum

def bytesSent {State Byte : Type} (trace : List (State × Action Byte)) : Nat :=
  (trace.map fun entry => entry.2.sent).sum

def bytesIn {State Byte : Type} (trace : List (State × Action Byte)) : List Byte :=
  trace.flatMap fun entry => entry.2.incoming

def bytesOut {State Byte : Type} (buffered : State → Nat → List Byte)
    (trace : List (State × Action Byte)) : List Byte :=
  trace.flatMap fun entry => entry.2.outgoing (buffered entry.1)

section Totals

variable {State Byte : Type}

@[simp] theorem bytesReceived_nil : bytesReceived ([] : List (State × Action Byte)) = 0 := rfl

@[simp] theorem bytesReceived_step (trace : List (State × Action Byte)) (state : State)
    (action : Action Byte) :
    bytesReceived (trace ++ [(state, action)]) = bytesReceived trace + action.received := by
  simp [bytesReceived]

@[simp] theorem bytesSent_nil : bytesSent ([] : List (State × Action Byte)) = 0 := rfl

@[simp] theorem bytesSent_step (trace : List (State × Action Byte)) (state : State)
    (action : Action Byte) :
    bytesSent (trace ++ [(state, action)]) = bytesSent trace + action.sent := by
  simp [bytesSent]

@[simp] theorem bytesIn_nil : bytesIn ([] : List (State × Action Byte)) = [] := rfl

@[simp] theorem bytesIn_step (trace : List (State × Action Byte)) (state : State)
    (action : Action Byte) :
    bytesIn (trace ++ [(state, action)]) = bytesIn trace ++ action.incoming := by
  simp [bytesIn]

@[simp] theorem bytesOut_nil (buffered : State → Nat → List Byte) :
    bytesOut buffered ([] : List (State × Action Byte)) = [] := rfl

@[simp] theorem bytesOut_step (buffered : State → Nat → List Byte)
    (trace : List (State × Action Byte)) (state : State) (action : Action Byte) :
    bytesOut buffered (trace ++ [(state, action)]) =
      bytesOut buffered trace ++ action.outgoing (buffered state) := by
  simp [bytesOut]

theorem bytesIn_length (trace : List (State × Action Byte)) :
    (bytesIn trace).length = bytesReceived trace := by
  simp [bytesIn, bytesReceived, List.length_flatMap, Action.incoming_length]

end Totals

end IpcBench
