import IpcBench.Channel
import IpcBench.ClientBalance
import IpcBench.ServerBalance

/-!
A client and a server that run in parallel and are joined by two channels. One step
is one action of one of the two processes, so every interleaving is a run.
-/

namespace IpcBench

open Words Transition

variable {Byte : Type}

structure Pair (Byte : Type) where
  client : Client Byte
  server : Server Byte
  requests : Channel Byte
  responses : Channel Byte

inductive PairAction (Byte : Type)
  | client (action : Action Byte)
  | server (action : Action Byte)
deriving DecidableEq, Repr

namespace PairAction

def ofClient : PairAction Byte → Option (Action Byte)
  | .client action => some action
  | .server _ => none

def ofServer : PairAction Byte → Option (Action Byte)
  | .client _ => none
  | .server action => some action

def undisturbed : PairAction Byte → Bool
  | .client action => action.undisturbed
  | .server action => action.undisturbed

end PairAction

def Action.transfer [DecidableEq Byte] (buffered : Nat → List Byte)
    (input output : Channel Byte) : Action Byte → Option (Channel Byte × Channel Byte)
  | .recv data => (input.receive data).map fun input => (input, output)
  | .send amount => (output.send (buffered amount)).map fun output => (input, output)
  | _ => some (input, output)

theorem Action.transfer_carries [DecidableEq Byte] {buffered : Nat → List Byte}
    {input output input' output' : Channel Byte} {action : Action Byte}
    (moved : action.transfer buffered input output = some (input', output'))
    {sentIn receivedIn sentOut receivedOut : List Byte}
    (carriesIn : input.Carries sentIn receivedIn) (carriesOut : output.Carries sentOut receivedOut) :
    input'.Carries sentIn (receivedIn ++ action.incoming) ∧
      output'.Carries (sentOut ++ action.outgoing buffered) receivedOut := by
  cases action with
  | recv data =>
      simp only [Action.transfer, Option.map_eq_some_iff, Prod.mk.injEq] at moved
      obtain ⟨_, taken, rfl, rfl⟩ := moved
      exact ⟨carriesIn.receive taken, by simpa [Action.outgoing] using carriesOut⟩
  | send amount =>
      simp only [Action.transfer, Option.map_eq_some_iff, Prod.mk.injEq] at moved
      obtain ⟨_, taken, rfl, rfl⟩ := moved
      exact ⟨by simpa [Action.incoming] using carriesIn, carriesOut.send taken⟩
  | signal | advance time | poll ready | stop | broken =>
      simp only [Action.transfer, Option.some.injEq, Prod.mk.injEq] at moved
      obtain ⟨rfl, rfl⟩ := moved
      exact ⟨by simpa [Action.incoming] using carriesIn, by simpa [Action.outgoing] using carriesOut⟩

theorem Action.transfer_received [DecidableEq Byte] {buffered : Nat → List Byte}
    {input output input' output' : Channel Byte} {action : Action Byte}
    (moved : action.transfer buffered input output = some (input', output')) :
    action.received ≤ input.content.length := by
  cases action with
  | recv data =>
      simp only [Action.transfer, Option.map_eq_some_iff, Prod.mk.injEq] at moved
      obtain ⟨_, taken, _⟩ := moved
      have content := (Channel.receive_eq taken).1
      rw [content, List.length_append]
      exact Nat.le_add_right _ _
  | _ => exact Nat.zero_le _

theorem Action.transfer_capacity [DecidableEq Byte] {buffered : Nat → List Byte}
    {input output input' output' : Channel Byte} {action : Action Byte}
    (moved : action.transfer buffered input output = some (input', output')) :
    input'.capacity = input.capacity ∧ output'.capacity = output.capacity := by
  cases action with
  | recv data =>
      simp only [Action.transfer, Option.map_eq_some_iff, Prod.mk.injEq] at moved
      obtain ⟨_, taken, rfl, rfl⟩ := moved
      exact ⟨(Channel.receive_eq taken).2, rfl⟩
  | send amount =>
      simp only [Action.transfer, Option.map_eq_some_iff, Prod.mk.injEq] at moved
      obtain ⟨_, taken, rfl, rfl⟩ := moved
      exact ⟨rfl, (Channel.send_eq taken).2.1⟩
  | signal | advance time | poll ready | stop | broken =>
      simp only [Action.transfer, Option.some.injEq, Prod.mk.injEq] at moved
      obtain ⟨rfl, rfl⟩ := moved
      exact ⟨rfl, rfl⟩

namespace Pair

def step [DecidableEq Byte] (transport : Transport) (args : Arguments) (pair : Pair Byte) :
    PairAction Byte → Option (Pair Byte)
  | .client action =>
      match action.transfer pair.client.outgoing pair.responses pair.requests,
          pair.client.step args action with
      | some (responses, requests), some client =>
          some { pair with client := client, responses := responses, requests := requests }
      | _, _ => none
  | .server action =>
      match action.transfer pair.server.outgoing pair.requests pair.responses,
          pair.server.step transport args action with
      | some (requests, responses), some server =>
          some { pair with server := server, responses := responses, requests := requests }
      | _, _ => none

def machine [DecidableEq Byte] (transport : Transport) (args : Arguments) :
    Machine (Pair Byte) (PairAction Byte) where
  step := step transport args

variable [DecidableEq Byte] {transport : Transport} {args : Arguments} {pair next : Pair Byte}

theorem step_client {action : Action Byte}
    (taken : pair.step transport args (.client action) = some next) :
    action.transfer pair.client.outgoing pair.responses pair.requests =
        some (next.responses, next.requests) ∧
      pair.client.step args action = some next.client ∧ next.server = pair.server := by
  simp only [step] at taken
  split at taken
  · rename_i responses requests client moved stepped
    cases taken
    exact ⟨moved, stepped, rfl⟩
  · cases taken

theorem step_server {action : Action Byte}
    (taken : pair.step transport args (.server action) = some next) :
    action.transfer pair.server.outgoing pair.requests pair.responses =
        some (next.requests, next.responses) ∧
      pair.server.step transport args action = some next.server ∧ next.client = pair.client := by
  simp only [step] at taken
  split at taken
  · rename_i requests responses server moved stepped
    cases taken
    exact ⟨moved, stepped, rfl⟩
  · cases taken

end Pair

def clientTrace (trace : List (Pair Byte × PairAction Byte)) :
    List (Client Byte × Action Byte) :=
  project Pair.client PairAction.ofClient trace

def serverTrace (trace : List (Pair Byte × PairAction Byte)) :
    List (Server Byte × Action Byte) :=
  project Pair.server PairAction.ofServer trace

section Traces

variable (trace : List (Pair Byte × PairAction Byte)) (pair : Pair Byte) (action : Action Byte)

@[simp] theorem clientTrace_nil : clientTrace ([] : List (Pair Byte × PairAction Byte)) = [] := rfl

@[simp] theorem serverTrace_nil : serverTrace ([] : List (Pair Byte × PairAction Byte)) = [] := rfl

@[simp] theorem clientTrace_client :
    clientTrace (trace ++ [(pair, .client action)]) =
      clientTrace trace ++ [(pair.client, action)] := by
  simp [clientTrace, project_step, PairAction.ofClient]

@[simp] theorem clientTrace_server :
    clientTrace (trace ++ [(pair, .server action)]) = clientTrace trace := by
  simp [clientTrace, project_step, PairAction.ofClient]

@[simp] theorem serverTrace_server :
    serverTrace (trace ++ [(pair, .server action)]) =
      serverTrace trace ++ [(pair.server, action)] := by
  simp [serverTrace, project_step, PairAction.ofServer]

@[simp] theorem serverTrace_client :
    serverTrace (trace ++ [(pair, .client action)]) = serverTrace trace := by
  simp [serverTrace, project_step, PairAction.ofServer]

end Traces

structure Setup (Byte : Type) (config : Config) where
  clientMemory : ClientMemory Byte config
  serverMemory : ServerMemory Byte config
  requestCapacity : Nat
  responseCapacity : Nat

def Setup.uniform (config : Config) (byte : Byte) (capacity : Nat) : Setup Byte config where
  clientMemory := {
    writeBuffer := List.replicate config.window byte
    times := List.replicate config.count 0
    writeBuffer_length := List.length_replicate
    times_length := List.length_replicate
  }
  serverMemory := {
    readBuffer := List.replicate config.window byte
    revents := false
    startTime := 0
    readBuffer_length := List.length_replicate
  }
  requestCapacity := capacity
  responseCapacity := capacity

def Pair.initial {config : Config} (transport : Transport) (setup : Setup Byte config) :
    Pair Byte where
  client := Client.initial setup.clientMemory
  server := Server.initial transport setup.serverMemory
  requests := ⟨setup.requestCapacity, []⟩
  responses := ⟨setup.responseCapacity, []⟩

section Runs

variable [DecidableEq Byte] {config : Config} {transport : Transport} {setup : Setup Byte config}
  {trace : List (Pair Byte × PairAction Byte)} {pair : Pair Byte}

theorem Pair.run_client
    (run : Run (Pair.machine transport config.arguments) (Pair.initial transport setup) trace pair) :
    Run (Client.machine config.arguments) (Client.initial setup.clientMemory)
      (clientTrace trace) pair.client := by
  refine run.project Pair.client PairAction.ofClient ?_
  intro pair action next taken
  change pair.step transport config.arguments action = some next at taken
  cases action with
  | client action => exact (Pair.step_client taken).2.1
  | server action => exact (Pair.step_server taken).2.2

theorem Pair.run_server
    (run : Run (Pair.machine transport config.arguments) (Pair.initial transport setup) trace pair) :
    Run (Server.machine transport config.arguments) (Server.initial transport setup.serverMemory)
      (serverTrace trace) pair.server := by
  refine run.project Pair.server PairAction.ofServer ?_
  intro pair action next taken
  change pair.step transport config.arguments action = some next at taken
  cases action with
  | client action => exact (Pair.step_client taken).2.2
  | server action => exact (Pair.step_server taken).2.1

theorem Pair.capacities
    (run : Run (Pair.machine transport config.arguments) (Pair.initial transport setup) trace pair) :
    pair.requests.capacity = setup.requestCapacity ∧
      pair.responses.capacity = setup.responseCapacity := by
  refine run.stateInvariant (fun pair => pair.requests.capacity = setup.requestCapacity ∧
    pair.responses.capacity = setup.responseCapacity) ⟨rfl, rfl⟩ ?_
  intro pair action next capacities taken
  change pair.step transport config.arguments action = some next at taken
  cases action with
  | client action =>
      have kept := Action.transfer_capacity (Pair.step_client taken).1
      exact ⟨kept.2.trans capacities.1, kept.1.trans capacities.2⟩
  | server action =>
      have kept := Action.transfer_capacity (Pair.step_server taken).1
      exact ⟨kept.1.trans capacities.1, kept.2.trans capacities.2⟩

end Runs

section Linked

variable {config : Config} {transport : Transport} {setup : Setup Byte config}
  {trace : List (Pair Byte × PairAction Byte)} {pair : Pair Byte}

/-- Counters and channels agree with what both processes have moved so far. -/
structure Pair.Linked (config : Config) (transport : Transport)
    (trace : List (Pair Byte × PairAction Byte)) (pair : Pair Byte) : Prop where
  client : Client.Balanced config (bytesReceived (clientTrace trace))
    (bytesSent (clientTrace trace)) pair.client
  server : Server.Balanced config transport (bytesReceived (serverTrace trace))
    (bytesSent (serverTrace trace)) pair.server
  requests : pair.requests.Carries (bytesOut Client.outgoing (clientTrace trace))
    (bytesIn (serverTrace trace))
  responses : pair.responses.Carries (bytesOut Server.outgoing (serverTrace trace))
    (bytesIn (clientTrace trace))
  clientSent : (bytesOut Client.outgoing (clientTrace trace)).length =
    bytesSent (clientTrace trace)
  serverSent : (bytesOut Server.outgoing (serverTrace trace)).length =
    bytesSent (serverTrace trace)

namespace Pair

theorem Linked.initial : Linked config transport [] (Pair.initial transport setup) where
  client := Client.Balanced.initial setup.clientMemory
  server := Server.Balanced.initial setup.serverMemory
  requests := rfl
  responses := rfl
  clientSent := rfl
  serverSent := rfl

theorem Linked.underway (linked : Linked config transport trace pair) :
    bytesSent (clientTrace trace) =
        bytesReceived (serverTrace trace) + pair.requests.content.length ∧
      bytesSent (serverTrace trace) =
        bytesReceived (clientTrace trace) + pair.responses.content.length := by
  have requests := linked.requests.length
  have responses := linked.responses.length
  rw [linked.clientSent, bytesIn_length] at requests
  rw [linked.serverSent, bytesIn_length] at responses
  exact ⟨requests, responses⟩

theorem Linked.sent_le (linked : Linked config transport trace pair) :
    bytesSent (clientTrace trace) ≤ bytesReceived (clientTrace trace) + config.window := by
  have balance := linked.client.balance
  have window := linked.client.window
  omega

variable [DecidableEq Byte]

theorem Linked.step (linked : Linked config transport trace pair) {action : PairAction Byte}
    {next : Pair Byte} (taken : pair.step transport config.arguments action = some next) :
    Linked config transport (trace ++ [(pair, action)]) next := by
  cases action with
  | client action =>
      obtain ⟨moved, stepped, kept⟩ := step_client taken
      have own := Client.step_inv stepped
      have carried := Action.transfer_carries moved linked.responses linked.requests
      exact {
        client := by simpa using linked.client.step own
        server := by simpa [kept] using linked.server
        requests := by simpa using carried.2
        responses := by simpa using carried.1
        clientSent := by simp [linked.clientSent, linked.client.outgoing_length own]
        serverSent := by simpa using linked.serverSent
      }
  | server action =>
      obtain ⟨moved, stepped, kept⟩ := step_server taken
      have own := Server.step_inv stepped
      have carried := Action.transfer_carries moved linked.requests linked.responses
      have available := Action.transfer_received moved
      have underway := linked.underway
      have sentBound := linked.sent_le
      exact {
        client := by simpa [kept] using linked.client
        server := by simpa using linked.server.step own (by omega)
        requests := by simpa using carried.1
        responses := by simpa using carried.2
        clientSent := by simpa using linked.clientSent
        serverSent := by simp [linked.serverSent, linked.server.outgoing_length own]
      }

theorem Linked.run
    (run : Run (machine transport config.arguments) (Pair.initial transport setup) trace pair) :
    Linked config transport trace pair := by
  refine run.invariant (fun trace pair => Linked config transport trace pair) Linked.initial ?_
  intro trace pair action next _ linked taken
  exact linked.step taken

end Pair

end Linked

end IpcBench
