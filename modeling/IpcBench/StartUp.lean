import IpcBench.Duo
import IpcBench.Signals

/-!
The set-up of SIGUSR1 and SIGUSR2, and the two places where a process tells another one at
start-up that it may go on.
-/

namespace IpcBench

open Transition Signals

inductive UserSignal
  | usr1
  | usr2
deriving DecidableEq, Repr

def ignoreUsr1 : Nat := 0

def ignoreUsr2 : Nat := 0

def blockUsr1 : Nat := 1

def blockUsr2 : Nat := 2

def setupIgnoredSignals (flags : Nat) : List (Call UserSignal) :=
  (if flags &&& blockUsr1 = 0 then [.sigaction .usr1] else []) ++
    (if flags &&& blockUsr2 = 0 then [.sigaction .usr2] else [])

def signalMask (flags : Nat) : List UserSignal :=
  (if flags &&& blockUsr1 ≠ 0 then [.usr1] else []) ++
    (if flags &&& blockUsr2 ≠ 0 then [.usr2] else [])

def setupBlockedSignals (flags : Nat) : List (Call UserSignal) :=
  [.sigprocmask (signalMask flags)]

def setupSignals (flags : Nat) : List (Call UserSignal) :=
  setupIgnoredSignals flags ++ setupBlockedSignals flags

def serverFlags : Nat := blockUsr1 ||| ignoreUsr2

def clientFlags : Nat := ignoreUsr1 ||| blockUsr2

def setupServerSignals : List (Call UserSignal) :=
  setupSignals serverFlags

def setupClientSignals : List (Call UserSignal) :=
  setupSignals clientFlags

def notifyServer : Call UserSignal :=
  .kill .usr1

def notifyClient : Call UserSignal :=
  .kill .usr2

def waitForSignal (flags : Nat) : Call UserSignal :=
  .sigwait (signalMask flags)

inductive Operation
  | wait
  | notify
deriving DecidableEq, Repr

def clientOnce : Operation → List (Call UserSignal)
  | .wait => setupClientSignals ++ [waitForSignal clientFlags]
  | .notify => setupClientSignals ++ [notifyServer]

def serverOnce : Operation → List (Call UserSignal)
  | .wait => setupServerSignals ++ [waitForSignal serverFlags]
  | .notify => setupServerSignals ++ [notifyClient]

/-! The processes from their start. Calls that leave the signals alone are `other`. -/

/-- `parse_arguments`, then `create_mq`: `client_once`, `generate_key` and `msgget`. -/
def mqClientStart : List (Call UserSignal) :=
  [.other] ++ clientOnce .wait ++ [.other, .other]

/-- `parse_arguments`, then `create_mq`: `generate_key`, `msgget` and `server_once`. -/
def mqServerStart : List (Call UserSignal) :=
  [.other, .other, .other] ++ serverOnce .notify

/-- `open_stream`, the set-up, `malloc` and the first `notify_server`. -/
def pipeClientStart : List (Call UserSignal) :=
  [.other] ++ setupClientSignals ++ [.other, notifyServer]

/-- `open_stream`, the set-up, `malloc`, `setup_benchmarks` and the first wait. -/
def pipeServerStart : List (Call UserSignal) :=
  [.other] ++ setupServerSignals ++ [.other, .other, waitForSignal serverFlags]

inductive Site
  | mq
  | pipe
deriving DecidableEq, Repr

def Site.startUp : Site → StartUp Peer UserSignal
  | .mq => {
      sender := .server
      receiver := .client
      signal := .usr2
      program := fun
        | .client => mqClientStart
        | .server => mqServerStart }
  | .pipe => {
      sender := .client
      receiver := .server
      signal := .usr1
      program := fun
        | .client => pipeClientStart
        | .server => pipeServerStart }

theorem Site.proper (site : Site) : site.startUp.Proper := by
  cases site with
  | mq =>
      refine ⟨by decide, by decide, by decide, ?_⟩
      intro process other
      cases process with
      | client => decide
      | server => exact absurd rfl other
  | pipe =>
      refine ⟨by decide, by decide, by decide, ?_⟩
      intro process other
      cases process with
      | client => exact absurd rfl other
      | server => decide

/-- Whichever way the two processes start, the receiver is neither terminated nor left
waiting exactly when the notification comes after the receiver has blocked its signal. -/
theorem start_up_iff (site : Site) {trace : List (Group Peer UserSignal × Peer)}
    {group : Group Peer UserSignal}
    (run : Run Group.machine (Group.initial site.startUp.program) trace group) :
    group.Notified site.startUp ↔ ∀ entry ∈ trace, entry.1.Heeded site.startUp entry.2 :=
  Group.notified_iff site.proper run

/-- The message-queue client has blocked SIGUSR2 when the server sends it. -/
theorem start_up_iff_blocked : ∃ trace group,
    Run Group.machine (Group.initial Site.mq.startUp.program) trace group ∧
    group.sent .server = true ∧ group.Notified Site.mq.startUp := by
  obtain ⟨trace, group, run, reached⟩ := exists_run_of_execute
    (Group.machine : Machine (Group Peer UserSignal) Peer)
    (Group.initial Site.mq.startUp.program)
    [.client, .client, .client, .server, .server, .server, .server, .server, .server]
    (fun result => decide (∀ entry ∈ result.1, entry.1.Heeded Site.mq.startUp entry.2) &&
      result.2.sent Peer.server)
    (by decide)
  simp only [Bool.and_eq_true, decide_eq_true_eq] at reached
  exact ⟨trace, group, run, reached.2, (start_up_iff .mq run).mpr reached.1⟩

/-- The message-queue server is ready before its client has blocked SIGUSR2. -/
theorem start_up_terminates : ∃ trace group,
    Run Group.machine (Group.initial Site.mq.startUp.program) trace group ∧
    (group.signals .client).terminated = true ∧ ¬group.Notified Site.mq.startUp := by
  obtain ⟨trace, group, run, reached⟩ := exists_run_of_execute
    (Group.machine : Machine (Group Peer UserSignal) Peer)
    (Group.initial Site.mq.startUp.program)
    [.client, .server, .server, .server, .server, .server, .server]
    (fun result => (result.2.signals Peer.client).terminated)
    (by decide)
  have died : (group.signals .client).terminated = true := reached
  refine ⟨trace, group, run, died, ?_⟩
  intro notified
  have alive : (group.signals .client).terminated = false := notified.alive
  rw [died] at alive
  cases alive

end IpcBench
