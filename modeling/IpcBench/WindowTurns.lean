import IpcBench.Credits
import IpcBench.Pair

/-!
The tcp, domain and fifo transports as bytes that go round within a window: the client asks for
them, the server hears and answers them, and the client takes them back.
-/

namespace IpcBench

open Transition Credits

variable {Byte : Type} {config : Config} {transport : Transport}

namespace Pair

def transferOf : PairAction Byte → Option (Station × Nat)
  | .client (.send amount) => some (.ask, amount)
  | .server (.recv data) => some (.hear, data.length)
  | .server (.send amount) => some (.answer, amount)
  | .client (.recv data) => some (.take, data.length)
  | _ => none

/-- The credit that a history stands for. -/
structure Credited (config : Config) (transport : Transport)
    (trace : List (Pair Byte × PairAction Byte)) (pair : Pair Byte)
    (credit : Credit config.window) : Prop where
  linked : Linked config transport trace pair
  asked : credit.asked = bytesSent (clientTrace trace)
  heard : credit.heard = bytesReceived (serverTrace trace)
  answered : credit.answered = bytesSent (serverTrace trace)
  taken : credit.taken = bytesReceived (clientTrace trace)

variable {trace : List (Pair Byte × PairAction Byte)} {pair next : Pair Byte}
  {credit : Credit config.window}

theorem Credited.initial {setup : Setup Byte config} :
    Credited config transport [] (Pair.initial transport setup) (Credit.initial config.window) where
  linked := Linked.initial
  asked := rfl
  heard := rfl
  answered := rfl
  taken := rfl

variable [DecidableEq Byte] {action : PairAction Byte}

theorem Credited.quiet (credited : Credited config transport trace pair credit)
    (taken : pair.step transport config.arguments action = some next)
    (none : transferOf action = none) :
    Credited config transport (trace ++ [(pair, action)]) next credit := by
  have after := credited.linked.step taken
  obtain ⟨_, asked, heard, answered, took⟩ := credited
  cases action with
  | client action =>
      cases action with
      | send amount => cases none
      | recv data => cases none
      | _ => exact ⟨after, by simpa [Action.sent] using asked, by simpa using heard,
          by simpa using answered, by simpa [Action.received] using took⟩
  | server action =>
      cases action with
      | send amount => cases none
      | recv data => cases none
      | _ => exact ⟨after, by simpa using asked, by simpa [Action.received] using heard,
          by simpa [Action.sent] using answered, by simpa using took⟩

/-- A credit can follow a transfer, because the counters of both processes still agree after
it. -/
theorem Credited.transfer (credited : Credited config transport trace pair credit)
    (taken : pair.step transport config.arguments action = some next) {move : Station × Nat}
    (moved : transferOf action = some move) :
    ∃ after, credit.step move = some after ∧
      Credited config transport (trace ++ [(pair, action)]) next after := by
  have linked := credited.linked.step taken
  obtain ⟨_, asked, heard, answered, took⟩ := credited
  have underway := linked.underway
  have echoed := linked.server.sent_le
  have window := linked.sent_le
  cases action with
  | client action =>
      cases action with
      | send amount =>
          cases moved
          simp only [clientTrace_client, bytesSent_step, bytesReceived_step, Action.sent,
            Action.received] at window
          refine ⟨_, dif_pos (by omega), linked, ?_, ?_, ?_, ?_⟩ <;>
            simp [Action.sent, Action.received, asked, heard, answered, took]
      | recv data =>
          cases moved
          simp only [clientTrace_client, serverTrace_client, bytesSent_step, bytesReceived_step,
            Action.sent, Action.received] at underway
          refine ⟨_, dif_pos (by omega), linked, ?_, ?_, ?_, ?_⟩ <;>
            simp [Action.sent, Action.received, asked, heard, answered, took]
      | _ => cases moved
  | server action =>
      cases action with
      | send amount =>
          cases moved
          simp only [serverTrace_server, bytesSent_step, bytesReceived_step, Action.sent,
            Action.received] at echoed
          refine ⟨_, dif_pos (by omega), linked, ?_, ?_, ?_, ?_⟩ <;>
            simp [Action.sent, Action.received, asked, heard, answered, took]
      | recv data =>
          cases moved
          simp only [clientTrace_server, serverTrace_server, bytesSent_step, bytesReceived_step,
            Action.sent, Action.received] at underway
          refine ⟨_, dif_pos (by omega), linked, ?_, ?_, ?_, ?_⟩ <;>
            simp [Action.sent, Action.received, asked, heard, answered, took]
      | _ => cases moved

end Pair

/-- Every run of a client and a server is, by its transfers, a run of bytes that go round within
the window. So whole windows pass in turn: each is sent by the client, received and answered by
the server and received by the client before the next has been sent. -/
theorem windows_take_turns [DecidableEq Byte] {setup : Setup Byte config}
    {trace : List (Pair Byte × PairAction Byte)} {pair : Pair Byte}
    (run : Run (Pair.machine transport config.arguments) (Pair.initial transport setup) trace pair) :
    ∃ moves credit, Run (Credit.machine config.window) (Credit.initial config.window) moves credit ∧
      moves.map Prod.snd = observed Pair.transferOf trace ∧
      Pair.Credited config transport trace pair credit ∧
      Follows windowScript (Credit.completed moves) := by
  obtain ⟨moves, credit, abstractRun, credited, same⟩ := run.simulate
    (Credit.machine config.window) (Credit.initial config.window) Pair.transferOf
    (fun trace pair credit => Pair.Credited config transport trace pair credit)
    Pair.Credited.initial (fun _ _ _ _ _ credited taken none => credited.quiet taken none)
    fun _ _ _ _ _ _ credited taken moved => credited.transfer taken moved
  exact ⟨moves, credit, abstractRun, same, credited,
    (Credit.completed_follows config.window_pos abstractRun).1⟩

/-- Two windows of two bytes each, which pass the stations one by one. -/
theorem windows_take_turns_twice : ∃ trace pair,
    Run (Pair.machine .tcp Config.twoWindows.arguments)
      (Pair.initial .tcp (Setup.uniform Config.twoWindows (0 : Nat) 2)) trace pair ∧
    ∃ moves credit,
      Run (Credit.machine Config.twoWindows.window) (Credit.initial Config.twoWindows.window)
        moves credit ∧
      moves.map Prod.snd = [(.ask, 1), (.ask, 1), (.hear, 1), (.hear, 1), (.answer, 1),
        (.answer, 1), (.take, 1), (.take, 1), (.ask, 1), (.ask, 1), (.hear, 1), (.hear, 1),
        (.answer, 1), (.answer, 1), (.take, 1), (.take, 1)] ∧
      Follows windowScript (Credit.completed moves) := by
  obtain ⟨trace, pair, run, transfers⟩ := exists_run_of_execute
    (Pair.machine .tcp Config.twoWindows.arguments)
    (Pair.initial .tcp (Setup.uniform Config.twoWindows (0 : Nat) 2))
    [.client (.advance 1), .client (.poll (some (false, true))), .client (.advance 1),
      .client (.advance 1), .client (.advance 1), .client (.send 1), .client (.send 1),
      .client (.advance 1), .client (.advance 1), .client (.poll (some (false, false))),
      .server (.advance 1), .server (.poll (some (true, true))), .server (.advance 1),
      .server (.recv [0]), .server (.recv [0]), .server (.advance 1), .server (.advance 1),
      .server (.advance 1), .server (.poll (some (false, true))), .server (.advance 1),
      .server (.advance 1), .server (.send 1), .server (.send 1), .server (.advance 1),
      .server (.advance 1), .server (.poll (some (false, false))), .client (.advance 1),
      .client (.advance 1), .client (.advance 1), .client (.advance 1),
      .client (.poll (some (true, true))), .client (.advance 1), .client (.recv [0]),
      .client (.recv [0]), .client (.advance 1), .client (.advance 1), .client (.advance 1),
      .client (.send 1), .client (.send 1), .client (.advance 1), .client (.advance 1),
      .client (.poll (some (false, false))), .server (.advance 1), .server (.advance 1),
      .server (.advance 1), .server (.poll (some (true, true))), .server (.advance 1),
      .server (.recv [0]), .server (.recv [0]), .server (.advance 1), .server (.advance 1),
      .server (.send 1), .server (.send 1), .server (.advance 1), .server (.advance 1),
      .client (.advance 1), .client (.advance 1), .client (.advance 1), .client (.advance 1),
      .client (.poll (some (true, true))), .client (.advance 1), .client (.recv [0]),
      .client (.recv [0])]
    (fun result => observed Pair.transferOf result.1 == [(.ask, 1), (.ask, 1), (.hear, 1),
      (.hear, 1), (.answer, 1), (.answer, 1), (.take, 1), (.take, 1), (.ask, 1), (.ask, 1),
      (.hear, 1), (.hear, 1), (.answer, 1), (.answer, 1), (.take, 1), (.take, 1)])
    (by decide)
  obtain ⟨moves, credit, abstractRun, same, _, follows⟩ := windows_take_turns run
  rw [beq_iff_eq] at transfers
  exact ⟨trace, pair, run, moves, credit, abstractRun, same.trans transfers, follows⟩

end IpcBench
