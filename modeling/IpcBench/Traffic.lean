import IpcBench.BlockingProgress

/-!
How much a client writes in all. Nothing in its loop compares the bytes written with
`count`: the window is refilled in the iteration that reads the last response.
-/

namespace IpcBench

open Words Transition

variable {Byte : Type} {config : Config}

namespace Pair

variable {transport : Transport} {trace : List (Pair Byte × PairAction Byte)} {pair : Pair Byte}

/-- The traffic of a client, less than two windows beyond `count` requests. -/
structure TrafficBound (config : Config) (trace : List (Pair Byte × PairAction Byte))
    (pair : Pair Byte) : Prop where
  sent : bytesSent (clientTrace trace) < config.total + 2 * config.window
  unread : pair.requests.content.length ≤ config.window

theorem Linked.trafficBound (linked : Linked config transport trace pair) :
    TrafficBound config trace pair := by
  have sent := linked.sent_le
  have bound := linked.client.bound
  have law := linked.conserved.law
  have window := linked.client.window
  have pushed := linked.server.pushed
  exact ⟨by omega, by omega⟩

theorem InWindows.serverSent_le (windows : InWindows config transport trace pair) :
    bytesSent (serverTrace trace) ≤ config.covered := by
  have read := windows.linked.server.read
  have written := windows.linked.server.written
  have balance := windows.linked.server.balance
  have pushed := windows.linked.server.pushed
  have bound := windows.linked.server.receivedBound
  have covered := config.total_le_covered
  rcases windows.server.outstanding with none | full
  · rcases Int.lt_or_le config.covered pair.server.totalBytesWritten with above | within
    · have := add_le_of_dvd config.dvd_covered windows.server.written above
      omega
    · omega
  · have windowPos := config.window_pos
    have more := windows.server.pending (by omega)
    have := add_le_of_dvd windows.server.written config.dvd_covered (by omega)
    omega

theorem InWindows.sent_le (windows : InWindows config transport trace pair) :
    bytesSent (clientTrace trace) ≤ config.covered + config.window := by
  have sent := windows.linked.sent_le
  have underway := windows.linked.underway
  have answered := windows.serverSent_le
  omega

end Pair

/-- On every transport the client writes less than two windows beyond `count` requests,
under blocking transfers at most one window beyond those that cover them; and at most a
window of it is ever unread. -/
theorem traffic_bounded [DecidableEq Byte] {transport : Transport} {setup : Setup Byte config}
    {trace : List (Pair Byte × PairAction Byte)} {pair : Pair Byte}
    (run : Run (Pair.machine transport config.arguments) (Pair.initial transport setup) trace
      pair) :
    pair.TrafficBound config trace ∧
      (Run ((Pair.machine transport config.arguments).restrict Pair.blocking)
          (Pair.initial transport setup) trace pair →
        bytesSent (clientTrace trace) ≤ config.covered + config.window) :=
  ⟨(Pair.Linked.run run).trafficBound, fun blocking => (Pair.InWindows.run blocking).sent_le⟩

/-- The bound is reached: five bytes are written for one request of two bytes. -/
theorem traffic_bounded_reached : ∃ trace pair,
    Run (Pair.machine .tcp Config.twoBytes.arguments)
      (Pair.initial .tcp (Setup.uniform Config.twoBytes (0 : Nat) 5)) trace pair ∧
    bytesSent (clientTrace trace) + 1 = Config.twoBytes.total + 2 * Config.twoBytes.window ∧
    pair.TrafficBound Config.twoBytes trace := by
  obtain ⟨trace, pair, run, reached⟩ := exists_run_of_execute
    (Pair.machine .tcp Config.twoBytes.arguments)
    (Pair.initial .tcp (Setup.uniform Config.twoBytes (0 : Nat) 5))
    [.client (.advance 0), .client (.poll (some (false, true))), .client (.advance 0),
      .client (.advance 0), .client (.advance 0), .client (.send 2), .client (.advance 0),
      .server (.advance 0), .server (.poll (some (true, false))), .server (.advance 0),
      .server (.recv [0, 0]), .server (.advance 0), .server (.advance 0), .server (.advance 0),
      .server (.poll (some (false, true))), .server (.advance 0), .server (.advance 0),
      .server (.send 1), .server .stop, .server (.advance 0),
      .client (.advance 0), .client (.poll (some (true, true))), .client (.advance 0),
      .client (.recv [0]), .client .stop, .client (.advance 0), .client (.advance 0),
      .client (.advance 0), .client (.send 1), .client (.advance 0),
      .server (.advance 0), .server (.poll (some (true, true))), .server (.advance 0),
      .server (.recv [0]), .server .stop, .server (.advance 0), .server (.advance 0),
      .server (.send 2), .server (.advance 0), .server (.advance 0),
      .client (.advance 0), .client (.poll (some (true, true))), .client (.advance 0),
      .client (.recv [0, 0]), .client (.advance 0), .client (.advance 0), .client (.advance 0),
      .client (.send 2), .client (.advance 0), .client (.advance 0)]
    (fun result => bytesSent (clientTrace result.1) == 5)
    (by decide)
  refine ⟨trace, pair, run, ?_, (traffic_bounded run).1⟩
  rw [beq_iff_eq.mp reached]
  rfl

theorem surplus_written (transport : Transport) : ∃ trace pair,
    Run (Pair.machine transport Config.twoBytes.arguments)
      (Pair.initial transport (Setup.uniform Config.twoBytes (0 : Nat) 2)) trace pair ∧
    (∀ entry ∈ trace, entry.2.undisturbed = true) ∧
    (pair.client.pc = .exit ∧ pair.server.pc = .exit) ∧
    ¬(bytesSent (clientTrace trace) ≤ Config.twoBytes.total) ∧
    pair.requests.content = [0, 0] := by
  have executed : ((Pair.machine transport Config.twoBytes.arguments).execute
      (Pair.initial transport (Setup.uniform Config.twoBytes (0 : Nat) 2))
      [.client (.advance 0), .client (.poll (some (false, true))), .client (.advance 0),
        .client (.advance 0), .client (.advance 0), .client (.send 2), .client (.advance 0),
        .server (.advance 0), .server (.poll (some (true, false))), .server (.advance 0),
        .server (.recv [0, 0]), .server (.advance 0), .server (.advance 0), .server (.advance 0),
        .server (.poll (some (false, true))), .server (.advance 0), .server (.advance 0),
        .server (.send 2), .server (.advance 0), .server (.advance 0),
        .client (.advance 0), .client (.poll (some (true, true))), .client (.advance 0),
        .client (.recv [0, 0]), .client (.advance 0), .client (.advance 0), .client (.advance 0),
        .client (.send 2), .client (.advance 0), .client (.advance 0)]).map
      (fun result => result.1.all (fun entry => entry.2.undisturbed) &&
        (result.2.client.pc == .exit && result.2.server.pc == .exit) &&
        bytesSent (clientTrace result.1) == 4 && result.2.requests.content == [0, 0]) =
      some true := by
    cases transport <;> decide
  obtain ⟨trace, pair, run, reached⟩ := exists_run_of_execute _ _ _ _ executed
  simp only [Bool.and_eq_true, List.all_eq_true, beq_iff_eq] at reached
  obtain ⟨⟨⟨calm, ended⟩, sent⟩, unread⟩ := reached
  refine ⟨trace, pair, run, calm, ended, ?_, unread⟩
  rw [sent]
  decide

/-- `count` does not bound the traffic. -/
theorem count_bounds_no_traffic : ∃ trace pair,
    Run (Pair.machine .tcp Config.twoBytes.arguments)
      (Pair.initial .tcp (Setup.uniform Config.twoBytes (0 : Nat) 2)) trace pair ∧
    (∀ entry ∈ trace, entry.2.undisturbed = true) ∧
    (pair.client.pc = .exit ∧ pair.server.pc = .exit) ∧
    ¬(bytesSent (clientTrace trace) ≤ Config.twoBytes.total) ∧
    pair.requests.content = [0, 0] :=
  surplus_written .tcp

end IpcBench
