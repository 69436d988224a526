import IpcBench.OrphanClient
import IpcBench.OrphanServer
import IpcBench.TcpProgress

/-!
The moment a peer goes away, in any run of a pair: what was under way to a process is
what it can still read.
-/

namespace IpcBench

open Words Transition

variable {Byte : Type} {config : Config} {transport : Transport}

/-- In every reachable state of a pair, on every transport: a process whose peer goes away
comes to its exit if and only if it will attempt a write or has reached its total. A client
will not attempt one with a full window and nothing more to read, a server with nothing to
send back and nothing more to read. -/
theorem loops_end_iff [DecidableEq Byte] {setup : Setup Byte config}
    {trace : List (Pair Byte × PairAction Byte)} {pair : Pair Byte}
    (run : Run (Pair.machine transport config.arguments) (Pair.initial transport setup)
      trace pair) :
    ((Client.orphanMachine config.arguments).Ends ⟨pair.client, pair.responses.content⟩
        (fun orphan => orphan.process.pc = .exit) ↔
      pair.client.pc = .exit ∨ pair.client.Over config ∨ pair.client.Short config ∨
        0 < pair.responses.content.length) ∧
    ((Server.orphanMachine transport config.arguments).Ends
        ⟨pair.server, pair.requests.content⟩ (fun orphan => orphan.process.pc = .exit) ↔
      pair.server.pc = .exit ∨ pair.server.Over config ∨ pair.server.Loaded ∨
        0 < pair.requests.content.length) := by
  have linked := Pair.Linked.run run
  have underway := linked.underway
  have window := linked.sent_le
  have ordered := linked.server.sent_le
  constructor
  · exact linked.client.orphan_ends_iff
  · exact linked.server.orphan_ends_iff (by simp only; omega)

/-- The client has filled its window and sees no answer any more, its request has arrived. -/
theorem loops_end_iff_full : ∃ trace pair,
    Run (Pair.machine .tcp Config.twoBytes.arguments)
      (Pair.initial .tcp (Setup.uniform Config.twoBytes (0 : Nat) 2)) trace pair ∧
    ¬(Client.orphanMachine Config.twoBytes.arguments).Ends
      ⟨pair.client, pair.responses.content⟩ (fun orphan => orphan.process.pc = .exit) ∧
    (Server.orphanMachine .tcp Config.twoBytes.arguments).Ends
      ⟨pair.server, pair.requests.content⟩ (fun orphan => orphan.process.pc = .exit) := by
  obtain ⟨trace, pair, run, reached⟩ := exists_run_of_execute
    (Pair.machine .tcp Config.twoBytes.arguments)
    (Pair.initial .tcp (Setup.uniform Config.twoBytes (0 : Nat) 2))
    [.client (.advance 0), .client (.poll (some (false, true))), .client (.advance 0),
      .client (.advance 0), .client (.advance 0), .client (.send 2), .client (.advance 0)]
    (fun result => result.2.client.pc == .loop && result.2.client.quit == false &&
      result.2.client.totalBytesRead == 0 && result.2.client.outstandingBytes == 2 &&
      result.2.responses.content == [] && result.2.requests.content == [0, 0])
    (by decide)
  simp only [Bool.and_eq_true, beq_iff_eq] at reached
  obtain ⟨⟨⟨⟨⟨pc, running⟩, read⟩, full⟩, empty⟩, arrived⟩ := reached
  have ends := loops_end_iff run
  refine ⟨trace, pair, run, ?_, ?_⟩
  · rw [ends.1]
    simp [Client.Over, Client.Short, pc, running, read, full, empty, ClientPc.fetched,
      ClientPc.pushed, Config.total, Config.window, Config.twoBytes]
  · rw [ends.2]
    simp [arrived]

/-- A client with a full window, and a server that no request has reached, wait for good. -/
theorem loops_wait_for_good :
    (∃ trace pair,
      Run (Pair.machine .tcp Config.twoBytes.arguments)
        (Pair.initial .tcp (Setup.uniform Config.twoBytes (0 : Nat) 2)) trace pair ∧
      ¬(Client.orphanMachine Config.twoBytes.arguments).Ends
        ⟨pair.client, pair.responses.content⟩ (fun orphan => orphan.process.pc = .exit)) ∧
    (∃ trace pair,
      Run (Pair.machine .tcp Config.twoBytes.arguments)
        (Pair.initial .tcp (Setup.uniform Config.twoBytes (0 : Nat) 2)) trace pair ∧
      ¬(Server.orphanMachine .tcp Config.twoBytes.arguments).Ends
        ⟨pair.server, pair.requests.content⟩ (fun orphan => orphan.process.pc = .exit)) := by
  constructor
  · obtain ⟨trace, pair, run, reached⟩ := exists_run_of_execute
      (Pair.machine .tcp Config.twoBytes.arguments)
      (Pair.initial .tcp (Setup.uniform Config.twoBytes (0 : Nat) 2))
      [.client (.advance 0), .client (.poll (some (false, true))), .client (.advance 0),
        .client (.advance 0), .client (.advance 0), .client (.send 2), .client (.advance 0)]
      (fun result => result.2.client.pc == .loop && result.2.client.quit == false &&
        result.2.client.totalBytesRead == 0 && result.2.client.outstandingBytes == 2 &&
        result.2.responses.content == [])
      (by decide)
    simp only [Bool.and_eq_true, beq_iff_eq] at reached
    obtain ⟨⟨⟨⟨pc, running⟩, read⟩, full⟩, empty⟩ := reached
    refine ⟨trace, pair, run, ?_⟩
    rw [(Pair.Linked.run run).client.orphan_ends_iff]
    simp [Client.Over, Client.Short, pc, running, read, full, empty, ClientPc.fetched,
      ClientPc.pushed, Config.total, Config.window, Config.twoBytes]
  · refine ⟨[], _, Run.start, ?_⟩
    have linked : Pair.Linked Config.twoBytes .tcp []
        (Pair.initial .tcp (Setup.uniform Config.twoBytes (0 : Nat) 2)) := Pair.Linked.initial
    rw [linked.server.orphan_ends_iff (by decide)]
    simp [Server.Over, Server.Loaded, Pair.initial, Server.initial, ServerPc.fetched,
      ServerPc.pushed, Config.total, Config.twoBytes]

end IpcBench
