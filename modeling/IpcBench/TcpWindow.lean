import IpcBench.Pair

/-!
The window of the tcp pair: no byte is lost between the two processes, so the
client's limit on its outstanding bytes also bounds those of the server, and every
transfer stays inside the buffers.
-/

namespace IpcBench

open Words Transition

variable {Byte : Type} {config : Config}

def ClientPc.betweenCalls : ClientPc → Bool
  | .reading _ _ => false
  | .readDone _ _ => false
  | .writing _ => false
  | .writeDone _ => false
  | _ => true

def ServerPc.betweenCalls : ServerPc → Bool
  | .reading _ _ => false
  | .readDone _ _ => false
  | .writing _ => false
  | .writeDone _ => false
  | _ => true

theorem ClientPc.betweenCalls_eq {pc : ClientPc} (between : pc.betweenCalls = true) :
    pc.fetched = 0 ∧ pc.pushed = 0 := by
  cases pc <;> simp_all [ClientPc.betweenCalls, ClientPc.fetched, ClientPc.pushed]

theorem ServerPc.betweenCalls_eq {pc : ServerPc} (between : pc.betweenCalls = true) :
    pc.fetched = 0 ∧ pc.pushed = 0 := by
  cases pc <;> simp_all [ServerPc.betweenCalls, ServerPc.fetched, ServerPc.pushed]

namespace Pair

/-- Conservation of bytes inside the window. `law` also counts the bytes of helper
calls in progress; `noBorrow` and `noCarry` say that the unsigned counter of the
client is computed without wrapping around. -/
structure Conserved (config : Config) (pair : Pair Byte) : Prop where
  between : pair.client.pc.betweenCalls = true → pair.server.pc.betweenCalls = true →
    (pair.client.outstandingBytes : Int) = pair.requests.content.length +
      pair.server.outstandingBytes + pair.responses.content.length
  law : (pair.client.outstandingBytes : Int) - pair.client.pc.fetched + pair.client.pc.pushed =
    pair.requests.content.length +
      (pair.server.outstandingBytes + pair.server.pc.fetched - pair.server.pc.pushed) +
      pair.responses.content.length
  clientWindow : pair.client.outstandingBytes ≤ config.window
  noBorrow : ∀ canWrite info, pair.client.pc = .readDone canWrite info →
    info.totalBytes ≤ pair.client.outstandingBytes
  noCarry : ∀ info, pair.client.pc = .writeDone info →
    pair.client.outstandingBytes + info.totalBytes ≤ config.window
  serverWindow : 0 ≤ pair.server.outstandingBytes ∧ pair.server.outstandingBytes ≤ config.window
  branch : ¬ssizeT config.arguments.maxOutstandingBytes < pair.server.outstandingBytes
  clientBuffer : pair.client.writeBuffer.length = config.window
  clientAccess : ∀ offset length, pair.client.access config.arguments = some (offset, length) →
    offset + length ≤ config.window
  serverBuffer : pair.server.readBuffer.length = config.window
  serverAccess : ∀ offset length, pair.server.access config.arguments = some (offset, length) →
    offset + length ≤ config.window

theorem Linked.conserved {transport : Transport} {trace : List (Pair Byte × PairAction Byte)}
    {pair : Pair Byte} (linked : Linked config transport trace pair) : pair.Conserved config := by
  have underway := linked.underway
  have clientBalance := linked.client.balance
  have clientWindow := linked.client.window
  have clientFetched := linked.client.fetched
  have serverRead := linked.server.read
  have serverWritten := linked.server.written
  have serverBalance := linked.server.balance
  have serverPushed := linked.server.pushed
  have serverWindow := linked.server.window
  have law : (pair.client.outstandingBytes : Int) - pair.client.pc.fetched +
      pair.client.pc.pushed = pair.requests.content.length +
        (pair.server.outstandingBytes + pair.server.pc.fetched - pair.server.pc.pushed) +
        pair.responses.content.length := by
    omega
  exact {
    between := by
      intro client server
      have clientIdle := ClientPc.betweenCalls_eq client
      have serverIdle := ServerPc.betweenCalls_eq server
      omega
    law := law
    clientWindow := by omega
    noBorrow := by
      intro canWrite info pc
      simpa [pc, ClientPc.fetched] using clientFetched
    noCarry := by
      intro info pc
      simpa [pc, ClientPc.pushed] using clientWindow
    serverWindow := by omega
    branch := by
      rw [Config.maxOutstandingBytes_eq, Config.ssizeT_window]
      omega
    clientBuffer := linked.client.buffer
    clientAccess := fun _ _ => linked.client.access_le
    serverBuffer := linked.server.buffer
    serverAccess := fun _ _ => linked.server.access_le
  }

end Pair

/-- In every reachable state of the tcp pair, whatever the polls report and however the
transfers are cut short, bytes are conserved and the window bounds both processes. -/
theorem tcp_conserved [DecidableEq Byte] {setup : Setup Byte config}
    {trace : List (Pair Byte × PairAction Byte)} {pair : Pair Byte}
    (run : Run (Pair.machine .tcp config.arguments) (Pair.initial .tcp setup) trace pair) :
    pair.Conserved config :=
  (Pair.Linked.run run).conserved

/-- A run in which the client's only request is split: one of its bytes is held by the
server while the other is still in the channel. -/
theorem tcp_conserved_split : ∃ trace pair,
    Run (Pair.machine .tcp Config.twoBytes.arguments)
      (Pair.initial .tcp (Setup.uniform Config.twoBytes 0 2)) trace pair ∧
    (pair.server.outstandingBytes = 1 ∧ pair.requests.content = [(0 : Nat)]) ∧
    pair.Conserved Config.twoBytes := by
  obtain ⟨trace, pair, run, reached⟩ := exists_run_of_execute
    (Pair.machine .tcp Config.twoBytes.arguments)
    (Pair.initial .tcp (Setup.uniform Config.twoBytes 0 2))
    [.client (.advance 0), .client (.poll (some (false, true))), .client (.advance 0),
      .client (.advance 0), .client (.advance 0), .client (.send 2), .client (.advance 0),
      .server (.advance 0), .server (.poll (some (true, true))), .server (.advance 0),
      .server (.recv [0]), .server .stop, .server (.advance 0)]
    (fun result => result.2.server.outstandingBytes == 1 && result.2.requests.content == [0])
    (by decide)
  exact ⟨trace, pair, run, by simpa using reached, tcp_conserved run⟩

end IpcBench
