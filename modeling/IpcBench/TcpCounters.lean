import IpcBench.Pair

/-!
The request counters of the client against its byte counters. A helper call counts the
whole requests among the bytes of that one call and drops the bytes left over.
-/

namespace IpcBench

open Words Transition

variable {Byte : Type} {config : Config}

def readCalls (trace : List (Client Byte × Action Byte)) : List Nat :=
  trace.filterMap fun entry =>
    match entry.2, entry.1.pc with
    | .advance _, .readDone _ info => some info.totalBytes
    | _, _ => none

def writeCalls (trace : List (Client Byte × Action Byte)) : List Nat :=
  trace.filterMap fun entry =>
    match entry.2, entry.1.pc with
    | .advance _, .writeDone info => some info.totalBytes
    | _, _ => none

def wholeRequests (size : Nat) (calls : List Nat) : Nat :=
  (calls.map fun bytes => bytes / size).sum

def spareBytes (size : Nat) (calls : List Nat) : Nat :=
  (calls.map fun bytes => bytes % size).sum

theorem wholeRequests_spareBytes (size : Nat) (calls : List Nat) :
    size * wholeRequests size calls + spareBytes size calls = calls.sum := by
  induction calls with
  | nil => rfl
  | cons bytes rest ih =>
      have division := Nat.div_add_mod bytes size
      simp only [wholeRequests, spareBytes, List.map_cons, List.sum_cons, Nat.mul_add] at ih ⊢
      omega

/-- Counting call by call agrees with counting all bytes at once exactly as long as the
bytes left over make up less than a request. -/
theorem wholeRequests_eq_iff {size : Nat} (positive : 0 < size) (calls : List Nat) :
    wholeRequests size calls = calls.sum / size ↔ spareBytes size calls < size := by
  have split := wholeRequests_spareBytes size calls
  constructor
  · intro same
    have division := Nat.div_add_mod calls.sum size
    have remainder := Nat.mod_lt calls.sum positive
    rw [same] at split
    omega
  · intro small
    rw [← split, Nat.mul_add_div positive, Nat.div_eq_of_lt small, Nat.add_zero]

theorem wholeRequests_le {size : Nat} (positive : 0 < size) (calls : List Nat) :
    wholeRequests size calls ≤ calls.sum := by
  have split := wholeRequests_spareBytes size calls
  have grows := Nat.le_mul_of_pos_left (wholeRequests size calls) positive
  omega

theorem wholeRequests_append (size : Nat) (calls : List Nat) (bytes : Nat) :
    wholeRequests size (calls ++ [bytes]) = wholeRequests size calls + bytes / size := by
  simp [wholeRequests]

namespace Client

variable {trace : List (Client Byte × Action Byte)} {client next : Client Byte}
  {action : Action Byte}

structure Counted (config : Config) (trace : List (Client Byte × Action Byte))
    (client : Client Byte) : Prop where
  numReqsRead : client.numReqsRead = wholeRequests config.size (readCalls trace)
  outstandingReqs : client.outstandingReqs =
    sizeT ((wholeRequests config.size (writeCalls trace) : Int) -
      wholeRequests config.size (readCalls trace))
  readBytes : (readCalls trace).sum + client.pc.fetched = bytesReceived trace
  writtenBytes : (writeCalls trace).sum + client.pc.pushed = bytesSent trace

theorem Counted.initial (memory : ClientMemory Byte config) :
    Counted config [] (Client.initial memory) :=
  ⟨rfl, rfl, rfl, rfl⟩

theorem Counted.keep (counted : Counted config trace client)
    (reads : readCalls (trace ++ [(client, action)]) = readCalls trace)
    (writes : writeCalls (trace ++ [(client, action)]) = writeCalls trace)
    (numReqsRead : next.numReqsRead = client.numReqsRead)
    (outstandingReqs : next.outstandingReqs = client.outstandingReqs)
    (fetched : next.pc.fetched = client.pc.fetched + action.received)
    (pushed : next.pc.pushed = client.pc.pushed + action.sent) :
    Counted config (trace ++ [(client, action)]) next := by
  have readBytes := counted.readBytes
  have writtenBytes := counted.writtenBytes
  refine ⟨?_, ?_, ?_, ?_⟩
  · rw [numReqsRead, reads]
    exact counted.numReqsRead
  · rw [outstandingReqs, reads, writes]
    exact counted.outstandingReqs
  · rw [bytesReceived_step, reads, fetched]
    omega
  · rw [bytesSent_step, writes, pushed]
    omega

theorem Counted.accountRead {received sent : Nat} (counted : Counted config trace client)
    (balanced : Balanced config received sent client) {time : Nat} {canWrite : Bool}
    {info : MetaData} (pc : client.pc = .readDone canWrite info)
    (bound : bytesReceived trace < 18446744073709551616) :
    Counted config (trace ++ [(client, .advance time)])
      ((client.accountRead time info).goto (.stamp canWrite)) := by
  have reads : readCalls (trace ++ [(client, .advance time)]) =
      readCalls trace ++ [info.totalBytes] := by
    simp [readCalls, pc]
  have writes : writeCalls (trace ++ [(client, .advance time)]) = writeCalls trace := by
    simp [writeCalls, pc]
  have readBytes := counted.readBytes
  have writtenBytes := counted.writtenBytes
  have helper := balanced.helper
  simp only [pc, ClientPc.fetched, ClientPc.pushed, ClientPc.HelperOk, MetaData.Consistent]
    at readBytes writtenBytes helper
  have whole := wholeRequests_append config.size (readCalls trace) info.totalBytes
  have below := wholeRequests_le config.size_pos (readCalls trace ++ [info.totalBytes])
  rw [List.sum_append, List.sum_singleton] at below
  refine ⟨?_, ?_, ?_, ?_⟩
  · rw [reads, whole, ← helper]
    simp only [goto, Client.accountRead, Client.toUpdateRead_eq, counted.numReqsRead]
    exact sizeT_add (by omega)
  · rw [reads, writes, whole, ← helper]
    simp only [goto, Client.accountRead, counted.outstandingReqs]
    split
    · rw [sizeT_sizeT_sub]
      congr 1
      omega
    · have none : info.wholeReqs = 0 := by omega
      rw [none, Nat.add_zero]
  · rw [bytesReceived_step, reads, List.sum_append, List.sum_singleton]
    simp only [goto, ClientPc.fetched, Action.received]
    omega
  · rw [bytesSent_step, writes]
    simpa [goto, ClientPc.pushed, Action.sent] using writtenBytes

theorem Counted.accountWrite {received sent : Nat} (counted : Counted config trace client)
    (balanced : Balanced config received sent client) {time : Nat} {info : MetaData}
    (pc : client.pc = .writeDone info) :
    Counted config (trace ++ [(client, .advance time)])
      ((client.accountWrite info).goto .loop) := by
  have reads : readCalls (trace ++ [(client, .advance time)]) = readCalls trace := by
    simp [readCalls, pc]
  have writes : writeCalls (trace ++ [(client, .advance time)]) =
      writeCalls trace ++ [info.totalBytes] := by
    simp [writeCalls, pc]
  have readBytes := counted.readBytes
  have writtenBytes := counted.writtenBytes
  have helper := balanced.helper
  simp only [pc, ClientPc.fetched, ClientPc.pushed, ClientPc.HelperOk, MetaData.Consistent]
    at readBytes writtenBytes helper
  refine ⟨?_, ?_, ?_, ?_⟩
  · rw [reads]
    exact counted.numReqsRead
  · rw [reads, writes, wholeRequests_append, ← helper]
    simp only [goto, Client.accountWrite, counted.outstandingReqs]
    split
    · rw [sizeT_sizeT_add]
      congr 1
      omega
    · have none : info.wholeReqs = 0 := by omega
      rw [none, Nat.add_zero]
  · rw [bytesReceived_step, reads]
    simpa [goto, ClientPc.fetched, Action.received] using readBytes
  · rw [bytesSent_step, writes, List.sum_append, List.sum_singleton]
    simp only [goto, ClientPc.pushed, Action.sent]
    omega

theorem Counted.step {received sent : Nat} (counted : Counted config trace client)
    (balanced : Balanced config received sent client)
    (taken : Step config.arguments client action next)
    (bound : bytesReceived trace < 18446744073709551616) :
    Counted config (trace ++ [(client, action)]) next := by
  cases taken with
  | accountRead time canWrite info pc => exact counted.accountRead balanced pc bound
  | accountWrite time info pc => exact counted.accountWrite balanced pc
  | stamp time canWrite pc =>
      exact counted.keep (by simp [readCalls, pc]) (by simp [writeCalls, pc])
        (stampWrites_numReqsRead config.arguments time client)
        (stampWrites_outstandingReqs config.arguments time client)
        (by simp [goto, pc, ClientPc.fetched, Action.received])
        (by simp [goto, pc, ClientPc.pushed, Action.sent])
  | signal | pollFailed ready pc | polled canRead canWrite pc | recvSome data canWrite transfer pc
  | recvLast data canWrite transfer pc | recvStop canWrite transfer pc
  | sendSome amount transfer pc | sendLast amount transfer pc | sendStop transfer pc
  | sendBroken transfer pc =>
      exact counted.keep (by simp [readCalls]) (by simp [writeCalls]) rfl rfl
        (by simp_all [goto, leave, ClientPc.fetched, Action.received])
        (by simp_all [goto, leave, ClientPc.pushed, Action.sent])
  | enter time pc | finish time pc | skipRead time canRead canWrite pc
  | readNothing time canWrite pc | startRead time canWrite pc | skipWrite time canWrite pc
  | startWrite time pc =>
      exact counted.keep (by simp [readCalls, pc]) (by simp [writeCalls, pc]) rfl rfl
        (by simp [goto, leave, pc, ClientPc.fetched, Action.received, MetaData.zero])
        (by simp [goto, leave, pc, ClientPc.pushed, Action.sent])

theorem Counted.run {memory : ClientMemory Byte config}
    (run : Run (machine config.arguments) (Client.initial memory) trace client) :
    Counted config trace client := by
  refine run.invariant (fun trace client => Counted config trace client)
    (Counted.initial memory) ?_
  intro trace client action next before counted taken
  have balanced := Balanced.run before
  have bound := balanced.bound
  have totalBound := config.total_lt
  have windowBound := config.window_lt
  exact counted.step balanced (step_inv taken) (by omega)

/-- The law of the request counters at the end of an iteration: they are the whole
requests in the byte counters, and enough of them when all bytes have been read. -/
structure RequestsAgree (config : Config) (client : Client Byte) : Prop where
  numReqsRead : (client.numReqsRead : Int) = client.totalBytesRead / config.size
  outstandingReqs : (client.outstandingReqs : Int) =
    client.totalBytesWritten / config.size - client.totalBytesRead / config.size
  enough : config.total ≤ client.totalBytesRead → config.count ≤ client.numReqsRead

/-- The counters agree exactly when the calls on each side have left over less than one
request and the signed counter of the bytes written has not overflowed. -/
theorem Counted.requestsAgree_iff (counted : Counted config trace client)
    (balanced : Balanced config (bytesReceived trace) (bytesSent trace) client)
    (ended : client.pc = .loop) :
    RequestsAgree config client ↔
      spareBytes config.size (readCalls trace) < config.size ∧
        spareBytes config.size (writeCalls trace) < config.size ∧
        bytesSent trace < 9223372036854775808 := by
  obtain ⟨numReqsRead, outstandingReqs, readBytes, writtenBytes⟩ := counted
  have read := balanced.read
  have written : client.totalBytesWritten = ssizeT (bytesSent trace) := by
    simpa [ended, ClientPc.pushed] using balanced.written
  have balance := balanced.balance
  have window := balanced.window
  have bound := balanced.bound
  have totalBound := config.total_lt
  have windowBound := config.window_lt
  simp only [ended, ClientPc.fetched, ClientPc.pushed, Nat.add_zero] at readBytes writtenBytes
  simp only [ended, ClientPc.fetched, ClientPc.pushed] at read balance window
  have reads := wholeRequests_le config.size_pos (readCalls trace)
  have writes := wholeRequests_le config.size_pos (writeCalls trace)
  have total : client.totalBytesRead = (bytesReceived trace : Int) := by omega
  have quotient : bytesSent trace / config.size ≤ bytesSent trace := Nat.div_le_self _ _
  have ordered : bytesReceived trace / config.size ≤ bytesSent trace / config.size :=
    Nat.div_le_div_right (by omega)
  rw [← wholeRequests_eq_iff config.size_pos, ← wholeRequests_eq_iff config.size_pos, readBytes,
    writtenBytes]
  constructor
  · intro agree
    have first := agree.numReqsRead
    have second := agree.outstandingReqs
    rw [total, ← Int.natCast_ediv, numReqsRead] at first
    have wholeReads : wholeRequests config.size (readCalls trace) =
        bytesReceived trace / config.size := by omega
    rw [total, ← Int.natCast_ediv, outstandingReqs, ← wholeReads] at second
    have fits : bytesSent trace < 9223372036854775808 := by
      refine Nat.lt_of_not_le fun large => ?_
      have negative : client.totalBytesWritten < 0 := by
        rw [written]
        unfold ssizeT
        omega
      have sizePos := config.size_pos
      have below := Int.ediv_neg_of_neg_of_pos negative (Int.natCast_pos.mpr sizePos)
      omega
    rw [written, ssizeT_eq (by omega) (by omega), ← Int.natCast_ediv] at second
    refine ⟨wholeReads, ?_, fits⟩
    unfold sizeT at second
    omega
  · rintro ⟨wholeReads, wholeWrites, fits⟩
    refine ⟨?_, ?_, ?_⟩
    · rw [total, ← Int.natCast_ediv, numReqsRead, wholeReads]
    · rw [total, written, ssizeT_eq (by omega) (by omega), ← Int.natCast_ediv,
        ← Int.natCast_ediv, outstandingReqs, wholeReads, wholeWrites]
      unfold sizeT
      omega
    · intro reached
      rw [numReqsRead, wholeReads, Nat.le_div_iff_mul_le config.size_pos, Nat.mul_comm]
      change config.total ≤ _
      omega

end Client

/-- At the end of every iteration of the tcp client its request counters agree with its
byte counters exactly when, over all calls so far, the read helper has left over less than
one request, the write helper has left over less than one request, and fewer than 2^63
bytes have been written. -/
theorem tcp_requests_agree_iff [DecidableEq Byte] {setup : Setup Byte config}
    {trace : List (Pair Byte × PairAction Byte)} {pair : Pair Byte}
    (run : Run (Pair.machine .tcp config.arguments) (Pair.initial .tcp setup) trace pair)
    (ended : pair.client.pc = .loop) :
    pair.client.RequestsAgree config ↔
      spareBytes config.size (readCalls (clientTrace trace)) < config.size ∧
        spareBytes config.size (writeCalls (clientTrace trace)) < config.size ∧
        bytesSent (clientTrace trace) < 9223372036854775808 := by
  have own := Pair.run_client run
  exact (Client.Counted.run own).requestsAgree_iff (Client.Balanced.run own) ended

/-- A request that is written in one call keeps the counters in agreement. -/
theorem tcp_requests_agree_iff_whole : ∃ trace pair,
    Run (Pair.machine .tcp Config.twoBytes.arguments)
      (Pair.initial .tcp (Setup.uniform Config.twoBytes (0 : Nat) 2)) trace pair ∧
    writeCalls (clientTrace trace) = [2] ∧
    (pair.client.RequestsAgree Config.twoBytes ↔
      spareBytes Config.twoBytes.size (readCalls (clientTrace trace)) < Config.twoBytes.size ∧
        spareBytes Config.twoBytes.size (writeCalls (clientTrace trace)) < Config.twoBytes.size ∧
        bytesSent (clientTrace trace) < 9223372036854775808) := by
  obtain ⟨trace, pair, run, reached⟩ := exists_run_of_execute
    (Pair.machine .tcp Config.twoBytes.arguments)
    (Pair.initial .tcp (Setup.uniform Config.twoBytes (0 : Nat) 2))
    [.client (.advance 0), .client (.poll (some (false, true))), .client (.advance 0),
      .client (.advance 0), .client (.advance 0), .client (.send 2), .client (.advance 0)]
    (fun result => writeCalls (clientTrace result.1) == [2] && result.2.client.pc == .loop)
    (by decide)
  obtain ⟨calls, ended⟩ : writeCalls (clientTrace trace) = [2] ∧ pair.client.pc = .loop := by
    simpa using reached
  exact ⟨trace, pair, run, calls, tcp_requests_agree_iff run ended⟩

/-- A request that is written one byte at a time, in two iterations, is not counted; its
response, read in one call, then takes the number of outstanding requests below zero. -/
theorem tcp_requests_disagree : ∃ trace pair,
    Run (Pair.machine .tcp Config.twoBytes.arguments)
      (Pair.initial .tcp (Setup.uniform Config.twoBytes (0 : Nat) 2)) trace pair ∧
    (pair.client.pc = .loop ∧ pair.client.totalBytesRead = 2 ∧
      pair.client.totalBytesWritten = 2 ∧
      pair.client.outstandingReqs = 18446744073709551615) ∧
    ¬pair.client.RequestsAgree Config.twoBytes := by
  obtain ⟨trace, pair, run, reached⟩ := exists_run_of_execute
    (Pair.machine .tcp Config.twoBytes.arguments)
    (Pair.initial .tcp (Setup.uniform Config.twoBytes (0 : Nat) 2))
    [.client (.advance 0), .client (.poll (some (false, true))), .client (.advance 0),
      .client (.advance 0), .client (.advance 0), .client (.send 1), .client .stop,
      .client (.advance 0), .client (.advance 0), .client (.poll (some (false, true))),
      .client (.advance 0), .client (.advance 0), .client (.advance 0), .client (.send 1),
      .client (.advance 0),
      .server (.advance 0), .server (.poll (some (true, false))), .server (.advance 0),
      .server (.recv [0, 0]), .server (.advance 0), .server (.advance 0), .server (.advance 0),
      .server (.poll (some (false, true))), .server (.advance 0), .server (.advance 0),
      .server (.send 2), .client (.advance 0), .client (.poll (some (true, false))),
      .client (.advance 0), .client (.recv [0, 0]), .client (.advance 0), .client (.advance 0),
      .client (.advance 0)]
    (fun result => result.2.client.pc == .loop && result.2.client.totalBytesRead == 2 &&
      result.2.client.totalBytesWritten == 2 &&
      result.2.client.outstandingReqs == 18446744073709551615)
    (by decide)
  obtain ⟨pc, read, written, wrapped⟩ : pair.client.pc = .loop ∧
      pair.client.totalBytesRead = 2 ∧ pair.client.totalBytesWritten = 2 ∧
      pair.client.outstandingReqs = 18446744073709551615 := by
    simpa [and_assoc] using reached
  refine ⟨trace, pair, run, ⟨pc, read, written, wrapped⟩, ?_⟩
  intro agree
  have outstanding := agree.outstandingReqs
  rw [read, written, wrapped] at outstanding
  exact absurd outstanding (by decide)

end IpcBench
