import IpcBench.Duo
import IpcBench.EventFd

/-!
The unidirectional eventfd benchmark: the client writes timestamps to an eventfd counter,
which adds up what the server has not read yet.
-/

namespace IpcBench

open Transition

inductive WriterPc
  | test
  | write (timestamp : Nat)
  | finished
deriving DecidableEq, Repr

structure TimestampWriter where
  pc : WriterPc
  count : Nat
deriving DecidableEq, Repr

inductive ReaderPc
  | test
  | read
  | finished
deriving DecidableEq, Repr

structure TimestampReader where
  pc : ReaderPc
  message : Nat
  starts : List Nat
deriving DecidableEq, Repr

section Steps

-- The times that `now` shows, and `args->count`.
variable (timestamps : Nat → Nat) (total : Nat)

def TimestampWriter.step (counter : Nat) (client : TimestampWriter) :
    Option (Nat × TimestampWriter) :=
  match client.pc with
  | .test =>
      if 0 < client.count then
        some (counter, { client with pc := .write (timestamps (total - client.count)) })
      else some (counter, { client with pc := .finished })
  | .write timestamp =>
      (eventfdWrite timestamp counter).map fun counter =>
        (counter, { client with pc := .test, count := client.count - 1 })
  | .finished => none

def TimestampReader.step (counter : Nat) (server : TimestampReader) :
    Option (Nat × TimestampReader) :=
  match server.pc with
  | .test =>
      if server.message < total then some (counter, { server with pc := .read })
      else some (counter, { server with pc := .finished })
  | .read =>
      if counter = 0 then none
      else
        some (0, { server with
          pc := .test
          message := server.message + 1
          starts := server.starts ++ [counter] })
  | .finished => none

abbrev TimestampPair := Duo Nat TimestampWriter TimestampReader

def timestampMachine : Machine TimestampPair Peer :=
  Duo.machine (TimestampWriter.step timestamps total) (TimestampReader.step total)

end Steps

namespace TimestampPair

def initial (total : Nat) : TimestampPair where
  shared := 0
  client := ⟨.test, total⟩
  server := ⟨.test, 0, []⟩

def Writes (pair : TimestampPair) : Peer → Bool
  | .client => match pair.client.pc with
    | .write _ => true
    | _ => false
  | .server => false

def Separate (pair : TimestampPair) (peer : Peer) : Prop :=
  pair.Writes peer = true → pair.shared = 0

instance (pair : TimestampPair) (peer : Peer) : Decidable (pair.Separate peer) :=
  inferInstanceAs (Decidable (_ → _))

def merged (trace : List (TimestampPair × Peer)) : Nat :=
  trace.countP fun entry => !decide (entry.1.Separate entry.2)

/-- Every read has returned the timestamp that is due, and the server does not wait for one
that the client has already written. -/
structure Receives (timestamps : Nat → Nat) (pair : TimestampPair) : Prop where
  starts : pair.server.starts = (List.range pair.server.starts.length).map timestamps
  goes_on : ¬(pair.client.pc = .finished ∧ pair.server.pc = .read ∧ pair.shared = 0)

def pending (pair : TimestampPair) : Nat :=
  if pair.shared = 0 then 0 else 1

structure Counted (timestamps : Nat → Nat) (total : Nat) (merged : Nat) (pair : TimestampPair) :
    Prop where
  count : pair.client.count ≤ total
  written : total = pair.client.count + pair.server.starts.length + pair.pending + merged
  writing : ∀ timestamp, pair.client.pc = .write timestamp →
    0 < pair.client.count ∧ timestamp = timestamps (total - pair.client.count)
  finished : pair.client.pc = .finished → pair.client.count = 0
  message : pair.server.message = pair.server.starts.length
  reading : pair.server.pc = .read → pair.server.message < total
  whole : pair.server.pc = .finished → total ≤ pair.server.message
  /-- While nothing has been merged, the reads are in step with the writes. -/
  separate : merged = 0 →
    pair.server.starts = (List.range pair.server.starts.length).map timestamps ∧
      (pair.shared = 0 ∨ pair.shared = timestamps pair.server.starts.length)

variable {timestamps : Nat → Nat} {total : Nat} {pair next : TimestampPair} {peer : Peer}
  {trace : List (TimestampPair × Peer)}

theorem counted_initial : Counted timestamps total 0 (initial total) where
  count := Nat.le_refl _
  written := rfl
  writing := fun _ writing => by cases writing
  finished := fun finished => by cases finished
  message := rfl
  reading := fun reading => by cases reading
  whole := fun whole => by cases whole
  separate := fun _ => ⟨rfl, Or.inl rfl⟩

theorem merged_step (trace : List (TimestampPair × Peer)) (pair : TimestampPair) (peer : Peer) :
    merged (trace ++ [(pair, peer)]) =
      merged trace + if pair.Separate peer then 0 else 1 := by
  by_cases separate : pair.Separate peer <;> simp [merged, separate]

theorem Counted.client_step {before counter : Nat} {client : TimestampWriter}
    (counted : Counted timestamps total before pair) (positive : ∀ index, 0 < timestamps index)
    (taken : pair.client.step timestamps total pair.shared = some (counter, client)) :
    Counted timestamps total (before + if pair.Separate .client then 0 else 1)
      { pair with shared := counter, client := client } := by
  cases pc : pair.client.pc with
  | test =>
      have separate : pair.Separate .client := by simp [Separate, Writes, pc]
      rw [if_pos separate, Nat.add_zero]
      simp only [TimestampWriter.step, pc] at taken
      split at taken <;> cases taken
      · rename_i more
        refine { counted with writing := ?_, finished := (fun finished => by cases finished) }
        intro timestamp same
        cases same
        exact ⟨more, rfl⟩
      · rename_i isOver
        refine { counted with writing := (fun _ writing => by cases writing), finished := ?_ }
        intro _
        simpa using isOver
  | write timestamp =>
      obtain ⟨more, rfl⟩ := counted.writing timestamp pc
      simp only [TimestampWriter.step, pc] at taken
      obtain ⟨result, wrote, same⟩ := Option.map_eq_some_iff.mp taken
      cases same
      have sum := TokenPair.eventfdWrite_eq wrote
      have due := positive (total - pair.client.count)
      have written := counted.written
      have count := counted.count
      have pending : (if counter = 0 then 0 else 1) = 1 := if_neg (by omega)
      by_cases empty : pair.shared = 0
      · have separate : pair.Separate .client := fun _ => empty
        rw [if_pos separate, Nat.add_zero]
        simp only [TimestampPair.pending, if_pos empty] at written
        refine { counted with
          count := (by simp only; omega)
          written := (by simp only [TimestampPair.pending, pending]; omega)
          writing := (fun _ writing => by cases writing)
          finished := (fun finished => by cases finished)
          separate := ?_ }
        intro none
        refine ⟨(counted.separate none).1, Or.inr ?_⟩
        have position : total - pair.client.count = pair.server.starts.length := by omega
        rw [sum, empty, Nat.zero_add, position]
      · have added : ¬pair.Separate .client := fun separate => empty (separate (by simp [Writes, pc]))
        rw [if_neg added]
        simp only [TimestampPair.pending, if_neg empty] at written
        refine { counted with
          count := (by simp only; omega)
          written := (by simp only [TimestampPair.pending, pending]; omega)
          writing := (fun _ writing => by cases writing)
          finished := (fun finished => by cases finished)
          separate := (fun none => by omega) }
  | finished => simp [TimestampWriter.step, pc] at taken

theorem Counted.server_step {before counter : Nat} {server : TimestampReader}
    (counted : Counted timestamps total before pair)
    (taken : pair.server.step total pair.shared = some (counter, server)) :
    Counted timestamps total before { pair with shared := counter, server := server } := by
  cases pc : pair.server.pc with
  | test =>
      simp only [TimestampReader.step, pc] at taken
      split at taken <;> cases taken
      · rename_i more
        exact { counted with
          reading := (fun _ => more)
          whole := (fun whole => by cases whole) }
      · rename_i isOver
        exact { counted with
          reading := (fun reading => by cases reading)
          whole := (fun _ => by simpa using isOver) }
  | read =>
      have within := counted.reading pc
      have written := counted.written
      simp only [TimestampReader.step, pc] at taken
      split at taken
      · cases taken
      · rename_i some
        cases taken
        simp only [TimestampPair.pending, if_neg some] at written
        refine { counted with
          written := (by
            simp only [TimestampPair.pending, if_true, List.length_append, List.length_singleton]
            omega)
          message := (by simp [counted.message])
          reading := (fun reading => by cases reading)
          whole := (fun whole => by cases whole)
          separate := ?_ }
        intro none
        obtain ⟨starts, due⟩ := counted.separate none
        refine ⟨?_, Or.inl rfl⟩
        rw [List.length_append, List.length_singleton, List.range_succ, List.map_append, ← starts,
          due.resolve_left some]
        rfl
  | finished => simp [TimestampReader.step, pc] at taken

theorem counted (positive : ∀ index, 0 < timestamps index)
    (run : Run (timestampMachine timestamps total) (initial total) trace pair) :
    Counted timestamps total (merged trace) pair := by
  induction run with
  | start => exact counted_initial
  | step before taken ih =>
      rename_i trace pair peer next
      rw [merged_step]
      cases peer with
      | client =>
          obtain ⟨counter, client, moved, rfl⟩ := Duo.step_client.mp taken
          exact ih.client_step positive moved
      | server =>
          obtain ⟨counter, server, moved, rfl⟩ := Duo.step_server.mp taken
          have separate : pair.Separate .server := by simp [Separate, Writes]
          rw [if_pos separate, Nat.add_zero]
          exact ih.server_step moved

theorem merged_eq_zero : merged trace = 0 ↔ ∀ entry ∈ trace, entry.1.Separate entry.2 := by
  simp [merged, List.countP_eq_zero]

theorem Counted.receives (counted : Counted timestamps total 0 pair) :
    pair.Receives timestamps where
  starts := (counted.separate rfl).1
  goes_on := by
    rintro ⟨finished, reading, empty⟩
    have written := counted.written
    have message := counted.message
    have within := counted.reading reading
    have count := counted.finished finished
    simp only [pending, if_pos empty] at written
    omega

theorem Counted.none_merged {before : Nat} (counted : Counted timestamps total before pair)
    (finished : pair.client.pc = .finished) (stopped : pair.server.step total pair.shared = none)
    (receives : pair.Receives timestamps) : before = 0 := by
  have written := counted.written
  have message := counted.message
  have count := counted.finished finished
  cases pc : pair.server.pc with
  | test =>
      simp only [TimestampReader.step, pc] at stopped
      split at stopped <;> cases stopped
  | read =>
      simp only [TimestampReader.step, pc] at stopped
      split at stopped
      · rename_i empty
        exact absurd ⟨finished, pc, empty⟩ receives.goes_on
      · cases stopped
  | finished =>
      have whole := counted.whole pc
      omega

end TimestampPair

/-- Every timestamp is received in its turn as long as every write finds the counter read,
and in a run that is over only then. -/
theorem timestamps_received_iff {timestamps : Nat → Nat} {total : Nat}
    (positive : ∀ index, 0 < timestamps index) {trace : List (TimestampPair × Peer)}
    {pair : TimestampPair}
    (run : Run (timestampMachine timestamps total) (TimestampPair.initial total) trace pair) :
    ((∀ entry ∈ trace, entry.1.Separate entry.2) → pair.Receives timestamps) ∧
    (pair.client.pc = .finished → pair.server.step total pair.shared = none →
      (pair.Receives timestamps ↔ ∀ entry ∈ trace, entry.1.Separate entry.2)) := by
  have counted := TimestampPair.counted positive run
  have received : (∀ entry ∈ trace, entry.1.Separate entry.2) → pair.Receives timestamps := by
    intro separate
    rw [TimestampPair.merged_eq_zero.mpr separate] at counted
    exact counted.receives
  refine ⟨received, ?_⟩
  intro finished stopped
  refine ⟨?_, received⟩
  intro receives
  exact TimestampPair.merged_eq_zero.mp (counted.none_merged finished stopped receives)

theorem timestamps_received_iff_alternating : ∃ trace pair,
    Run (timestampMachine (fun index => index + 1) 1) (TimestampPair.initial 1) trace pair ∧
    pair.server.starts = [1] ∧ pair.Receives fun index => index + 1 := by
  obtain ⟨trace, pair, run, reached⟩ := exists_run_of_execute
    (timestampMachine (fun index => index + 1) 1) (TimestampPair.initial 1)
    [.server, .client, .client, .server, .client, .server]
    (fun result => decide (∀ entry ∈ result.1, entry.1.Separate entry.2) &&
      result.2.server.starts == [1])
    (by decide)
  simp only [Bool.and_eq_true, decide_eq_true_eq, beq_iff_eq] at reached
  exact ⟨trace, pair, run, reached.2,
    (timestamps_received_iff (fun index => Nat.succ_pos index) run).1 reached.1⟩

/-- Two writes before the first read: the server reads their sum and waits for good. -/
theorem timestamps_added : ∃ trace pair,
    Run (timestampMachine (fun index => index + 1) 2) (TimestampPair.initial 2) trace pair ∧
    pair.server.starts = [3] ∧ pair.client.pc = .finished ∧
    pair.server.step 2 pair.shared = none ∧ ¬pair.Receives fun index => index + 1 := by
  obtain ⟨trace, pair, run, reached⟩ := exists_run_of_execute
    (timestampMachine (fun index => index + 1) 2) (TimestampPair.initial 2)
    [.client, .client, .client, .client, .client, .server, .server, .server]
    (fun result => result.2.server.starts == [3] && result.2.client.pc == .finished &&
      result.2.server.step 2 result.2.shared == none)
    (by decide)
  simp only [Bool.and_eq_true, beq_iff_eq] at reached
  obtain ⟨⟨starts, finished⟩, stopped⟩ := reached
  refine ⟨trace, pair, run, starts, finished, stopped, ?_⟩
  intro receives
  have due := receives.starts
  rw [starts] at due
  cases due

end IpcBench
