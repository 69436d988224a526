import IpcBench.Duo

/-!
The shm-sync transport: a server and a client that take turns through one mutex and one
condition variable in shared memory.
-/

namespace IpcBench

open Transition

/-- `struct Sync`: who owns the mutex and who sleeps on the condition. -/
structure Sync where
  owner : Option Peer
  sleeping : List Peer
deriving DecidableEq, Repr

inductive SyncWaitPc
  | lock
  | condWait
  | asleep
deriving DecidableEq, Repr

/-- A step of `sync_wait`, which returns where no place is left. Locking a mutex blocks while
anybody owns it, the process itself included. A wait gives the mutex up and returns with it. -/
def syncWait (self : Peer) (sync : Sync) : SyncWaitPc → Option (Sync × Option SyncWaitPc)
  | .lock => if sync.owner = none then some ({ sync with owner := some self }, some .condWait) else none
  | .condWait => some (⟨none, sync.sleeping ++ [self]⟩, some .asleep)
  | .asleep =>
      if self ∉ sync.sleeping ∧ sync.owner = none then some ({ sync with owner := some self }, none)
      else none

/-- `sync_notify` wakes one process, if any sleeps. -/
def syncNotify (sync : Sync) : Sync :=
  { sync with sleeping := sync.sleeping.tail }

inductive SyncServerPc
  | start (place : SyncWaitPc)
  | test
  | notify
  | wait (place : SyncWaitPc)
  | notifyAgain
  | finished
deriving DecidableEq, Repr

structure SyncServer where
  pc : SyncServerPc
  message : Nat
deriving DecidableEq, Repr

inductive SyncClientPc
  | init
  | test
  | wait (place : SyncWaitPc)
  | notify
  | finished
deriving DecidableEq, Repr

structure SyncClient where
  pc : SyncClientPc
  count : Nat
deriving DecidableEq, Repr

def SyncServer.step (count : Nat) (sync : Sync) (server : SyncServer) : Option (Sync × SyncServer) :=
  match server.pc with
  | .start place =>
      (syncWait .server sync place).map fun result =>
        match result.2 with
        | some place => (result.1, { server with pc := .start place })
        | none => (result.1, { server with pc := .test })
  | .test =>
      if server.message < count then some (sync, { server with pc := .notify })
      else some (sync, { server with pc := .finished })
  | .notify => some (syncNotify sync, { server with pc := .wait .lock })
  | .wait place =>
      (syncWait .server sync place).map fun result =>
        match result.2 with
        | some place => (result.1, { server with pc := .wait place })
        | none => (result.1, { server with pc := .notifyAgain })
  | .notifyAgain =>
      some (syncNotify sync, { server with pc := .test, message := server.message + 1 })
  | .finished => none

def SyncClient.step (sync : Sync) (client : SyncClient) : Option (Sync × SyncClient) :=
  match client.pc with
  | .init => some (syncNotify sync, { client with pc := .test })
  | .test =>
      if 0 < client.count then some (sync, { client with pc := .wait .lock })
      else some (sync, { client with pc := .finished })
  | .wait place =>
      (syncWait .client sync place).map fun result =>
        match result.2 with
        | some place => (result.1, { client with pc := .wait place })
        | none => (result.1, { client with pc := .notify })
  | .notify => some (syncNotify sync, { client with pc := .test, count := client.count - 1 })
  | .finished => none

abbrev SyncPair := Duo Sync SyncClient SyncServer

def syncMachine (count : Nat) : Machine SyncPair Peer :=
  Duo.machine SyncClient.step (SyncServer.step count)

namespace SyncPair

def initial (count : Nat) : SyncPair where
  shared := ⟨none, []⟩
  client := ⟨.init, count⟩
  server := ⟨.start .lock, 0⟩

def Relocks (pair : SyncPair) : Prop :=
  (pair.client.pc = .wait .lock ∧ pair.shared.owner = some .client) ∨
    ((pair.server.pc = .start .lock ∨ pair.server.pc = .wait .lock) ∧
      pair.shared.owner = some .server)

def Notifies (pair : SyncPair) : Peer → Prop
  | .client => pair.client.pc = .init ∨ pair.client.pc = .notify
  | .server => pair.server.pc = .notify ∨ pair.server.pc = .notifyAgain

def peer : Peer → Peer
  | .client => .server
  | .server => .client

def Deadlocked (count : Nat) (pair : SyncPair) : Prop :=
  Stranded (pair.client.pc = .finished) (pair.client.step pair.shared = none)
    (pair.server.pc = .finished) (pair.server.step count pair.shared = none)

/-- What the synchronisation should do: no mutex is locked by its owner, every notification
wakes the other side, and the two do not block each other. -/
structure Synchronised (count : Nat) (trace : List (SyncPair × Peer)) (pair : SyncPair) : Prop where
  locks : ¬pair.Relocks
  notifies : ∀ entry ∈ trace, entry.1.Notifies entry.2 → peer entry.2 ∈ entry.1.shared.sleeping
  goes_on : ¬pair.Deadlocked count

end SyncPair

def SyncServerPc.owns : SyncServerPc → Bool
  | .start .condWait => true
  | .test => true
  | .notify => true
  | .wait .lock => true
  | _ => false

def SyncClientPc.left : SyncClientPc → Nat
  | .init => 4
  | .test => 3
  | .wait .lock => 2
  | .wait .condWait => 1
  | _ => 0

def SyncServerPc.left : SyncServerPc → Nat
  | .start .lock => 5
  | .start .condWait => 4
  | .start .asleep => 3
  | .test => 2
  | .notify => 1
  | _ => 0

namespace SyncPair

/-- The server's first wait never gives the mutex back: the server can come as far as the
wait of its first round, where it locks the mutex that it owns. -/
structure Tangled (count : Nat) (pair : SyncPair) : Prop where
  count : pair.client.count = count
  message : pair.server.message = 0
  clientPc : pair.client.pc = .init ∨ pair.client.pc = .test ∨ ∃ place, pair.client.pc = .wait place
  serverPc : (∃ place, pair.server.pc = .start place) ∨ pair.server.pc = .test ∨
    pair.server.pc = .notify ∨ pair.server.pc = .wait .lock
  clientOwns : pair.shared.owner = some .client ↔ pair.client.pc = .wait .condWait
  serverOwns : pair.shared.owner = some .server ↔ pair.server.pc.owns = true
  clientSleeps : .client ∈ pair.shared.sleeping → pair.client.pc = .wait .asleep
  serverSleeps : .server ∈ pair.shared.sleeping → pair.server.pc = .start .asleep
  once : pair.shared.sleeping.Nodup
  early : pair.client.pc = .init → pair.server.pc = .start .lock ∨ pair.server.pc = .start .condWait ∨
    (pair.server.pc = .start .asleep ∧ .server ∈ pair.shared.sleeping)
  late : pair.client.pc = .wait .asleep →
    .client ∈ pair.shared.sleeping ∨ pair.server.pc = .wait .lock

variable {count : Nat} {pair next : SyncPair} {peer : Peer} {sync : Sync}

theorem tail_of_alone {sleeping : List Peer} {other : Peer} (once : sleeping.Nodup)
    (alone : other ∉ sleeping) : sleeping.tail = [] := by
  match sleeping with
  | [] => rfl
  | [_] => rfl
  | first :: second :: rest =>
      simp only [List.nodup_cons, List.mem_cons, not_or] at once alone
      cases first <;> cases second <;> cases other <;> simp_all

theorem nodup_concat {sleeping : List Peer} {other : Peer} :
    (sleeping ++ [other]).Nodup ↔ sleeping.Nodup ∧ other ∉ sleeping := by
  rw [← List.concat_eq_append, List.nodup_concat, and_comm]

theorem Tangled.initial : Tangled count (initial count) := by
  constructor <;> simp [SyncPair.initial, SyncServerPc.owns]

theorem Tangled.client_step (tangled : Tangled count pair) {client : SyncClient}
    (taken : pair.client.step pair.shared = some (sync, client)) (counted : 0 < count) :
    Tangled count { pair with shared := sync, client := client } ∧
      client.pc.left < pair.client.pc.left := by
  obtain ⟨same, message, clientPc, serverPc, clientOwns, serverOwns, clientSleeps, serverSleeps,
    once, early, late⟩ := tangled
  rcases clientPc with pc | pc | ⟨place, pc⟩
  · have alone : Peer.client ∉ pair.shared.sleeping := by
      intro asleep
      simp [pc] at clientSleeps
      exact clientSleeps asleep
    simp only [SyncClient.step, pc] at taken
    cases taken
    have nobody := tail_of_alone once alone
    refine ⟨⟨same, message, Or.inr (Or.inl rfl), serverPc, ?_, serverOwns, ?_, ?_, ?_, ?_, ?_⟩,
      by simp [pc, SyncClientPc.left]⟩
    all_goals simp_all [syncNotify]
  · simp only [SyncClient.step, pc, same, counted, if_true] at taken
    cases taken
    refine ⟨⟨rfl, message, Or.inr (Or.inr ⟨_, rfl⟩), serverPc, ?_, serverOwns, ?_, serverSleeps,
      once, ?_, ?_⟩, by simp [pc, SyncClientPc.left]⟩
    all_goals simp_all
  · simp only [SyncClient.step, pc] at taken
    obtain ⟨⟨result, later⟩, waited, returned⟩ := Option.map_eq_some_iff.mp taken
    cases place with
    | lock =>
        simp only [syncWait] at waited
        split at waited <;> cases waited
        rename_i free
        cases returned
        refine ⟨⟨same, message, Or.inr (Or.inr ⟨_, rfl⟩), serverPc, ?_, ?_, ?_, serverSleeps,
          once, ?_, ?_⟩, by simp [pc, SyncClientPc.left]⟩
        all_goals simp_all
    | condWait =>
        simp only [syncWait] at waited
        cases waited
        cases returned
        refine ⟨⟨same, message, Or.inr (Or.inr ⟨_, rfl⟩), serverPc, ?_, ?_, ?_, ?_, ?_, ?_, ?_⟩,
          by simp [pc, SyncClientPc.left]⟩
        all_goals simp_all [nodup_concat]
    | asleep =>
        simp only [syncWait] at waited
        split at waited <;> cases waited
        rename_i woken
        have relocks := (late pc).resolve_left woken.1
        simp [relocks, SyncServerPc.owns, woken.2] at serverOwns

theorem Tangled.server_step (tangled : Tangled count pair) {server : SyncServer}
    (taken : pair.server.step count pair.shared = some (sync, server)) (counted : 0 < count) :
    Tangled count { pair with shared := sync, server := server } ∧
      server.pc.left < pair.server.pc.left := by
  obtain ⟨same, message, clientPc, serverPc, clientOwns, serverOwns, clientSleeps, serverSleeps,
    once, early, late⟩ := tangled
  rcases serverPc with ⟨place, pc⟩ | pc | pc | pc
  · simp only [SyncServer.step, pc] at taken
    obtain ⟨⟨result, later⟩, waited, returned⟩ := Option.map_eq_some_iff.mp taken
    cases place with
    | lock =>
        simp only [syncWait] at waited
        split at waited <;> cases waited
        cases returned
        refine ⟨⟨same, message, clientPc, Or.inl ⟨_, rfl⟩, ?_, ?_, clientSleeps, ?_, once, ?_, ?_⟩,
          by simp [pc, SyncServerPc.left]⟩
        all_goals simp_all [SyncServerPc.owns]
    | condWait =>
        simp only [syncWait] at waited
        cases waited
        cases returned
        refine ⟨⟨same, message, clientPc, Or.inl ⟨_, rfl⟩, ?_, ?_, ?_, ?_, ?_, ?_, ?_⟩,
          by simp [pc, SyncServerPc.left]⟩
        all_goals simp_all [SyncServerPc.owns, nodup_concat]
    | asleep =>
        simp only [syncWait] at waited
        split at waited <;> cases waited
        cases returned
        refine ⟨⟨same, message, clientPc, Or.inr (Or.inl rfl), ?_, ?_, clientSleeps, ?_, once, ?_, ?_⟩,
          by simp [pc, SyncServerPc.left]⟩
        all_goals simp_all [SyncServerPc.owns]
  · simp only [SyncServer.step, pc, message, counted, if_true] at taken
    cases taken
    refine ⟨⟨same, rfl, clientPc, Or.inr (Or.inr (Or.inl rfl)), clientOwns, ?_, clientSleeps, ?_, once,
      ?_, ?_⟩, by simp [pc, SyncServerPc.left]⟩
    all_goals simp_all [SyncServerPc.owns]
  · have alone : Peer.server ∉ pair.shared.sleeping := by
      intro asleep
      simp [pc] at serverSleeps
      exact serverSleeps asleep
    simp only [SyncServer.step, pc] at taken
    cases taken
    have nobody := tail_of_alone once alone
    refine ⟨⟨same, message, clientPc, Or.inr (Or.inr (Or.inr rfl)), ?_, ?_, ?_, ?_, ?_, ?_, ?_⟩,
      by simp [pc, SyncServerPc.left]⟩
    all_goals simp_all [syncNotify, SyncServerPc.owns]
  · have own : pair.shared.owner = some .server := serverOwns.mpr (by rw [pc]; rfl)
    simp [SyncServer.step, pc, syncWait, own] at taken

theorem Tangled.step (tangled : Tangled count pair) (counted : 0 < count)
    (taken : (syncMachine count).step pair peer = some next) : Tangled count next ∧
      next.client.pc.left + next.server.pc.left < pair.client.pc.left + pair.server.pc.left := by
  cases peer with
  | client =>
      obtain ⟨sync, client, moved, rfl⟩ := Duo.step_client.mp taken
      obtain ⟨kept, lower⟩ := tangled.client_step moved counted
      exact ⟨kept, Nat.add_lt_add_right lower _⟩
  | server =>
      obtain ⟨sync, server, moved, rfl⟩ := Duo.step_server.mp taken
      obtain ⟨kept, lower⟩ := tangled.server_step moved counted
      exact ⟨kept, Nat.add_lt_add_left lower _⟩

theorem Tangled.goes (tangled : Tangled count pair) :
    (pair.Deadlocked count ∧ pair.client.count = count ∧ pair.server.message = 0) ∨
      ∃ peer next, (syncMachine count).step pair peer = some next := by
  cases client : pair.client.step pair.shared with
  | some result => exact Or.inr ⟨.client, _, Duo.step_client.mpr ⟨_, _, client, rfl⟩⟩
  | none =>
      cases server : pair.server.step count pair.shared with
      | some result => exact Or.inr ⟨.server, _, Duo.step_server.mpr ⟨_, _, server, rfl⟩⟩
      | none =>
          refine Or.inl ⟨⟨?_, Or.inr client, Or.inr server⟩, tangled.count, tangled.message⟩
          rintro ⟨finished, _⟩
          rcases tangled.clientPc with pc | pc | ⟨place, pc⟩ <;> cases finished.symm.trans pc

end SyncPair

open SyncPair in
/-- For every count: some run breaks what is promised, and every run ends, after a bounded
number of steps, in a deadlock in which not one round has been completed. -/
theorem sync_always_deadlocks {count : Nat} (counted : 0 < count) :
    (∃ trace pair, Run (syncMachine count) (initial count) trace pair ∧
      ¬pair.Synchronised count trace) ∧
    (syncMachine count).Ends (initial count) fun pair =>
      pair.Deadlocked count ∧ pair.client.count = count ∧ pair.server.message = 0 := by
  constructor
  · have early : (syncMachine count).step (initial count) .client =
        some ⟨syncNotify ⟨none, []⟩, ⟨.test, count⟩, (initial count).server⟩ := rfl
    refine ⟨_, _, Run.step Run.start early, ?_⟩
    intro synchronised
    have heard := synchronised.notifies (initial count, .client) (by simp) (Or.inl rfl)
    cases heard
  · exact ends_of_measure (Tangled count) (fun pair => pair.client.pc.left + pair.server.pc.left)
      Tangled.initial (fun _ _ _ tangled taken => tangled.step counted taken)
      fun _ tangled => tangled.goes

theorem sync_always_deadlocks_once : (syncMachine 1).Ends (SyncPair.initial 1) fun pair =>
    pair.Deadlocked 1 ∧ pair.client.count = 1 ∧ pair.server.message = 0 :=
  (sync_always_deadlocks (by decide)).2

/-- The server sleeps before the client notifies it, and yet comes to lock the mutex that it
still owns. -/
theorem sync_relocks : ∃ trace pair, Run (syncMachine 1) (SyncPair.initial 1) trace pair ∧
    pair.Relocks ∧ ¬pair.Synchronised 1 trace := by
  obtain ⟨trace, pair, run, reached⟩ := exists_run_of_execute
    (syncMachine 1) (SyncPair.initial 1) [.server, .server, .client, .server, .server, .server]
    (fun result => result.2.server.pc == .wait .lock && result.2.shared.owner == some .server)
    (by decide)
  simp only [Bool.and_eq_true, beq_iff_eq] at reached
  have relocks : pair.Relocks := Or.inr ⟨Or.inr reached.1, reached.2⟩
  exact ⟨trace, pair, run, relocks, fun synchronised => synchronised.locks relocks⟩

end IpcBench
