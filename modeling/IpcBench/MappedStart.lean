import IpcBench.MappingRounds

/-!
How the mmap server and client start: both open `/tmp/mmap`, which an earlier run may have
left behind, the server extends it, both map it, and then they enter their loops.
-/

namespace IpcBench

open Transition

/-- The file under its mappings. `removed` says that the name is gone. -/
structure SharedFile where
  length : Nat
  memory : Memory
  removed : Bool

def SharedFile.leftBehind (leftover : Option (List Char)) : SharedFile where
  length := (leftover.getD []).length
  memory := fun address => ⟨(leftover.getD []).getD address (Char.ofNat 0), none⟩
  removed := false

/-- A client in `main`; an access behind the end of the file kills it. -/
inductive FileClient
  | opening
  | mapping
  | running (client : MappedClient)
  | removed (client : MappedClient)
  | killed (client : MappedClient)
deriving DecidableEq, Repr

/-- A server in `main`. It is alone when it has opened a file that nobody else has. -/
inductive FileServer
  | opening
  | makingSpace
  | mapping
  | running (server : MappedServer)
  | alone
  | killed (server : MappedServer)
deriving DecidableEq, Repr

def MappedClient.address (mapping : Mapping) (client : MappedClient) : Option Nat :=
  match client.pc with
  | .init => some 0
  | .test => none
  | .wait => some 0
  | .memcpy index => if index < mapping.size then some (mapping.payload + index) else none
  | .memset index => if index < mapping.size then some (mapping.payload + index) else none
  | .notify => some 0
  | .finished => none

def MappedServer.address (mapping : Mapping) (server : MappedServer) : Option Nat :=
  match server.pc with
  | .start => some 0
  | .test => none
  | .memset index => if index < mapping.size then some (mapping.payload + index) else none
  | .notify => some 0
  | .wait => some 0
  | .memcpy index => if index < mapping.size then some (mapping.payload + index) else none
  | .finished => none

def SharedFile.backs (file : SharedFile) (address : Option Nat) : Bool :=
  address.all fun address => address < file.length

theorem backs_iff {file : SharedFile} {address : Option Nat} :
    file.backs address = true ↔ ∀ place, address = some place → place < file.length := by
  cases address <;> simp [SharedFile.backs]

theorem client_address {mapping : Mapping} {client : MappedClient} {address : Nat}
    (accesses : client.address mapping = some address) : address = 0 ∨
      (client.pc.inside = true ∧ address < mapping.payload + mapping.size) := by
  unfold MappedClient.address at accesses
  split at accesses
  · exact Or.inl (Option.some.inj accesses).symm
  · cases accesses
  · exact Or.inl (Option.some.inj accesses).symm
  · rename_i index pc
    split at accesses <;> cases accesses
    exact Or.inr ⟨by rw [pc]; rfl, by omega⟩
  · rename_i index pc
    split at accesses <;> cases accesses
    exact Or.inr ⟨by rw [pc]; rfl, by omega⟩
  · exact Or.inl (Option.some.inj accesses).symm
  · cases accesses

theorem server_address {mapping : Mapping} {server : MappedServer} {address : Nat}
    (accesses : server.address mapping = some address) :
    address = 0 ∨ address < mapping.payload + mapping.size := by
  unfold MappedServer.address at accesses
  split at accesses
  · exact Or.inl (Option.some.inj accesses).symm
  · cases accesses
  · split at accesses <;> cases accesses
    exact Or.inr (by omega)
  · exact Or.inl (Option.some.inj accesses).symm
  · exact Or.inl (Option.some.inj accesses).symm
  · split at accesses <;> cases accesses
    exact Or.inr (by omega)
  · cases accesses

/-- `make_space` writes one byte behind the guard and the payload. -/
def SharedFile.makeSpace (bytes : Nat) (file : SharedFile) : SharedFile :=
  { file with
    length := max file.length (bytes + 2)
    memory := Function.update file.memory (bytes + 1) ⟨Char.ofNat 0, none⟩ }

def FileClient.step (mapping : Mapping) (file : SharedFile) :
    FileClient → Option (SharedFile × FileClient)
  | .opening => some (file, .mapping)
  | .mapping => some (file, .running (.initial mapping))
  | .running client =>
      if client.pc = .finished then some ({ file with removed := true }, .removed client)
      else if file.backs (client.address mapping) then
        (client.step mapping file.memory).map fun result =>
          ({ file with memory := result.1 }, .running result.2)
      else some (file, .killed client)
  | .removed _ => none
  | .killed _ => none

def FileServer.step (mapping : Mapping) (file : SharedFile) :
    FileServer → Option (SharedFile × FileServer)
  | .opening => if file.removed then some (file, .alone) else some (file, .makingSpace)
  | .makingSpace => some (file.makeSpace mapping.size, .mapping)
  | .mapping => some (file, .running .initial)
  | .running server =>
      if file.backs (server.address mapping) then
        (server.step mapping file.memory).map fun result =>
          ({ file with memory := result.1 }, .running result.2)
      else some (file, .killed server)
  | .alone => none
  | .killed _ => none

abbrev FilePair := Duo SharedFile FileClient FileServer

def fileMachine (size count : Nat) : Machine FilePair Peer :=
  Duo.machine (FileClient.step (mmap size count)) (FileServer.step (mmap size count))

def FileClient.loop (mapping : Mapping) : FileClient → MappedClient
  | .opening => .initial mapping
  | .mapping => .initial mapping
  | .running client => client
  | .removed client => client
  | .killed client => client

def FileServer.loop : FileServer → MappedServer
  | .running server => server
  | .killed server => server
  | _ => .initial

def FileClient.storesFirst : FileClient → Bool
  | .running client => client.pc = .init
  | _ => false

def FileClient.started : FileClient → Bool
  | .running client => client.pc ≠ .init
  | .removed _ => true
  | .killed client => client.pc ≠ .init
  | _ => false

def FileServer.madeSpace : FileServer → Bool
  | .mapping => true
  | .running _ => true
  | .killed _ => true
  | _ => false

def FileServer.waitsFirst : FileServer → Bool
  | .running server => server.pc = .start
  | _ => false

namespace FilePair

def initial (leftover : Option (List Char)) : FilePair where
  shared := .leftBehind leftover
  client := .opening
  server := .opening

def mapped (size count : Nat) (pair : FilePair) : MappedPair where
  shared := pair.shared.memory
  client := pair.client.loop (mmap size count)
  server := pair.server.loop

def processed (size count : Nat) (pair : FilePair) : Nat :=
  count - (pair.client.loop (mmap size count)).count

def answered (pair : FilePair) : Nat :=
  pair.server.loop.message

/-- What a step should find: a file that is long enough for the first store, and a first
wait that returns only to a client that has started. -/
def FindsReady (pair : FilePair) : Peer → Prop
  | .client => pair.client.storesFirst = true → 0 < pair.shared.length
  | .server => pair.server.waitsFirst = true → serverWait pair.shared.memory = true →
      pair.client.started = true

/-- Steps that do not depend on what was left behind: the first store comes after
`make_space` or finds an earlier file, the first wait comes after the first store or finds
another byte than the client's. -/
def Orderly (leftover : Option (List Char)) (pair : FilePair) : Peer → Prop
  | .client => pair.client.storesFirst = true →
      leftover.getD [] ≠ [] ∨ pair.server.madeSpace = true
  | .server => pair.server.waitsFirst = true →
      (leftover.getD []).head? ≠ some 's' ∨ pair.client.started = true

structure Safe (size count : Nat) (trace : List (FilePair × Peer)) (pair : FilePair) : Prop where
  ready : ∀ entry ∈ trace, entry.1.FindsReady entry.2
  client_alive : ∀ client, pair.client ≠ .killed client
  server_alive : pair.server ≠ .alone ∧ ∀ server, pair.server ≠ .killed server
  answered : pair.answered ≤ pair.processed size count
  client_done : (pair.client.loop (mmap size count)).pc = .finished →
    pair.processed size count = count
  server_done : pair.server.loop.pc = .finished → pair.answered = count
  goes_on : ¬Mapping.Spins (pair.mapped size count)

structure Untouched (size : Nat) (leftover : Option (List Char)) (pair : FilePair) : Prop where
  length : pair.server.madeSpace = false → pair.shared.length = (leftover.getD []).length
  space : pair.server.madeSpace = true → size + 2 ≤ pair.shared.length
  guard : pair.client.started = false → pair.server.loop.pc = .start →
    (pair.shared.memory 0).value = (leftover.getD []).getD 0 (Char.ofNat 0)

variable {size count : Nat} {leftover : Option (List Char)} {pair next : FilePair} {peer : Peer}
  {trace : List (FilePair × Peer)}

theorem client_file {file after : SharedFile} {client place : FileClient} {mapping : Mapping}
    (taken : client.step mapping file = some (after, place)) :
    after.length = file.length ∧ (place.started = false → after.memory = file.memory) ∧
      (client.started = true → place.started = true) := by
  cases client with
  | opening =>
      cases taken
      exact ⟨rfl, fun _ => rfl, fun started => started⟩
  | mapping =>
      cases taken
      exact ⟨rfl, fun _ => rfl, fun started => by cases started⟩
  | running client =>
      simp only [FileClient.step] at taken
      split at taken
      · cases taken
        exact ⟨rfl, fun _ => rfl, fun _ => rfl⟩
      · split at taken
        · obtain ⟨⟨memory, moved⟩, stepped, same⟩ := Option.map_eq_some_iff.mp taken
          cases same
          have started := Mapping.client_started stepped
          exact ⟨rfl, fun fresh => by simp [FileClient.started, started] at fresh,
            fun _ => by simp [FileClient.started, started]⟩
        · cases taken
          exact ⟨rfl, fun _ => rfl, fun started => started⟩
  | removed client => cases taken
  | killed client => cases taken

theorem server_guard {mapping : Mapping} {memory after : Memory} {server place : MappedServer}
    (taken : server.step mapping memory = some (after, place)) (pc : place.pc = .start) :
    after = memory ∧ server.pc = .start := by
  unfold MappedServer.step at taken
  split at taken
  · rename_i first
    split at taken <;> cases taken
    · cases pc
    · exact ⟨rfl, first⟩
  · split at taken <;> cases taken <;> cases pc
  · split at taken <;> cases taken <;> cases pc
  · cases taken
    cases pc
  · rename_i waiting
    split at taken <;> cases taken
    · cases pc
    · simp [waiting] at pc
  · split at taken <;> cases taken <;> cases pc
  · cases taken

theorem untouched_initial : Untouched size leftover (initial leftover) := by
  constructor
  · exact fun _ => rfl
  · intro made
    cases made
  · exact fun _ _ => rfl

theorem untouched_step (untouched : Untouched size leftover pair)
    (taken : (fileMachine size count).step pair peer = some next) :
    Untouched size leftover next := by
  cases peer with
  | client =>
      obtain ⟨file, client, moved, rfl⟩ := Duo.step_client.mp taken
      obtain ⟨length, memory, started⟩ := client_file moved
      refine ⟨?_, ?_, ?_⟩
      · rw [length]
        exact untouched.length
      · rw [length]
        exact untouched.space
      · intro fresh pc
        rw [memory fresh]
        refine untouched.guard ?_ pc
        by_cases before : pair.client.started = true
        · rw [started before] at fresh
          cases fresh
        · simpa using before
  | server =>
      obtain ⟨file, server, moved, rfl⟩ := Duo.step_server.mp taken
      cases place : pair.server with
      | opening =>
          simp only [FileServer.step, place] at moved
          split at moved <;> cases moved
          · exact ⟨fun _ => untouched.length (by rw [place]; rfl), (fun made => by cases made),
              fun fresh _ => untouched.guard fresh (by rw [place]; rfl)⟩
          · exact ⟨fun _ => untouched.length (by rw [place]; rfl), (fun made => by cases made),
              fun fresh _ => untouched.guard fresh (by rw [place]; rfl)⟩
      | makingSpace =>
          simp only [FileServer.step, place] at moved
          cases moved
          refine ⟨fun made => (by cases made), fun _ => Nat.le_max_right _ _, ?_⟩
          intro fresh _
          have other := untouched.guard fresh (by rw [place]; rfl)
          simpa [SharedFile.makeSpace] using other
      | mapping =>
          simp only [FileServer.step, place] at moved
          cases moved
          exact ⟨fun made => (by cases made), fun _ => untouched.space (by rw [place]; rfl),
            fun fresh _ => untouched.guard fresh (by rw [place]; rfl)⟩
      | running server =>
          simp only [FileServer.step, place] at moved
          split at moved
          · obtain ⟨⟨memory, after⟩, stepped, same⟩ := Option.map_eq_some_iff.mp moved
            cases same
            refine ⟨fun made => (by cases made), fun _ => untouched.space (by rw [place]; rfl), ?_⟩
            intro fresh pc
            obtain ⟨same, first⟩ := server_guard stepped pc
            simp only [same]
            exact untouched.guard fresh (by rw [place]; exact first)
          · cases moved
            exact ⟨fun made => (by cases made), fun _ => untouched.space (by rw [place]; rfl),
              fun fresh pc => untouched.guard fresh (by rw [place]; exact pc)⟩
      | alone => simp [FileServer.step, place] at moved
      | killed server => simp [FileServer.step, place] at moved

theorem untouched (run : Run (fileMachine size count) (initial leftover) trace pair) :
    Untouched size leftover pair :=
  run.stateInvariant (Untouched size leftover) untouched_initial
    fun _ _ _ held taken => untouched_step held taken

theorem waitsFirst_pc {server : FileServer} (first : server.waitsFirst = true) :
    server.loop.pc = .start := by
  cases server with
  | running server => simpa [FileServer.waitsFirst, FileServer.loop] using first
  | _ => cases first

theorem called_iff (untouched : Untouched size leftover pair)
    (fresh : pair.client.started = false) (pc : pair.server.loop.pc = .start) :
    serverWait pair.shared.memory = true ↔ (leftover.getD []).head? = some 's' := by
  have guard := untouched.guard fresh pc
  simp only [serverWait, guardIs, guard, decide_eq_true_eq]
  cases leftover.getD [] with
  | nil => simp
  | cons byte rest => simp

/-- Whether a step finds what it should is decided by what was left behind and by who has
already done what. -/
theorem findsReady_iff (untouched : Untouched size leftover pair) :
    pair.FindsReady peer ↔ pair.Orderly leftover peer := by
  cases peer with
  | client =>
      apply imp_congr_right
      intro _
      by_cases made : pair.server.madeSpace = true
      · have := untouched.space made
        simp only [made, or_true, iff_true]
        omega
      · rw [untouched.length (by simpa using made), List.length_pos_iff]
        simp [made]
  | server =>
      apply imp_congr_right
      intro first
      by_cases started : pair.client.started = true
      · simp [started]
      · rw [called_iff untouched (by simpa using started) (waitsFirst_pc first)]
        simp [started]

structure Ready (size count : Nat) (pair : FilePair) : Prop where
  placed : ∃ done, (mmap size count).Placed done (pair.mapped size count)
  client_alive : ∀ client, pair.client ≠ .killed client
  server_alive : pair.server ≠ .alone ∧ ∀ server, pair.server ≠ .killed server
  started : pair.client.started = true → 0 < pair.shared.length
  finished : ∀ client, pair.client = .removed client → client.pc = .finished
  removed : pair.shared.removed = true → pair.server.madeSpace = true

theorem ready_initial : Ready size count (initial leftover) where
  placed := ⟨0, .init _ rfl rfl⟩
  client_alive := fun _ same => by cases same
  server_alive := ⟨fun same => (by cases same), fun _ same => by cases same⟩
  started := fun started => by cases started
  finished := fun _ same => by cases same
  removed := fun removed => by cases removed

theorem Ready.madeSpace (ready : Ready size count pair) (begun : pair.server.loop ≠ .initial) :
    pair.server.madeSpace = true := by
  cases place : pair.server with
  | running server => rfl
  | alone => exact absurd place ready.server_alive.1
  | killed server => exact absurd place (ready.server_alive.2 server)
  | _ => exact absurd (by rw [place]; rfl) begun

theorem Ready.client_backed (ready : Ready size count pair)
    (untouched : Untouched size leftover pair) (orderly : pair.Orderly leftover .client)
    {client : MappedClient} (place : pair.client = .running client) :
    pair.shared.backs (client.address (mmap size count)) = true := by
  have atGuard : 0 < pair.shared.length := by
    by_cases first : client.pc = .init
    · exact (findsReady_iff untouched).mpr orderly (by simp [place, FileClient.storesFirst, first])
    · exact ready.started (by simp [place, FileClient.started, first])
  have inPayload (inside : client.pc.inside = true) : size + 2 ≤ pair.shared.length := by
    obtain ⟨done, placed⟩ := ready.placed
    have waiting : pair.server.loop.pc = .wait :=
      placed.server_of_inside (by simpa [mapped, place, FileClient.loop] using inside)
    refine untouched.space (ready.madeSpace fun same => ?_)
    rw [same] at waiting
    cases waiting
  rw [backs_iff]
  intro address accesses
  rcases client_address accesses with rfl | ⟨inside, below⟩
  · exact atGuard
  · have := inPayload inside
    simp only [mmap] at below
    omega

theorem server_backed {file : SharedFile} (server : MappedServer)
    (space : size + 2 ≤ file.length) :
    file.backs (server.address (mmap size count)) = true := by
  rw [backs_iff]
  intro address accesses
  rcases server_address accesses with rfl | below
  · omega
  · simp only [mmap] at below
    omega

theorem Ready.client_step (ready : Ready size count pair) (counted : 0 < count)
    (untouched : Untouched size leftover pair) (orderly : pair.Orderly leftover .client)
    {file : SharedFile} {client : FileClient}
    (taken : pair.client.step (mmap size count) pair.shared = some (file, client)) :
    Ready size count { pair with shared := file, client := client } := by
  obtain ⟨done, placed⟩ := ready.placed
  cases place : pair.client with
  | opening | mapping =>
      simp only [FileClient.step, place] at taken
      cases taken
      refine ⟨⟨done, by simpa [mapped, place, FileClient.loop] using placed⟩, ?_, ready.server_alive,
        ?_, ?_, ready.removed⟩
      · exact fun _ same => by cases same
      · exact fun started => by cases started
      · exact fun _ same => by cases same
  | running client =>
      simp only [FileClient.step, place] at taken
      split at taken
      · rename_i pc
        cases taken
        have begun : pair.server.loop ≠ .initial :=
          placed.server_of_finished (by simpa [mapped, place, FileClient.loop] using pc) counted
        have made := ready.madeSpace begun
        have space := untouched.space made
        refine ⟨⟨done, by simpa [mapped, place, FileClient.loop] using placed⟩, ?_,
          ready.server_alive, ?_, ?_, fun _ => made⟩
        · exact fun _ same => by cases same
        · exact fun _ => by simp only; omega
        · exact fun _ same => by cases same; exact pc
      · rw [if_pos (ready.client_backed untouched orderly place)] at taken
        obtain ⟨⟨memory, moved⟩, stepped, same⟩ := Option.map_eq_some_iff.mp taken
        cases same
        have inLoop : (pair.mapped size count).client.step (mmap size count)
            (pair.mapped size count).shared = some (memory, moved) := by
          simpa [mapped, place, FileClient.loop] using stepped
        refine ⟨⟨_, (placed.client_step inLoop).2⟩, ?_, ready.server_alive, ?_, ?_, ready.removed⟩
        · exact fun _ same => by cases same
        · intro _
          by_cases first : client.pc = .init
          · exact (findsReady_iff untouched).mpr orderly
              (by simp [place, FileClient.storesFirst, first])
          · exact ready.started (by simp [place, FileClient.started, first])
        · exact fun _ same => by cases same
  | removed client => simp [FileClient.step, place] at taken
  | killed client => exact absurd place (ready.client_alive client)

theorem Ready.not_started (ready : Ready size count pair)
    (pc : (pair.client.loop (mmap size count)).pc = .init) : pair.client.started = false := by
  cases place : pair.client with
  | opening => rfl
  | mapping => rfl
  | running client =>
      rw [place] at pc
      simpa [FileClient.started, FileClient.loop] using pc
  | removed client =>
      rw [place] at pc
      cases (ready.finished client place).symm.trans pc
  | killed client => exact absurd place (ready.client_alive client)

theorem Ready.server_step (ready : Ready size count pair)
    (untouched : Untouched size leftover pair) (orderly : pair.Orderly leftover .server)
    {file : SharedFile} {server : FileServer}
    (taken : pair.server.step (mmap size count) pair.shared = some (file, server)) :
    Ready size count { pair with shared := file, server := server } := by
  obtain ⟨done, placed⟩ := ready.placed
  cases place : pair.server with
  | opening =>
      simp only [FileServer.step, place] at taken
      split at taken
      · rename_i removed
        have made := ready.removed removed
        rw [place] at made
        cases made
      · rename_i removed
        cases taken
        refine ⟨⟨done, by simpa [mapped, place, FileServer.loop] using placed⟩, ready.client_alive,
          ?_, ready.started, ready.finished, fun gone => absurd gone removed⟩
        exact ⟨fun same => (by cases same), fun _ same => by cases same⟩
  | makingSpace =>
      simp only [FileServer.step, place] at taken
      cases taken
      have begun : pair.server.loop = .initial := by rw [place]; rfl
      have guard : (pair.shared.makeSpace (mmap size count).size).memory 0 =
          (pair.mapped size count).shared 0 := by simp [SharedFile.makeSpace, mapped]
      have extended := placed.with_memory begun guard
      refine ⟨⟨done, by simpa [mapped, place, FileServer.loop] using extended⟩, ready.client_alive,
        ?_, ?_, ready.finished, fun _ => rfl⟩
      · exact ⟨fun same => (by cases same), fun _ same => by cases same⟩
      · intro started
        have := ready.started started
        simp only [SharedFile.makeSpace]
        omega
  | mapping =>
      simp only [FileServer.step, place] at taken
      cases taken
      refine ⟨⟨done, by simpa [mapped, place, FileServer.loop] using placed⟩, ready.client_alive,
        ?_, ready.started, ready.finished, fun _ => rfl⟩
      exact ⟨fun same => (by cases same), fun _ same => by cases same⟩
  | running server =>
      simp only [FileServer.step, place] at taken
      have made : pair.server.madeSpace = true := by rw [place]; rfl
      rw [if_pos (server_backed server (untouched.space made))] at taken
      obtain ⟨⟨memory, moved⟩, stepped, same⟩ := Option.map_eq_some_iff.mp taken
      cases same
      have inLoop : (pair.mapped size count).server.step (mmap size count)
          (pair.mapped size count).shared = some (memory, moved) := by
        simpa [mapped, place, FileServer.loop] using stepped
      refine ⟨⟨_, (placed.server_step ?_ inLoop).2⟩, ready.client_alive, ?_, ready.started,
        ready.finished, fun _ => rfl⟩
      · -- The server is at its first wait too, and must not see what was left behind.
        intro pc called
        have begun : pair.server.loop = .initial := placed.start pc
        have first : pair.server.waitsFirst = true := by
          rw [place] at begun ⊢
          simp only [FileServer.loop] at begun
          simp [FileServer.waitsFirst, begun, MappedServer.initial]
        have started := (findsReady_iff untouched).mpr orderly first
          (by simpa [serverWait, guardIs, mapped] using called)
        rw [ready.not_started pc] at started
        cases started
      · exact ⟨fun same => (by cases same), fun _ same => by cases same⟩
  | alone => exact absurd place ready.server_alive.1
  | killed server => exact absurd place (ready.server_alive.2 server)

theorem ready (counted : 0 < count) (run : Run (fileMachine size count) (initial leftover) trace pair)
    (orderly : ∀ entry ∈ trace, entry.1.Orderly leftover entry.2) : Ready size count pair := by
  induction run with
  | start => exact ready_initial
  | step before taken ih =>
      rename_i trace pair peer next
      have held := ih fun entry member => orderly entry (List.mem_append_left _ member)
      have last := orderly (pair, peer) (by simp)
      cases peer with
      | client =>
          obtain ⟨file, client, moved, rfl⟩ := Duo.step_client.mp taken
          exact held.client_step counted (untouched before) last moved
      | server =>
          obtain ⟨file, server, moved, rfl⟩ := Duo.step_server.mp taken
          exact held.server_step (untouched before) last moved

theorem Ready.safe (ready : Ready size count pair)
    (finds : ∀ entry ∈ trace, entry.1.FindsReady entry.2) : Safe size count trace pair := by
  obtain ⟨done, placed⟩ := ready.placed
  refine ⟨finds, ready.client_alive, ready.server_alive, placed.message_le, ?_,
    placed.server_complete, placed.not_spins⟩
  intro pc
  have whole : (pair.client.loop (mmap size count)).count = 0 := placed.client_complete pc
  rw [processed, whole, Nat.sub_zero]

/-- Whatever was left behind and whatever the order of steps: a run starts safely and its
rounds are answered exactly when its steps do not depend on what was left behind. -/
theorem starts_safely_iff (counted : 0 < count)
    (run : Run (fileMachine size count) (initial leftover) trace pair) :
    Safe size count trace pair ↔ ∀ entry ∈ trace, entry.1.Orderly leftover entry.2 := by
  constructor
  · intro safe entry member
    obtain ⟨earlier, reached⟩ := run.reached entry member
    exact (findsReady_iff (untouched reached)).mp (safe.ready entry member)
  · intro orderly
    refine (ready counted run orderly).safe fun entry member => ?_
    obtain ⟨earlier, reached⟩ := run.reached entry member
    exact (findsReady_iff (untouched reached)).mpr (orderly entry member)

instance (leftover : Option (List Char)) (pair : FilePair) (peer : Peer) :
    Decidable (pair.Orderly leftover peer) :=
  match peer with
  | .client => inferInstanceAs (Decidable (_ → _))
  | .server => inferInstanceAs (Decidable (_ → _))

/-- No earlier file, and a server that has made space before the client stores. -/
theorem starts_safely_iff_absent : ∃ trace pair,
    Run (fileMachine 1 1) (initial none) trace pair ∧
    (pair.client.loop (mmap 1 1)).pc = .finished ∧ Safe 1 1 trace pair := by
  obtain ⟨trace, pair, run, reached⟩ := exists_run_of_execute
    (fileMachine 1 1) (initial none)
    [.client, .server, .client, .server, .server, .client, .server, .server, .server, .server,
      .server, .client, .client, .client, .client, .client, .client, .client, .client]
    (fun result => decide (∀ entry ∈ result.1, entry.1.Orderly none entry.2) &&
      decide ((result.2.client.loop (mmap 1 1)).pc = .finished))
    (by decide)
  simp only [Bool.and_eq_true, decide_eq_true_eq] at reached
  exact ⟨trace, pair, run, reached.2, (starts_safely_iff (by decide) run).mpr reached.1⟩

/-- After a run that was killed with the guard at 's' the server takes the client's first
store for an answer to a message that nobody has read. -/
theorem stale_guard_answers : ∃ trace pair,
    Run (fileMachine 1 1) (initial (some ['s'])) trace pair ∧ ¬Safe 1 1 trace pair := by
  obtain ⟨trace, pair, run, reached⟩ := exists_run_of_execute
    (fileMachine 1 1) (initial (some ['s']))
    [.server, .server, .server, .server, .server, .server, .server, .server,
      .client, .client, .client, .server, .server, .server]
    (fun result => decide (result.2.processed 1 1 < result.2.answered))
    (by decide)
  refine ⟨trace, pair, run, fun safe => ?_⟩
  have := safe.answered
  simp only [decide_eq_true_eq] at reached
  omega

end FilePair

end IpcBench
