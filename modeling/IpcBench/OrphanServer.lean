import IpcBench.Orphan

/-!
A server without its client: it comes to its end exactly if it holds bytes to send
back, or will when it has read what was delivered, or has sent all it has to.
-/

namespace IpcBench

open Words Transition

variable {Byte : Type} {config : Config} {transport : Transport}

namespace ServerPc

def rank : ServerPc → Nat
  | .exit => 0
  | .loop => 1
  | .writeDone _ => 2
  | .writing _ => 3
  | .write _ _ => 4
  | .readDone _ _ => 5
  | .reading _ _ => 6
  | .read _ _ => 7
  | .poll => 8

def willRead : ServerPc → Bool
  | .poll => true
  | .read canRead _ => canRead
  | .reading _ _ => true
  | _ => false

end ServerPc

namespace Server

def isReading (server : Server Byte) : Bool :=
  match server.pc with
  | .reading _ _ => true
  | _ => false

def mayWrite (server : Server Byte) : Bool :=
  match server.pc with
  | .poll => server.pollsWrite
  | .read _ canWrite => canWrite
  | .reading canWrite _ => canWrite
  | .readDone canWrite _ => canWrite
  | .write canWrite _ => canWrite
  | .writing _ => true
  | _ => false

def Over (config : Config) (server : Server Byte) : Prop :=
  server.quit = true ∨ config.total ≤ server.totalBytesWritten + server.pc.pushed

def Loaded (server : Server Byte) : Prop :=
  (server.pc.pushed : Int) < server.outstandingBytes + server.pc.fetched

def Soon (delivered : Nat) (server : Server Byte) : Prop :=
  server.Loaded ∨ (server.pc.willRead = true ∧ 0 < delivered)

def Decided (delivered : Nat) (server : Server Byte) : Prop :=
  server.mayWrite = true ∧ server.Soon delivered

noncomputable def orphanMeasure (config : Config) (delivered : Nat) (server : Server Byte) : Nat :=
  12 * stage (server.Over config) (server.Decided delivered) (server.Soon delivered) +
    server.pc.rank + delivered

variable {received sent : Nat} {server next : Server Byte} {action : Action Byte}

theorem Balanced.over_iff (balanced : Balanced config transport received sent server) :
    server.Over config ↔ server.quit = true ∨ config.total ≤ sent := by
  have written := balanced.written
  unfold Over
  constructor
  · rintro (quit | reached)
    · exact Or.inl quit
    · exact Or.inr (by omega)
  · rintro (quit | reached)
    · exact Or.inl quit
    · exact Or.inr (by omega)

theorem Balanced.loaded_iff (balanced : Balanced config transport received sent server) :
    server.Loaded ↔ sent < received := by
  have holding := balanced.holding
  have pushed := balanced.pushed
  unfold Loaded
  omega

theorem Step.quit_mono (taken : Step transport config.arguments server action next)
    (quit : server.quit = true) : next.quit = true := by
  by_cases calm : action.undisturbed = true
  · exact (taken.quit_eq calm).trans quit
  · cases taken with
    | signal => rfl
    | sendBroken transfer pc => rfl
    | pollFailed ready pc failed => exact quit
    | _ => exact absurd rfl calm

theorem Step.running {args : Arguments} (taken : Step transport args server action next)
    (signal : action ≠ .signal) : server.pc ≠ .exit := by
  intro exit
  cases taken with
  | signal => exact signal rfl
  | enter time pc | finish time pc | pollFailed ready pc | polled canRead writable pc
  | skipRead time canRead canWrite pc | readNothing time canWrite pc | startRead time canWrite pc
  | recvSome data canWrite transfer pc | recvLast data canWrite transfer pc
  | recvStop canWrite transfer pc | accountRead time canWrite info pc
  | skipWrite time canWrite toWrite pc | writeNothing time pc | startWrite time toWrite pc
  | sendSome amount transfer pc | sendLast amount transfer pc | sendStop transfer pc
  | sendBroken transfer pc | accountWrite time info pc => simp [exit] at pc

section Steps

variable {orphan : Orphan (Server Byte) Byte} {left : Nat}

theorem Step.soon (taken : Step transport config.arguments orphan.process action next)
    (before : Balanced config transport received sent orphan.process)
    (after : Balanced config transport (received + action.received) sent next)
    (allows : Orphan.Allows isReading orphan action)
    (used : left + action.received = orphan.delivered.length)
    (soon : orphan.process.Soon orphan.delivered.length) :
    next.Over config ∨ next.Soon left := by
  have windowPos := config.window_pos
  have ordered := before.sent_le
  have loaded : orphan.process.Loaded → next.Loaded := by
    rw [before.loaded_iff, after.loaded_iff]
    omega
  have fresh : 0 < action.received → next.Loaded := by
    rw [after.loaded_iff]
    omega
  rcases soon with holds | ⟨willRead, bytes⟩
  · exact Or.inr (Or.inl (loaded holds))
  · cases taken with
    | signal => exact absurd rfl allows.signal
    | pollFailed ready pc failed =>
        rcases failed with none | quit
        · exact absurd (congrArg Action.poll none) allows.failed
        · exact Or.inl (Or.inl quit)
    | polled canRead writable pc running =>
        have kept : left = orphan.delivered.length := used
        exact Or.inr (Or.inr ⟨allows.readable canRead writable rfl bytes, by omega⟩)
    | skipRead time canRead canWrite pc skipped =>
        simp only [pc, ServerPc.willRead] at willRead
        rcases skipped with noRead | quit
        · simp [willRead] at noRead
        · exact Or.inl (Or.inl quit)
    | readNothing time canWrite pc running empty =>
        rw [before.toRead_eq] at empty
        omega
    | startRead time canWrite pc running nonempty =>
        have kept : left = orphan.delivered.length := used
        exact Or.inr (Or.inr ⟨rfl, by omega⟩)
    | recvSome data canWrite transfer pc nonempty | recvLast data canWrite transfer pc nonempty =>
        exact Or.inr (Or.inl (fresh nonempty))
    | recvStop canWrite transfer pc =>
        have ended := (allows.stop rfl).2
        omega
    | enter time pc | finish time pc | accountRead time canWrite info pc
    | skipWrite time canWrite toWrite pc | writeNothing time pc | startWrite time toWrite pc
    | sendSome amount transfer pc | sendLast amount transfer pc | sendStop transfer pc
    | sendBroken transfer pc | accountWrite time info pc =>
        simp [pc, ServerPc.willRead] at willRead

theorem Step.mayWrite (taken : Step transport config.arguments orphan.process action next)
    (before : Balanced config transport received sent orphan.process)
    (allows : Orphan.Allows isReading orphan action)
    (decided : orphan.process.Decided orphan.delivered.length) :
    next.Over config ∨ next.mayWrite = true := by
  obtain ⟨mayWrite, soon⟩ := decided
  unfold Server.mayWrite at mayWrite
  cases taken with
  | signal => exact absurd rfl allows.signal
  | enter time pc | finish time pc | accountWrite time info pc => simp [pc] at mayWrite
  | pollFailed ready pc failed =>
      rcases failed with none | quit
      · exact absurd (congrArg Action.poll none) allows.failed
      · exact Or.inl (Or.inl quit)
  | polled canRead writable pc running =>
      simp only [pc] at mayWrite
      have reported := allows.writable canRead writable rfl
      refine Or.inr ?_
      cases transport <;>
        simp [Server.mayWrite, goto, writeEvent, mayWrite, reported]
  | skipRead time canRead canWrite pc | readNothing time canWrite pc | startRead time canWrite pc
  | recvSome data canWrite transfer pc | recvLast data canWrite transfer pc
  | recvStop canWrite transfer pc | accountRead time canWrite info pc =>
      simp only [pc] at mayWrite
      exact Or.inr mayWrite
  | skipWrite time canWrite toWrite pc skipped =>
      simp only [pc] at mayWrite
      rcases skipped with refused | quit
      · simp [mayWrite] at refused
      · exact Or.inl (Or.inl quit)
  | writeNothing time pc running =>
      have helper := before.helper
      simp only [pc, ServerPc.HelperOk] at helper
      simp [Soon, Loaded, pc, ServerPc.willRead, ServerPc.fetched, ServerPc.pushed, ← helper]
        at soon
  | startWrite time toWrite pc running nonempty => exact Or.inr rfl
  | sendSome amount transfer pc | sendLast amount transfer pc =>
      exact absurd rfl (allows.send amount)
  | sendStop transfer pc =>
      have reads := (allows.stop rfl).1
      simp [isReading, pc] at reads
  | sendBroken transfer pc => exact Or.inl (Or.inl rfl)

theorem Step.rank_lt (taken : Step transport config.arguments orphan.process action next)
    (allows : Orphan.Allows isReading orphan action)
    (used : left + action.received = orphan.delivered.length)
    (inside : next.pc ≠ .poll) :
    next.pc.rank + left < orphan.process.pc.rank + orphan.delivered.length := by
  cases taken with
  | signal => exact absurd rfl allows.signal
  | enter time pc => exact absurd rfl inside
  | sendSome amount transfer pc | sendLast amount transfer pc =>
      exact absurd rfl (allows.send amount)
  | finish time pc | pollFailed ready pc | polled canRead writable pc
  | skipRead time canRead canWrite pc | readNothing time canWrite pc
  | startRead time canWrite pc | recvSome data canWrite transfer pc
  | recvLast data canWrite transfer pc | recvStop canWrite transfer pc
  | accountRead time canWrite info pc | skipWrite time canWrite toWrite pc
  | writeNothing time pc | startWrite time toWrite pc | sendStop transfer pc
  | sendBroken transfer pc | accountWrite time info pc =>
      simp only [pc, goto, leave, ServerPc.rank, Action.received] at used ⊢
      omega

theorem Step.alive (taken : Step transport config.arguments orphan.process action next)
    (before : Balanced config transport received sent orphan.process)
    (after : Balanced config transport (received + action.received) sent next)
    (used : left + action.received = orphan.delivered.length)
    (alive : orphan.process.Over config ∨ orphan.process.Loaded ∨
      0 < orphan.delivered.length) :
    next.Over config ∨ next.Loaded ∨ 0 < left := by
  have ordered := before.sent_le
  rw [before.over_iff, before.loaded_iff] at alive
  rw [after.over_iff, after.loaded_iff]
  rcases alive with (quit | reached) | holds | bytes
  · exact Or.inl (Or.inl (taken.quit_mono quit))
  · exact Or.inl (Or.inr reached)
  · exact Or.inr (Or.inl (by omega))
  · omega

theorem Balanced.not_over (before : Balanced config transport received sent server)
    (pc : server.pc = .loop) (more : server.totalBytesWritten < ssizeT config.arguments.maxBytes)
    (running : server.quit = false) : ¬server.Over config := by
  have written := before.written
  simp only [pc, ServerPc.pushed] at written
  rw [Config.maxBytes_eq, Config.ssizeT_total] at more
  rw [before.over_iff, running]
  simp only [Bool.false_eq_true, false_or]
  omega

/-- Entering the body: a server that holds bytes polls its write side, one that holds none
will read what was delivered. -/
theorem Balanced.enter_stage (before : Balanced config transport received sent server)
    (time : Nat) (pc : server.pc = .loop)
    (more : server.totalBytesWritten < ssizeT config.arguments.maxBytes)
    (running : server.quit = false) (alive : server.Loaded ∨ 0 < left) :
    let entered := { server with endTime := time }.goto .poll
    stage (entered.Over config) (entered.Decided left) (entered.Soon left) <
      stage (server.Over config) (server.Decided left) (server.Soon left) := by
  intro entered
  have notOver := before.not_over pc more running
  have notDecided : ¬server.Decided left := by
    simp [Decided, Server.mayWrite, pc]
  by_cases holds : server.Loaded
  · simp only [Loaded, pc, ServerPc.fetched, ServerPc.pushed] at holds
    have registered : server.pollsWrite = true := by
      have balance := before.balance
      have nonneg := before.writtenNonneg
      exact before.registered (by omega)
    have still : entered.Loaded := holds
    have decided : entered.Decided left := ⟨registered, Or.inl still⟩
    exact Nat.lt_of_le_of_lt (stage_le_one (Or.inr decided)) (two_le_stage notOver notDecided)
  · have notSoon : ¬server.Soon left := by
      simp [Soon, holds, pc, ServerPc.willRead]
    have soon : entered.Soon left := Or.inr ⟨rfl, alive.resolve_left holds⟩
    rw [stage_eq_three notOver notDecided notSoon]
    exact Nat.lt_of_le_of_lt (stage_le_two (Or.inr (Or.inr soon))) (Nat.lt_succ_self 2)

theorem Step.orphan_lowers (taken : Step transport config.arguments orphan.process action next)
    (before : Balanced config transport received sent orphan.process)
    (after : Balanced config transport (received + action.received) sent next)
    (allows : Orphan.Allows isReading orphan action)
    (used : left + action.received = orphan.delivered.length)
    (alive : orphan.process.Over config ∨ orphan.process.Loaded ∨
      0 < orphan.delivered.length) :
    next.orphanMeasure config left <
      orphan.process.orphanMeasure config orphan.delivered.length := by
  unfold orphanMeasure
  by_cases entered : next.pc = .poll
  · cases taken with
    | signal => exact absurd rfl allows.signal
    | enter time pc more running =>
        have notOver := before.not_over pc more running
        have lower := before.enter_stage time pc more running (alive.resolve_left notOver)
        have kept : left = orphan.delivered.length := used
        subst kept
        simp only [pc, goto, ServerPc.rank] at lower ⊢
        omega
    | _ => simp [goto, leave] at entered
  · have rank := taken.rank_lt allows used entered
    have isOver : orphan.process.Over config → next.Over config := by
      rw [before.over_iff, after.over_iff]
      rintro (quit | reached)
      · exact Or.inl (taken.quit_mono quit)
      · exact Or.inr reached
    have soon := taken.soon before after allows used
    have decided : orphan.process.Decided orphan.delivered.length →
        next.Over config ∨ next.Decided left := by
      intro decided
      rcases taken.mayWrite before allows decided with isOver | writes
      · exact Or.inl isOver
      · exact (soon decided.2).imp_right fun reads => ⟨writes, reads⟩
    have stages := stage_le isOver decided fun reads => (soon reads).imp_right Or.inr
    omega

theorem Step.orphan_waits (taken : Step transport config.arguments orphan.process action next)
    (before : Balanced config transport received sent orphan.process)
    (after : Balanced config transport (received + action.received) sent next)
    (allows : Orphan.Allows isReading orphan action)
    (used : left + action.received = orphan.delivered.length)
    (running : orphan.process.pc ≠ .exit) (notOver : ¬orphan.process.Over config)
    (holdsNone : ¬orphan.process.Loaded) (empty : orphan.delivered.length = 0) :
    next.pc ≠ .exit ∧ ¬next.Over config ∧ ¬next.Loaded ∧ left = 0 := by
  have received : action.received = 0 := by omega
  have calm : action.undisturbed = true := by
    cases taken with
    | signal => exact absurd rfl allows.signal
    | pollFailed ready pc failed =>
        rcases failed with none | quit
        · exact absurd (congrArg Action.poll none) allows.failed
        · exact absurd (Or.inl quit) notOver
    | sendBroken transfer pc =>
        have helper := before.helper
        simp only [Loaded, pc, ServerPc.HelperOk, ServerPc.pushed, ServerPc.fetched]
          at helper holdsNone
        omega
    | _ => rfl
  have quit := taken.quit_eq calm
  have written := before.written
  rw [before.over_iff, not_or] at notOver
  rw [before.loaded_iff] at holdsNone
  rw [after.over_iff, after.loaded_iff, received, Nat.add_zero, quit, not_or]
  refine ⟨?_, notOver, holdsNone, by omega⟩
  intro exit
  have stays : orphan.process.quit = false := by simpa using notOver.1
  obtain ⟨already | reached, _⟩ := taken.exit_inv calm stays exit
  · exact running already
  · rw [Config.maxBytes_eq, Config.ssizeT_total] at reached
    omega

theorem Balanced.orphan_step (before : Balanced config transport received sent orphan.process)
    (window : received + orphan.delivered.length ≤ sent + config.window)
    (taken : Step transport config.arguments orphan.process action next)
    (allows : Orphan.Allows isReading orphan action)
    (used : left + action.received = orphan.delivered.length) :
    Balanced config transport (received + action.received) sent next ∧
      received + action.received + left ≤ sent + config.window := by
  refine ⟨?_, by omega⟩
  have after := before.step taken (by omega)
  cases action with
  | send amount => exact absurd rfl (allows.send amount)
  | _ => exact after

end Steps

section Ends

variable [DecidableEq Byte] {orphan : Orphan (Server Byte) Byte}

def orphanMachine (transport : Transport) (args : Arguments) :
    Machine (Orphan (Server Byte) Byte) (Action Byte) :=
  Orphan.machine (Server.step transport args) isReading

theorem Balanced.orphan_goes
    (balanced : Balanced config transport received sent orphan.process) :
    orphan.process.pc = .exit ∨ ∃ action next,
      orphan.step (Server.step transport config.arguments) isReading action = some next := by
  have helper := balanced.helper
  cases pc : orphan.process.pc with
  | exit => exact Or.inl rfl
  | poll => exact Or.inr (Orphan.takes_poll (by simp [Server.step, pc]))
  | reading canWrite transfer =>
      simp only [pc, ServerPc.HelperOk] at helper
      have asks : 0 < transfer.request config.arguments.reqSize :=
        Transfer.request_pos (by rw [Config.reqSize_eq]; exact config.size_pos) helper.2
      refine Or.inr (Orphan.takes_read (by simp [isReading, pc]) (by simp [Server.step, pc]) ?_)
      intro byte
      simp only [Server.step, pc, List.length_singleton]
      rw [if_pos ⟨Nat.one_pos, asks⟩]
      rfl
  | writing transfer => exact Or.inr (Orphan.takes_broken (by simp [Server.step, pc]))
  | loop | read canRead canWrite | readDone canWrite info | write canWrite toWrite
  | writeDone info =>
      have moves : (Server.step transport config.arguments orphan.process (.advance 0)).isSome := by
        simp only [Server.step, advance, pc]
        (repeat' split) <;> rfl
      exact Or.inr (Orphan.takes_advance moves)

theorem Balanced.orphan_ends_iff
    (balanced : Balanced config transport received sent orphan.process)
    (window : received + orphan.delivered.length ≤ sent + config.window) :
    (orphanMachine transport config.arguments).Ends orphan
        (fun orphan => orphan.process.pc = .exit) ↔
      orphan.process.pc = .exit ∨ orphan.process.Over config ∨ orphan.process.Loaded ∨
        0 < orphan.delivered.length := by
  refine ends_iff_of_alive
    (fun later : Orphan (Server Byte) Byte => ∃ received sent,
      Balanced config transport received sent later.process ∧
        received + later.delivered.length ≤ sent + config.window)
    (fun later => later.process.Over config ∨ later.process.Loaded ∨ 0 < later.delivered.length)
    (fun later => later.process.orphanMeasure config later.delivered.length)
    ⟨received, sent, balanced, window⟩ ?_ ?_ ?_ ?_
  · rintro later ⟨received, sent, balanced, _⟩
    exact balanced.orphan_goes
  · rintro later action next ⟨received, sent, balanced, window⟩ taken
    obtain ⟨allows, stepped, used⟩ := Orphan.step_inv taken
    have own := step_inv stepped
    exact ⟨own.running allows.signal, _, _, balanced.orphan_step window own allows used⟩
  · rintro later action next ⟨received, sent, balanced, window⟩ taken alive
    obtain ⟨allows, stepped, used⟩ := Orphan.step_inv taken
    have own := step_inv stepped
    have after := (balanced.orphan_step window own allows used).1
    exact ⟨own.alive balanced after used alive,
      own.orphan_lowers balanced after allows used alive⟩
  · rintro later action next ⟨received, sent, balanced, window⟩ taken waiting
    simp only [not_or] at waiting ⊢
    obtain ⟨notOver, holdsNone, empty⟩ := waiting
    obtain ⟨allows, stepped, used⟩ := Orphan.step_inv taken
    have own := step_inv stepped
    have after := (balanced.orphan_step window own allows used).1
    obtain ⟨running, notOver, holdsNone, none⟩ := own.orphan_waits balanced after allows used
      (own.running allows.signal) notOver holdsNone (by omega)
    exact ⟨running, notOver, holdsNone, by omega⟩

end Ends

end Server

end IpcBench
