import IpcBench.Orphan

/-!
A client without its server: it comes to its end exactly if it has room to write, or
will have when it has read what was delivered, or has read all it wants.
-/

namespace IpcBench

open Words Transition

variable {Byte : Type} {config : Config}

namespace ClientPc

def rank : ClientPc → Nat
  | .exit => 0
  | .loop => 1
  | .writeDone _ => 2
  | .writing _ => 3
  | .write _ => 4
  | .stamp _ => 5
  | .readDone _ _ => 6
  | .reading _ _ => 7
  | .read _ _ => 8
  | .poll => 9

def mayWrite : ClientPc → Bool
  | .poll => true
  | .read _ canWrite => canWrite
  | .reading canWrite _ => canWrite
  | .readDone canWrite _ => canWrite
  | .stamp canWrite => canWrite
  | .write canWrite => canWrite
  | .writing _ => true
  | _ => false

def willRead : ClientPc → Bool
  | .poll => true
  | .read canRead _ => canRead
  | .reading _ _ => true
  | _ => false

end ClientPc

namespace Client

def isReading (client : Client Byte) : Bool :=
  match client.pc with
  | .reading _ _ => true
  | _ => false

def Over (config : Config) (client : Client Byte) : Prop :=
  client.quit = true ∨ config.total ≤ client.totalBytesRead + client.pc.fetched

def Short (config : Config) (client : Client Byte) : Prop :=
  client.outstandingBytes + client.pc.pushed < config.window + client.pc.fetched

def Decided (config : Config) (delivered : Nat) (client : Client Byte) : Prop :=
  client.pc.mayWrite = true ∧
    (client.Short config ∨ (client.pc.willRead = true ∧ 0 < delivered))

noncomputable def orphanMeasure (config : Config) (delivered : Nat) (client : Client Byte) : Nat :=
  12 * stage (client.Over config) (client.Decided config delivered) True + client.pc.rank +
    delivered

variable {received sent : Nat} {client next : Client Byte} {action : Action Byte}

theorem Balanced.over_iff (balanced : Balanced config received sent client) :
    client.Over config ↔ client.quit = true ∨ config.total ≤ received := by
  have read := balanced.read
  unfold Over
  constructor
  · rintro (quit | reached)
    · exact Or.inl quit
    · exact Or.inr (by omega)
  · rintro (quit | reached)
    · exact Or.inl quit
    · exact Or.inr (by omega)

theorem Balanced.short_iff (balanced : Balanced config received sent client) :
    client.Short config ↔ sent < received + config.window := by
  have balance := balanced.balance
  unfold Short
  omega

theorem Step.quit_mono (taken : Step config.arguments client action next)
    (quit : client.quit = true) : next.quit = true := by
  cases taken with
  | signal => rfl
  | sendBroken transfer pc => rfl
  | stamp time canWrite pc => simpa [goto] using quit
  | _ => exact quit

theorem Step.short (after : Balanced config (received + action.received) sent next)
    (before : Balanced config received sent client) (some : 0 < action.received) :
    next.Short config := by
  have balance := before.balance
  have window := before.window
  have fetched := before.fetched
  rw [after.short_iff]
  omega

section Steps

variable {orphan : Orphan (Client Byte) Byte} {left : Nat}

theorem Step.decided (taken : Step config.arguments orphan.process action next)
    (before : Balanced config received sent orphan.process)
    (after : Balanced config (received + action.received) sent next)
    (allows : Orphan.Allows isReading orphan action)
    (used : left + action.received = orphan.delivered.length)
    (decided : orphan.process.Decided config orphan.delivered.length) :
    next.Over config ∨ next.Decided config left := by
  obtain ⟨mayWrite, room⟩ := decided
  have short : orphan.process.Short config → next.Short config := by
    rw [before.short_iff, after.short_iff]
    omega
  have fresh : 0 < action.received → next.Short config := Step.short after before
  cases taken with
  | signal => exact absurd rfl allows.signal
  | enter time pc | finish time pc | accountWrite time info pc =>
      simp [pc, ClientPc.mayWrite] at mayWrite
  | pollFailed ready pc failed =>
      rcases failed with none | quit
      · exact absurd (congrArg Action.poll none) allows.failed
      · exact Or.inl (Or.inl quit)
  | polled canRead canWrite pc running =>
      refine Or.inr ⟨allows.writable canRead canWrite rfl, ?_⟩
      rcases room with room | ⟨_, bytes⟩
      · exact Or.inl (short room)
      · have kept : left = orphan.delivered.length := used
        exact Or.inr ⟨allows.readable canRead canWrite rfl bytes, by omega⟩
  | skipRead time canRead canWrite pc skipped =>
      rcases skipped with noRead | quit
      · simp only [pc, ClientPc.mayWrite, ClientPc.willRead, noRead, Bool.false_eq_true, false_and,
          or_false] at mayWrite room
        exact Or.inr ⟨mayWrite, Or.inl (short room)⟩
      · exact Or.inl (Or.inl quit)
  | readNothing time canWrite pc running empty =>
      have windowPos := config.window_pos
      simp only [pc, ClientPc.mayWrite] at mayWrite
      refine Or.inr ⟨mayWrite, Or.inl ?_⟩
      simp only [Short, goto, empty, ClientPc.pushed]
      omega
  | startRead time canWrite pc running nonempty =>
      simp only [pc, ClientPc.mayWrite] at mayWrite
      refine Or.inr ⟨mayWrite, ?_⟩
      rcases room with room | ⟨_, bytes⟩
      · exact Or.inl (short room)
      · have kept : left = orphan.delivered.length := used
        exact Or.inr ⟨rfl, by omega⟩
  | recvSome data canWrite transfer pc nonempty | recvLast data canWrite transfer pc nonempty =>
      simp only [pc, ClientPc.mayWrite] at mayWrite
      exact Or.inr ⟨mayWrite, Or.inl (fresh nonempty)⟩
  | recvStop canWrite transfer pc =>
      have ended := (allows.stop rfl).2
      simp only [pc, ClientPc.mayWrite, ended, Nat.lt_irrefl, and_false, or_false]
        at mayWrite room
      exact Or.inr ⟨mayWrite, Or.inl (short room)⟩
  | accountRead time canWrite info pc | stamp time canWrite pc =>
      simp only [pc, ClientPc.mayWrite, ClientPc.willRead, Bool.false_eq_true, false_and,
        or_false] at mayWrite room
      exact Or.inr ⟨mayWrite, Or.inl (short room)⟩
  | skipWrite time canWrite pc skipped =>
      simp only [pc, ClientPc.mayWrite, ClientPc.willRead, Bool.false_eq_true, false_and,
        or_false, Short, ClientPc.pushed, ClientPc.fetched] at mayWrite room
      rw [Config.maxOutstandingBytes_eq] at skipped
      rcases skipped with refused | full | quit
      · simp [mayWrite] at refused
      · omega
      · exact Or.inl (Or.inl quit)
  | startWrite time pc more running =>
      simp only [pc, ClientPc.willRead, Bool.false_eq_true, false_and, or_false] at room
      exact Or.inr ⟨rfl, Or.inl (short room)⟩
  | sendSome amount transfer pc | sendLast amount transfer pc =>
      exact absurd rfl (allows.send amount)
  | sendStop transfer pc =>
      have reads := (allows.stop rfl).1
      simp [isReading, pc] at reads
  | sendBroken transfer pc => exact Or.inl (Or.inl rfl)

theorem Step.rank_lt (taken : Step config.arguments orphan.process action next)
    (allows : Orphan.Allows isReading orphan action)
    (used : left + action.received = orphan.delivered.length)
    (inside : next.pc ≠ .poll) :
    next.pc.rank + left < orphan.process.pc.rank + orphan.delivered.length := by
  cases taken with
  | signal => exact absurd rfl allows.signal
  | enter time pc => exact absurd rfl inside
  | sendSome amount transfer pc | sendLast amount transfer pc =>
      exact absurd rfl (allows.send amount)
  | recvSome data canWrite transfer pc nonempty | recvLast data canWrite transfer pc nonempty =>
      simp only [pc, goto, ClientPc.rank, Action.received] at used ⊢
      omega
  | finish time pc | pollFailed ready pc | polled canRead canWrite pc
  | skipRead time canRead canWrite pc | readNothing time canWrite pc
  | startRead time canWrite pc | recvStop canWrite transfer pc | accountRead time canWrite info pc
  | stamp time canWrite pc | skipWrite time canWrite pc | startWrite time pc
  | sendStop transfer pc | sendBroken transfer pc | accountWrite time info pc =>
      simp only [pc, goto, leave, ClientPc.rank, Action.received] at used ⊢
      omega

theorem Step.alive (taken : Step config.arguments orphan.process action next)
    (before : Balanced config received sent orphan.process)
    (after : Balanced config (received + action.received) sent next)
    (used : left + action.received = orphan.delivered.length)
    (alive : orphan.process.Over config ∨ orphan.process.Short config ∨
      0 < orphan.delivered.length) :
    next.Over config ∨ next.Short config ∨ 0 < left := by
  rcases alive with isOver | short | bytes
  · rw [before.over_iff] at isOver
    refine Or.inl ?_
    rw [after.over_iff]
    rcases isOver with quit | reached
    · exact Or.inl (taken.quit_mono quit)
    · exact Or.inr (by omega)
  · rw [before.short_iff] at short
    refine Or.inr (Or.inl ?_)
    rw [after.short_iff]
    omega
  · by_cases moved : 0 < action.received
    · exact Or.inr (Or.inl (Step.short after before moved))
    · exact Or.inr (Or.inr (by omega))

theorem Step.orphan_lowers (taken : Step config.arguments orphan.process action next)
    (before : Balanced config received sent orphan.process)
    (after : Balanced config (received + action.received) sent next)
    (allows : Orphan.Allows isReading orphan action)
    (used : left + action.received = orphan.delivered.length)
    (alive : orphan.process.Over config ∨ orphan.process.Short config ∨
      0 < orphan.delivered.length) :
    next.orphanMeasure config left <
      orphan.process.orphanMeasure config orphan.delivered.length := by
  unfold orphanMeasure
  by_cases entered : next.pc = .poll
  · cases taken with
    | signal => exact absurd rfl allows.signal
    | enter time pc more running =>
        have notOver : ¬orphan.process.Over config := by
          have read := before.read
          have bound := before.bound
          have totalBound := config.total_lt
          have windowBound := config.window_lt
          simp only [pc, ClientPc.fetched] at read
          rw [Config.maxBytes_eq, sizeT_eq (by omega) (by omega)] at more
          rw [before.over_iff, running]
          simp only [Bool.false_eq_true, false_or]
          omega
        have notDecided : ¬orphan.process.Decided config orphan.delivered.length := by
          simp [Decided, pc, ClientPc.mayWrite]
        have later := Step.alive (.enter time pc more running) before after used alive
        have decided : (orphan.process.goto .poll).Over config ∨
            (orphan.process.goto .poll).Decided config left := by
          rcases later with isOver | short | bytes
          · exact Or.inl isOver
          · exact Or.inr ⟨rfl, Or.inl short⟩
          · exact Or.inr ⟨rfl, Or.inr ⟨rfl, bytes⟩⟩
        have high : 2 ≤ stage (orphan.process.Over config)
            (orphan.process.Decided config orphan.delivered.length) True :=
          two_le_stage notOver notDecided
        have low : stage ((orphan.process.goto .poll).Over config)
            ((orphan.process.goto .poll).Decided config left) True ≤ 1 :=
          stage_le_one decided
        simp only [pc, goto, ClientPc.rank, Action.received] at used low ⊢
        omega
    | _ => simp [goto, leave] at entered
  · have rank := taken.rank_lt allows used entered
    have isOver : orphan.process.Over config → next.Over config := by
      rw [before.over_iff, after.over_iff]
      rintro (quit | reached)
      · exact Or.inl (taken.quit_mono quit)
      · exact Or.inr (by omega)
    have stages := stage_le isOver (taken.decided before after allows used)
      (fun _ : True => Or.inr (Or.inr trivial))
    omega

theorem Balanced.orphan_step (balanced : Balanced config received sent orphan.process)
    (taken : Step config.arguments orphan.process action next)
    (allows : Orphan.Allows isReading orphan action) :
    Balanced config (received + action.received) sent next := by
  have after := balanced.step taken
  cases action with
  | send amount => exact absurd rfl (allows.send amount)
  | _ => exact after

theorem Step.running {args : Arguments} (taken : Step args client action next)
    (signal : action ≠ .signal) : client.pc ≠ .exit := by
  intro exit
  cases taken with
  | signal => exact signal rfl
  | enter time pc | finish time pc | pollFailed ready pc | polled canRead canWrite pc
  | skipRead time canRead canWrite pc | readNothing time canWrite pc | startRead time canWrite pc
  | recvSome data canWrite transfer pc | recvLast data canWrite transfer pc
  | recvStop canWrite transfer pc | accountRead time canWrite info pc | stamp time canWrite pc
  | skipWrite time canWrite pc | startWrite time pc | sendSome amount transfer pc
  | sendLast amount transfer pc | sendStop transfer pc | sendBroken transfer pc
  | accountWrite time info pc => simp [exit] at pc

theorem Step.orphan_waits (taken : Step config.arguments orphan.process action next)
    (before : Balanced config received sent orphan.process)
    (after : Balanced config (received + action.received) sent next)
    (allows : Orphan.Allows isReading orphan action)
    (used : left + action.received = orphan.delivered.length)
    (running : orphan.process.pc ≠ .exit) (notOver : ¬orphan.process.Over config)
    (full : ¬orphan.process.Short config) (empty : orphan.delivered.length = 0) :
    next.pc ≠ .exit ∧ ¬next.Over config ∧ ¬next.Short config ∧ left = 0 := by
  have received : action.received = 0 := by omega
  rw [before.over_iff, not_or] at notOver
  rw [before.short_iff] at full
  rw [after.over_iff, after.short_iff, received, Nat.add_zero]
  have quit : next.quit = orphan.process.quit := by
    refine taken.quit_eq ?_
    cases taken with
    | signal => exact absurd rfl allows.signal
    | pollFailed ready pc failed =>
        rcases failed with none | quit
        · exact absurd (congrArg Action.poll none) allows.failed
        · exact absurd quit notOver.1
    | sendBroken transfer pc =>
        have helper := before.helper
        have balance := before.balance
        simp only [pc, ClientPc.HelperOk, ClientPc.pushed, ClientPc.fetched] at helper balance
        omega
    | _ => rfl
  rw [quit, not_or]
  refine ⟨?_, notOver, full, by omega⟩
  intro exit
  rcases taken.exit_inv before exit with already | reached | quits | failed
  · exact running already
  · have read := before.read
    omega
  · exact notOver.1 quits
  · exact allows.failed failed

end Steps

section Ends

variable [DecidableEq Byte] {orphan : Orphan (Client Byte) Byte}

def orphanMachine (args : Arguments) : Machine (Orphan (Client Byte) Byte) (Action Byte) :=
  Orphan.machine (Client.step args) isReading

theorem Balanced.orphan_goes (balanced : Balanced config received sent orphan.process) :
    orphan.process.pc = .exit ∨
      ∃ action next, orphan.step (Client.step config.arguments) isReading action = some next := by
  have helper := balanced.helper
  cases pc : orphan.process.pc with
  | exit => exact Or.inl rfl
  | poll => exact Or.inr (Orphan.takes_poll (by simp [Client.step, pc]))
  | reading canWrite transfer =>
      simp only [pc, ClientPc.HelperOk] at helper
      have asks : 0 < transfer.request config.arguments.reqSize :=
        Transfer.request_pos (by rw [Config.reqSize_eq]; exact config.size_pos) helper.2
      refine Or.inr (Orphan.takes_read (by simp [isReading, pc]) (by simp [Client.step, pc]) ?_)
      intro byte
      simp only [Client.step, pc, List.length_singleton]
      rw [if_pos ⟨Nat.one_pos, asks⟩]
      rfl
  | writing transfer => exact Or.inr (Orphan.takes_broken (by simp [Client.step, pc]))
  | loop | read canRead canWrite | readDone canWrite info | stamp canWrite | write canWrite
  | writeDone info =>
      have moves : (Client.step config.arguments orphan.process (.advance 0)).isSome := by
        simp only [Client.step, advance, pc]
        (repeat' split) <;> rfl
      exact Or.inr (Orphan.takes_advance moves)

theorem Balanced.orphan_ends_iff (balanced : Balanced config received sent orphan.process) :
    (orphanMachine config.arguments).Ends orphan (fun orphan => orphan.process.pc = .exit) ↔
      orphan.process.pc = .exit ∨ orphan.process.Over config ∨ orphan.process.Short config ∨
        0 < orphan.delivered.length := by
  refine ends_iff_of_alive
    (fun later : Orphan (Client Byte) Byte =>
      ∃ received sent, Balanced config received sent later.process)
    (fun later => later.process.Over config ∨ later.process.Short config ∨
      0 < later.delivered.length)
    (fun later => later.process.orphanMeasure config later.delivered.length)
    ⟨received, sent, balanced⟩ ?_ ?_ ?_ ?_
  · rintro later ⟨received, sent, balanced⟩
    exact balanced.orphan_goes
  · rintro later action next ⟨received, sent, balanced⟩ taken
    obtain ⟨allows, stepped, _⟩ := Orphan.step_inv taken
    have own := step_inv stepped
    exact ⟨own.running allows.signal, _, _, balanced.orphan_step own allows⟩
  · rintro later action next ⟨received, sent, balanced⟩ taken alive
    obtain ⟨allows, stepped, used⟩ := Orphan.step_inv taken
    have own := step_inv stepped
    have after := balanced.orphan_step own allows
    exact ⟨own.alive balanced after used alive,
      own.orphan_lowers balanced after allows used alive⟩
  · rintro later action next ⟨received, sent, balanced⟩ taken waiting
    simp only [not_or] at waiting ⊢
    obtain ⟨notOver, full, empty⟩ := waiting
    obtain ⟨allows, stepped, used⟩ := Orphan.step_inv taken
    have own := step_inv stepped
    have after := balanced.orphan_step own allows
    obtain ⟨running, notOver, full, none⟩ := own.orphan_waits balanced after allows used
      (own.running allows.signal) notOver full (by omega)
    exact ⟨running, notOver, full, by omega⟩

end Ends

end Client

end IpcBench
