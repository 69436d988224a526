import IpcBench.Duo
import IpcBench.Pair

/-!
One process of a pair goes on while the other stands still. It waits only where its
transport makes it wait, and otherwise moves a byte or comes to its exit.
-/

namespace IpcBench

open Words Transition

variable {Byte : Type} {config : Config}

namespace Action

def moved (action : Action Byte) : Nat :=
  action.received + action.sent

def transfers : Action Byte → Bool
  | .recv _ => true
  | .send _ => true
  | _ => false

variable {action : Action Byte}

theorem moves_nothing (still : action.transfers = false) : action.received = 0 ∧ action.sent = 0 := by
  cases action with
  | recv data => cases still
  | send amount => cases still
  | signal | advance time | poll ready | stop | broken => exact ⟨rfl, rfl⟩

theorem transfer_still [DecidableEq Byte] {buffered : Nat → List Byte}
    {input output : Channel Byte} (still : action.transfers = false) :
    action.transfer buffered input output = some (input, output) := by
  cases action with
  | recv data => cases still
  | send amount => cases still
  | signal | advance time | poll ready | stop | broken => rfl

end Action

namespace PairAction

def peer : PairAction Byte → Peer
  | .client _ => .client
  | .server _ => .server

def moved : PairAction Byte → Nat
  | .client action => action.moved
  | .server action => action.moved

end PairAction

namespace Pair

def left (pair : Pair Byte) : Bool :=
  pair.server.pc = .exit

def exited (pair : Pair Byte) : Peer → Bool
  | .client => pair.client.pc = .exit
  | .server => pair.server.pc = .exit

def exact (input output : Channel Byte) (readable writable : Bool) : Bool :=
  readable == !input.content.isEmpty && writable == output.content.isEmpty

/-- Surroundings that help nobody: polls report no more than they have to, a transfer that
does not block fails only where it would block, and one that blocks fails only for a client
whose server has left. -/
def prompt (nonBlock : Bool) (pair : Pair Byte) : PairAction Byte → Bool
  | .client (.poll (some (readable, writable))) =>
      exact pair.responses pair.requests readable writable
  | .client (.poll none) => false
  | .client .signal => false
  | .client .stop =>
      match pair.client.pc with
      | .reading _ _ => pair.responses.content.isEmpty && (nonBlock || pair.left)
      | _ => nonBlock && pair.requests.capacity ≤ pair.requests.content.length
  | .client .broken => !nonBlock && pair.left
  | .server (.poll (some (readable, writable))) =>
      exact pair.requests pair.responses readable writable
  | .server (.poll none) => false
  | .server .signal => false
  | .server .stop =>
      match pair.server.pc with
      | .reading _ _ => nonBlock && pair.requests.content.isEmpty
      | _ => nonBlock && pair.responses.capacity ≤ pair.responses.content.length
  | .server .broken => false
  | _ => true

def alone (nonBlock : Bool) (peer : Peer) (pair : Pair Byte) (action : PairAction Byte) : Bool :=
  action.peer = peer && pair.prompt nonBlock action

/-- A process that goes on alone can come to move a byte. -/
def MovesByte (machine : Machine (Pair Byte) (PairAction Byte)) (nonBlock : Bool) (peer : Peer)
    (pair : Pair Byte) : Prop :=
  ∃ more later, Run (machine.restrict (alone nonBlock peer)) pair more later ∧
    ∃ entry ∈ more, 0 < entry.2.moved

/-- A process that goes on alone can come to its exit. -/
def ComesToExit (machine : Machine (Pair Byte) (PairAction Byte)) (nonBlock : Bool) (peer : Peer)
    (pair : Pair Byte) : Prop :=
  ∃ more later, Run (machine.restrict (alone nonBlock peer)) pair more later ∧
    later.exited peer = true

theorem alone_client {nonBlock : Bool} {pair : Pair Byte} {action : Action Byte} :
    pair.alone nonBlock .client (.client action) = pair.prompt nonBlock (.client action) := by
  simp [alone, PairAction.peer]

theorem alone_server {nonBlock : Bool} {pair : Pair Byte} {action : Action Byte} :
    pair.alone nonBlock .server (.server action) = pair.prompt nonBlock (.server action) := by
  simp [alone, PairAction.peer]

theorem exact_self (input output : Channel Byte) :
    exact input output (!input.content.isEmpty) output.content.isEmpty = true := by
  simp [exact]

theorem undisturbed_of_alone {peer : Peer} {pair : Pair Byte} {action : PairAction Byte}
    (allowed : pair.alone true peer action = true) : action.undisturbed = true := by
  simp only [alone, Bool.and_eq_true] at allowed
  match action, allowed.2 with
  | .client (.poll (some _)), _ => rfl
  | .client .stop, _ => rfl
  | .client (.advance _), _ => rfl
  | .client (.recv _), _ => rfl
  | .client (.send _), _ => rfl
  | .server (.poll (some _)), _ => rfl
  | .server .stop, _ => rfl
  | .server (.advance _), _ => rfl
  | .server (.recv _), _ => rfl
  | .server (.send _), _ => rfl

theorem movesByte_of_step {machine : Machine (Pair Byte) (PairAction Byte)} {nonBlock : Bool}
    {peer : Peer} {pair next : Pair Byte} {action : PairAction Byte}
    (allowed : pair.alone nonBlock peer action = true) (taken : machine.step pair action = some next)
    (moved : 0 < action.moved) : MovesByte machine nonBlock peer pair :=
  ⟨_, next, Run.step Run.start (restrict_step.mpr ⟨allowed, taken⟩), _, List.mem_cons_self, moved⟩

theorem MovesByte.before {machine : Machine (Pair Byte) (PairAction Byte)} {nonBlock : Bool}
    {peer : Peer} {pair later : Pair Byte} {more : List (Pair Byte × PairAction Byte)}
    (run : Run (machine.restrict (alone nonBlock peer)) pair more later)
    (moves : MovesByte machine nonBlock peer later) : MovesByte machine nonBlock peer pair := by
  obtain ⟨last, final, rest, entry, member, moved⟩ := moves
  exact ⟨_, final, run.append rest, entry, List.mem_append_right more member, moved⟩

/-- An environment that allows all that a process needs alone. -/
theorem MovesByte.restrict {machine : Machine (Pair Byte) (PairAction Byte)} {nonBlock : Bool}
    {peer : Peer} {pair : Pair Byte} {allow : Pair Byte → PairAction Byte → Bool}
    (moves : MovesByte machine nonBlock peer pair)
    (weaker : ∀ pair action, alone nonBlock peer pair action = true → allow pair action = true) :
    MovesByte (machine.restrict allow) nonBlock peer pair := by
  obtain ⟨more, later, run, moved⟩ := moves
  exact ⟨more, later, run.restrict_restrict weaker, moved⟩

section Channels

variable [DecidableEq Byte] {channel : Channel Byte}

theorem exists_receive (nonempty : channel.content ≠ []) :
    ∃ byte next, channel.receive [byte] = some next := by
  obtain ⟨byte, rest, found⟩ := List.exists_cons_of_ne_nil nonempty
  exact ⟨byte, ⟨channel.capacity, rest⟩, by simp [Channel.receive, found]⟩

omit [DecidableEq Byte] in
theorem exists_send {data : List Byte} (one : data.length = 1)
    (room : channel.content.length < channel.capacity) : ∃ next, channel.send data = some next := by
  exact ⟨_, if_pos (by omega)⟩

end Channels

end Pair

/-! The client. -/

theorem Client.Step.quit_stays {args : Arguments} {client next : Client Byte}
    {action : Action Byte} (taken : Client.Step args client action next)
    (quit : client.quit = true) : next.quit = true := by
  cases taken with
  | signal => rfl
  | sendBroken transfer pc => rfl
  | stamp time canWrite pc => simpa [Client.goto] using quit
  | _ => exact quit

namespace ClientPc

def position : ClientPc → Nat
  | .read _ _ => 9
  | .reading _ _ => 8
  | .readDone _ _ => 7
  | .stamp _ => 6
  | .write _ => 5
  | .writing _ => 4
  | .writeDone _ => 3
  | .loop => 2
  | .poll => 1
  | .exit => 0

def comesTo (canFetch canPush : Bool) : ClientPc → Bool
  | .read canRead canWrite => canFetch && canRead || canPush && canWrite
  | .reading canWrite _ => canFetch || canPush && canWrite
  | .readDone canWrite _ => canPush && canWrite
  | .stamp canWrite => canPush && canWrite
  | .write canWrite => canPush && canWrite
  | .writing _ => canPush
  | _ => false

end ClientPc

namespace Pair

/-- Where a client has to wait: in a read that blocks for bytes of the server, in a write for
room, at the poll for either; for good once it has left its loop. -/
def clientWaits (nonBlock : Bool) (config : Config) (pair : Pair Byte) : Prop :=
  match pair.client.pc with
  | .reading _ _ => pair.responses.content = [] ∧ pair.left = false ∧ nonBlock = false
  | .writing _ => pair.requests.capacity ≤ pair.requests.content.length ∧ pair.left = false ∧
      nonBlock = false
  | .poll => ¬(pair.responses.content ≠ [] ∧ 0 < pair.client.outstandingBytes) ∧
      ¬(pair.requests.content = [] ∧ pair.client.outstandingBytes < config.window) ∧
      pair.client.quit = false
  | .exit => True
  | _ => False

/-- The steps a client needs at most, counted through the poll if this iteration moves
nothing. -/
def clientRank (config : Config) (received sent : Nat) (pair : Pair Byte) : Nat :=
  pair.client.pc.position +
    if pair.client.pc.comesTo (!pair.responses.content.isEmpty && decide (received < sent))
        (pair.requests.content.isEmpty && decide (sent < received + config.window)) &&
      !pair.client.quit then 0 else 10

/-- A pair after its client has gone on without moving a byte. -/
structure ClientIdled (nonBlock : Bool) (config : Config) (received sent : Nat)
    (pair later : Pair Byte) : Prop where
  same : later = { pair with client := later.client }
  balanced : Client.Balanced config received sent later.client
  quits : later.client.quit = true → pair.client.quit = true ∨ nonBlock = false
  ended : later.client.pc = .exit → later.client.quit = true ∨ config.total ≤ received

variable {nonBlock : Bool} {received sent : Nat} {pair later next : Pair Byte}
  {action : Action Byte} {transport : Transport}

inductive ClientNext [DecidableEq Byte] (nonBlock : Bool) (config : Config)
    (transport : Transport) (received sent : Nat) (pair : Pair Byte) : Prop
  | waits (waits : pair.clientWaits nonBlock config)
  | still (action : Action Byte) (client : Client Byte)
      (step : Client.Step config.arguments pair.client action client)
      (allowed : pair.prompt nonBlock (.client action) = true) (still : action.transfers = false)
      (lower : clientRank config received sent { pair with client := client } <
        clientRank config received sent pair)
  | moves (action : Action Byte) (next : Pair Byte)
      (taken : pair.step transport config.arguments (.client action) = some next)
      (allowed : pair.prompt nonBlock (.client action) = true) (moved : 0 < action.moved)

variable [DecidableEq Byte]

theorem step_client_still (transport : Transport) {client : Client Byte}
    (step : Client.Step config.arguments pair.client action client)
    (still : action.transfers = false) :
    pair.step transport config.arguments (.client action) =
      some { pair with client := client } := by
  rw [Pair.step, Action.transfer_still still, step.taken]

omit [DecidableEq Byte] in
theorem ClientIdled.step (idled : ClientIdled nonBlock config received sent pair later)
    {client : Client Byte} (step : Client.Step config.arguments later.client action client)
    (allowed : later.prompt nonBlock (.client action) = true) (still : action.transfers = false) :
    ClientIdled nonBlock config received sent pair { later with client := client } := by
  obtain ⟨nothing, none⟩ := Action.moves_nothing still
  have balanced := idled.balanced.step step
  rw [nothing, none] at balanced
  refine ⟨by rw [idled.same], balanced, ?_, ?_⟩
  · intro quit
    cases step with
    | signal => cases allowed
    | sendBroken transfer pc =>
        simp only [prompt, Bool.and_eq_true, Bool.not_eq_true'] at allowed
        exact Or.inr allowed.1
    | stamp time canWrite pc => exact idled.quits (by simpa [Client.goto] using quit)
    | _ => exact idled.quits quit
  · intro exit
    have read := idled.balanced.read
    rcases step.exit_inv idled.balanced exit with already | reached | quit | failed
    · exact (idled.ended already).imp_left step.quit_stays
    · exact Or.inr (by omega)
    · exact Or.inl (step.quit_stays quit)
    · rw [failed] at allowed
      cases allowed

theorem ClientNext.ofLoop (pc : pair.client.pc = .loop) :
    ClientNext nonBlock config transport received sent pair := by
  by_cases more : sizeT pair.client.totalBytesRead < config.arguments.maxBytes ∧
      pair.client.quit = false
  · refine .still (.advance 0) _ (.enter 0 pc more.1 more.2) rfl rfl ?_
    simp [clientRank, pc, Client.goto, ClientPc.position, ClientPc.comesTo]
  · refine .still (.advance 0) _ (.finish 0 pc ?_) rfl rfl ?_
    · rw [Classical.not_and_iff_not_or_not, Nat.not_lt] at more
      simpa using more
    · simp [clientRank, pc, Client.leave, ClientPc.position, ClientPc.comesTo]

theorem ClientNext.ofPoll (balanced : Client.Balanced config received sent pair.client)
    (pc : pair.client.pc = .poll) :
    ClientNext nonBlock config transport received sent pair := by
  have balance := balanced.balance
  cases quit : pair.client.quit with
  | true =>
      refine .still (.poll (some (_, _))) _ (.pollFailed _ pc (Or.inr quit))
        (exact_self pair.responses pair.requests) rfl ?_
      simp [clientRank, pc, quit, Client.leave, ClientPc.position, ClientPc.comesTo]
  | false =>
      by_cases waits : pair.clientWaits nonBlock config
      · exact .waits waits
      refine .still (.poll (some (_, _))) _ (.polled _ _ pc quit)
        (exact_self pair.responses pair.requests) rfl ?_
      have idle : sent = pair.client.outstandingBytes + received := by
        simpa [pc, ClientPc.pushed, ClientPc.fetched] using balance.symm
      have told : ClientPc.comesTo
          (!pair.responses.content.isEmpty && decide (received < sent))
          (pair.requests.content.isEmpty && decide (sent < received + config.window))
          (.read (!pair.responses.content.isEmpty) pair.requests.content.isEmpty) = true := by
        simp only [clientWaits, pc, quit, and_true, ← not_or, Classical.not_not] at waits
        rcases waits with ⟨nonempty, holds⟩ | ⟨empty, fewer⟩
        · simp [ClientPc.comesTo, nonempty, idle, holds]
        · simp [ClientPc.comesTo, empty, idle, Nat.add_comm received, fewer]
      have later : ClientPc.comesTo
          (!pair.responses.content.isEmpty && decide (received < sent))
          (pair.requests.content.isEmpty && decide (sent < received + config.window))
          .poll = false := rfl
      simp [clientRank, pc, quit, Client.goto, ClientPc.position, told, later]

theorem ClientNext.ofRead (balanced : Client.Balanced config received sent pair.client)
    {canRead canWrite : Bool} (pc : pair.client.pc = .read canRead canWrite) :
    ClientNext nonBlock config transport received sent pair := by
  have balance := balanced.balance
  by_cases reads : canRead = true ∧ pair.client.quit = false
  · obtain ⟨rfl, quit⟩ := reads
    by_cases empty : pair.client.outstandingBytes = 0
    · refine .still (.advance 0) _ (.readNothing 0 canWrite pc quit empty) rfl rfl ?_
      have none : ¬received < sent := by
        simp only [pc, ClientPc.pushed, ClientPc.fetched] at balance
        omega
      simp [clientRank, pc, quit, none, Client.goto, ClientPc.position, ClientPc.comesTo]
    · refine .still (.advance 0) _ (.startRead 0 canWrite pc quit (Nat.pos_of_ne_zero empty))
        rfl rfl ?_
      simp [clientRank, pc, quit, Client.goto, ClientPc.position, ClientPc.comesTo]
  · have skipped : canRead = false ∨ pair.client.quit = true := by
      cases canRead <;> simp_all
    refine .still (.advance 0) _ (.skipRead 0 canRead canWrite pc skipped) rfl rfl ?_
    rcases skipped with rfl | quit
    · simp [clientRank, pc, Client.goto, ClientPc.position, ClientPc.comesTo]
    · simp [clientRank, pc, quit, Client.goto, ClientPc.position]

theorem ClientNext.ofReading (balanced : Client.Balanced config received sent pair.client)
    {canWrite : Bool} {transfer : Transfer} (pc : pair.client.pc = .reading canWrite transfer) :
    ClientNext nonBlock config transport received sent pair := by
  have helper := balanced.helper
  simp only [pc, ClientPc.HelperOk] at helper
  by_cases empty : pair.responses.content = []
  · by_cases blocks : nonBlock = false ∧ pair.left = false
    · exact .waits (by simp [clientWaits, pc, empty, blocks])
    · refine .still .stop _ (.recvStop canWrite transfer pc) ?_ rfl ?_
      · simp only [prompt, pc, empty]
        cases nonBlock <;> simp_all
      · simp [clientRank, pc, empty, Client.goto, ClientPc.position, ClientPc.comesTo]
  · obtain ⟨byte, responses, received⟩ := exists_receive empty
    have asked := transfer.request_pos config.size_pos helper.2
    have step : ∃ client, pair.client.step config.arguments (.recv [byte]) = some client := by
      simp only [Client.step, pc, Config.reqSize_eq]
      exact ⟨_, if_pos ⟨Nat.one_pos, asked⟩⟩
    obtain ⟨client, step⟩ := step
    refine .moves (.recv [byte]) { pair with client := client, responses := responses } ?_ rfl
      Nat.one_pos
    simp [Pair.step, Action.transfer, received, step]

theorem ClientNext.ofWrite (balanced : Client.Balanced config received sent pair.client)
    {canWrite : Bool} (pc : pair.client.pc = .write canWrite) :
    ClientNext nonBlock config transport received sent pair := by
  have balance := balanced.balance
  by_cases writes : canWrite = true ∧ pair.client.outstandingBytes < config.window ∧
      pair.client.quit = false
  · obtain ⟨rfl, fewer, quit⟩ := writes
    rw [← Config.maxOutstandingBytes_eq] at fewer
    refine .still (.advance 0) _ (.startWrite 0 pc fewer quit) rfl rfl ?_
    simp [clientRank, pc, quit, Client.goto, ClientPc.position, ClientPc.comesTo]
  · have skipped : canWrite = false ∨ config.arguments.maxOutstandingBytes ≤
        pair.client.outstandingBytes ∨ pair.client.quit = true := by
      rw [Config.maxOutstandingBytes_eq]
      by_cases fewer : pair.client.outstandingBytes < config.window
      · cases canWrite <;> simp_all
      · exact Or.inr (Or.inl (by omega))
    refine .still (.advance 0) _ (.skipWrite 0 canWrite pc skipped) rfl rfl ?_
    rcases skipped with rfl | full | quit
    · simp [clientRank, pc, Client.goto, ClientPc.position, ClientPc.comesTo]
    · have none : ¬sent < received + config.window := by
        rw [Config.maxOutstandingBytes_eq] at full
        simp only [pc, ClientPc.pushed, ClientPc.fetched] at balance
        omega
      simp [clientRank, pc, none, Client.goto, ClientPc.position, ClientPc.comesTo]
    · simp [clientRank, pc, quit, Client.goto, ClientPc.position]

theorem ClientNext.ofWriting (balanced : Client.Balanced config received sent pair.client)
    (room : 0 < pair.requests.capacity) {transfer : Transfer}
    (pc : pair.client.pc = .writing transfer) :
    ClientNext nonBlock config transport received sent pair := by
  have helper := balanced.helper
  simp only [pc, ClientPc.HelperOk] at helper
  by_cases full : pair.requests.capacity ≤ pair.requests.content.length
  · have nonempty : pair.requests.content ≠ [] := List.ne_nil_of_length_pos (by omega)
    by_cases blocks : nonBlock = false ∧ pair.left = false
    · exact .waits (by simp [clientWaits, pc, full, blocks])
    · cases nonBlock with
      | true =>
          refine .still .stop _ (.sendStop transfer pc) (by simp [prompt, pc, full]) rfl ?_
          simp [clientRank, pc, nonempty, Client.goto, ClientPc.position, ClientPc.comesTo]
      | false =>
          have left : pair.left = true := by simpa using blocks
          refine .still .broken _ (.sendBroken transfer pc) (by simp [prompt, left]) rfl ?_
          simp [clientRank, pc, nonempty, Client.goto, ClientPc.position, ClientPc.comesTo]
  · have asked := transfer.request_pos config.size_pos helper.2
    have step : ∃ client, pair.client.step config.arguments (.send 1) = some client := by
      simp only [Client.step, pc, Config.reqSize_eq]
      exact ⟨_, if_pos ⟨Nat.one_pos, asked⟩⟩
    obtain ⟨client, step⟩ := step
    have one : (pair.client.outgoing 1).length = 1 :=
      balanced.outgoing_length (Client.step_inv step)
    obtain ⟨requests, sends⟩ := exists_send one (Nat.lt_of_not_le full)
    refine .moves (.send 1) { pair with client := client, requests := requests } ?_ rfl
      Nat.one_pos
    simp [Pair.step, Action.transfer, sends, step]

/-- A client that does not wait goes on: the poll tells it of the transfer that will move a
byte, and until then its rank falls. -/
theorem clientNext (balanced : Client.Balanced config received sent pair.client)
    (room : 0 < pair.requests.capacity) :
    ClientNext nonBlock config transport received sent pair := by
  cases pc : pair.client.pc with
  | loop => exact .ofLoop pc
  | poll => exact .ofPoll balanced pc
  | read canRead canWrite => exact .ofRead balanced pc
  | reading canWrite transfer => exact .ofReading balanced pc
  | readDone canWrite info =>
      refine .still (.advance 0) _ (.accountRead 0 canWrite info pc) rfl rfl ?_
      simp [clientRank, pc, Client.goto, Client.accountRead, ClientPc.position, ClientPc.comesTo]
  | stamp canWrite =>
      refine .still (.advance 0) _ (.stamp 0 canWrite pc) rfl rfl ?_
      simp [clientRank, pc, Client.goto, ClientPc.position, ClientPc.comesTo]
  | write canWrite => exact .ofWrite balanced pc
  | writing transfer => exact .ofWriting balanced room pc
  | writeDone info =>
      refine .still (.advance 0) _ (.accountWrite 0 info pc) rfl rfl ?_
      simp [clientRank, pc, Client.goto, ClientPc.position, ClientPc.comesTo]
  | exit => exact .waits (by simp [clientWaits, pc])

/-- A client that goes on alone comes to a place where it waits or has a byte to move. -/
theorem client_settles (idled : ClientIdled nonBlock config received sent pair pair)
    (room : 0 < pair.requests.capacity) :
    ∃ more later, Run ((machine transport config.arguments).restrict (alone nonBlock .client))
        pair more later ∧ ClientIdled nonBlock config received sent pair later ∧
      (later.clientWaits nonBlock config ∨
        MovesByte (machine transport config.arguments) nonBlock .client later) := by
  refine reaches_of_measure (ClientIdled nonBlock config received sent pair)
    (clientRank config received sent) ?_ pair idled
  intro later idled
  have same : later.requests = pair.requests := by rw [idled.same]
  have after : ClientNext nonBlock config transport received sent later :=
    clientNext idled.balanced (by rw [same]; exact room)
  cases after with
  | waits waits => exact Or.inl (Or.inl waits)
  | still action client step allowed still lower =>
      refine Or.inr ⟨.client action, { later with client := client }, restrict_step.mpr ⟨?_, ?_⟩,
        idled.step step allowed still, lower⟩
      · rw [alone_client]
        exact allowed
      · exact step_client_still transport step still
  | moves action next taken allowed moved =>
      exact Or.inl (Or.inr (movesByte_of_step (alone_client.trans allowed) taken moved))

end Pair

/-! The server. -/

namespace ServerPc

def position : ServerPc → Nat
  | .read _ _ => 8
  | .reading _ _ => 7
  | .readDone _ _ => 6
  | .write _ _ => 5
  | .writing _ => 4
  | .writeDone _ => 3
  | .loop => 2
  | .poll => 1
  | .exit => 0

def comesTo (canFetch canPush : Bool) : ServerPc → Bool
  | .read canRead canWrite => canFetch && canRead || canPush && canWrite
  | .reading canWrite _ => canFetch || canPush && canWrite
  | .readDone canWrite _ => canPush && canWrite
  | .write canWrite _ => canPush && canWrite
  | .writing _ => canPush
  | _ => false

end ServerPc

namespace Pair

variable {nonBlock : Bool} {received sent : Nat} {pair later next : Pair Byte}
  {action : Action Byte} {transport : Transport}

def serverWaits (nonBlock : Bool) (pair : Pair Byte) : Prop :=
  match pair.server.pc with
  | .reading _ _ => pair.requests.content = [] ∧ nonBlock = false
  | .writing _ => pair.responses.capacity ≤ pair.responses.content.length ∧ nonBlock = false
  | .poll => pair.requests.content = [] ∧
      ¬(pair.server.pollsWrite = true ∧ pair.responses.content = [] ∧
        0 < pair.server.outstandingBytes) ∧ pair.server.quit = false
  | .exit => True
  | _ => False

def serverRank (received sent : Nat) (pair : Pair Byte) : Nat :=
  pair.server.pc.position +
    if pair.server.pc.comesTo (!pair.requests.content.isEmpty)
        (pair.responses.content.isEmpty && decide (sent < received)) &&
      !pair.server.quit then 0 else 10

structure ServerIdled (config : Config) (transport : Transport) (received sent : Nat)
    (pair later : Pair Byte) : Prop where
  same : later = { pair with server := later.server }
  balanced : Server.Balanced config transport received sent later.server
  quits : later.server.quit = true → pair.server.quit = true
  ended : later.server.pc = .exit → later.server.quit = true ∨ config.total ≤ sent

inductive ServerNext [DecidableEq Byte] (nonBlock : Bool) (config : Config)
    (transport : Transport) (received sent : Nat) (pair : Pair Byte) : Prop
  | waits (waits : pair.serverWaits nonBlock)
  | still (action : Action Byte) (server : Server Byte)
      (step : Server.Step transport config.arguments pair.server action server)
      (allowed : pair.prompt nonBlock (.server action) = true) (still : action.transfers = false)
      (lower : serverRank received sent { pair with server := server } <
        serverRank received sent pair)
  | moves (action : Action Byte) (next : Pair Byte)
      (taken : pair.step transport config.arguments (.server action) = some next)
      (allowed : pair.prompt nonBlock (.server action) = true) (moved : 0 < action.moved)

variable [DecidableEq Byte]

theorem step_server_still {server : Server Byte}
    (step : Server.Step transport config.arguments pair.server action server)
    (still : action.transfers = false) :
    pair.step transport config.arguments (.server action) =
      some { pair with server := server } := by
  rw [Pair.step, Action.transfer_still still, step.taken]

omit [DecidableEq Byte] in
theorem ServerIdled.step (idled : ServerIdled config transport received sent pair later)
    {server : Server Byte}
    (step : Server.Step transport config.arguments later.server action server)
    (allowed : later.prompt nonBlock (.server action) = true) (still : action.transfers = false) :
    ServerIdled config transport received sent pair { later with server := server } := by
  obtain ⟨nothing, none⟩ := Action.moves_nothing still
  have ordered := idled.balanced.received_le
  have balanced := idled.balanced.step step (by omega)
  rw [nothing, none] at balanced
  have calm : action.undisturbed = true := by
    match action, allowed with
    | .poll (some _), _ => rfl
    | .stop, _ => rfl
    | .advance _, _ => rfl
    | .recv _, _ => rfl
    | .send _, _ => rfl
  have quits := step.quit_eq calm
  refine ⟨by rw [idled.same], balanced, ?_, ?_⟩
  · intro quit
    exact idled.quits (quits.symm.trans quit)
  · intro exit
    have written := idled.balanced.written
    cases quit : later.server.quit with
    | true => exact Or.inl (quits.trans quit)
    | false =>
        obtain ⟨already | reached, _⟩ := step.exit_inv calm quit exit
        · exact (idled.ended already).imp_left quits.trans
        · rw [Config.maxBytes_eq, Config.ssizeT_total] at reached
          exact Or.inr (by omega)

theorem ServerNext.ofLoop (pc : pair.server.pc = .loop) :
    ServerNext nonBlock config transport received sent pair := by
  by_cases more : pair.server.totalBytesWritten < ssizeT config.arguments.maxBytes ∧
      pair.server.quit = false
  · refine .still (.advance 0) _ (.enter 0 pc more.1 more.2) rfl rfl ?_
    simp [serverRank, pc, Server.goto, ServerPc.position, ServerPc.comesTo]
  · refine .still (.advance 0) _ (.finish 0 pc ?_) rfl rfl ?_
    · rw [Classical.not_and_iff_not_or_not, Int.not_lt] at more
      simpa using more
    · simp [serverRank, pc, Server.leave, ServerPc.position, ServerPc.comesTo]

theorem ServerNext.ofPoll (balanced : Server.Balanced config transport received sent pair.server)
    (pc : pair.server.pc = .poll) :
    ServerNext nonBlock config transport received sent pair := by
  have holding := balanced.holding
  cases quit : pair.server.quit with
  | true =>
      refine .still (.poll (some (_, _))) _ (.pollFailed _ pc (Or.inr quit))
        (exact_self pair.requests pair.responses) rfl ?_
      simp [serverRank, pc, quit, Server.leave, ServerPc.position, ServerPc.comesTo]
  | false =>
      by_cases waits : pair.serverWaits nonBlock
      · exact .waits waits
      refine .still (.poll (some (_, _))) _ (.polled _ _ pc quit)
        (exact_self pair.requests pair.responses) rfl ?_
      have told : ServerPc.comesTo (!pair.requests.content.isEmpty)
          (pair.responses.content.isEmpty && decide (sent < received))
          (.read (!pair.requests.content.isEmpty)
            (pair.server.writeEvent transport pair.responses.content.isEmpty)) = true := by
        by_cases some : pair.requests.content = []
        · simp only [serverWaits, pc, quit, some, and_true, true_and, Classical.not_not]
            at waits
          obtain ⟨polls, empty, holds⟩ := waits
          have more : sent < received := by
            simp only [pc, ServerPc.pushed, ServerPc.fetched] at holding
            omega
          cases transport <;> simp [ServerPc.comesTo, Server.writeEvent, polls, empty, more]
        · simp [ServerPc.comesTo, some]
      have later : ServerPc.comesTo (!pair.requests.content.isEmpty)
          (pair.responses.content.isEmpty && decide (sent < received)) .poll = false := rfl
      simp [serverRank, pc, quit, Server.goto, ServerPc.position, told, later]

theorem ServerNext.ofRead (balanced : Server.Balanced config transport received sent pair.server)
    {canRead canWrite : Bool} (pc : pair.server.pc = .read canRead canWrite) :
    ServerNext nonBlock config transport received sent pair := by
  have window := balanced.window
  have windowPos := config.window_pos
  have limit := balanced.toRead_eq
  by_cases reads : canRead = true ∧ pair.server.quit = false
  · obtain ⟨rfl, quit⟩ := reads
    refine .still (.advance 0) _ (.startRead 0 canWrite pc quit (by omega)) rfl rfl ?_
    simp [serverRank, pc, quit, Server.goto, ServerPc.position, ServerPc.comesTo]
  · have skipped : canRead = false ∨ pair.server.quit = true := by
      cases canRead <;> simp_all
    refine .still (.advance 0) _ (.skipRead 0 canRead canWrite pc skipped) rfl rfl ?_
    rcases skipped with rfl | quit
    · simp [serverRank, pc, Server.goto, ServerPc.position, ServerPc.comesTo]
    · simp [serverRank, pc, quit, Server.goto, ServerPc.position]

theorem ServerNext.ofReading (balanced : Server.Balanced config transport received sent pair.server)
    {canWrite : Bool} {transfer : Transfer} (pc : pair.server.pc = .reading canWrite transfer) :
    ServerNext nonBlock config transport received sent pair := by
  have helper := balanced.helper
  simp only [pc, ServerPc.HelperOk] at helper
  by_cases empty : pair.requests.content = []
  · cases nonBlock with
    | false => exact .waits (by simp [serverWaits, pc, empty])
    | true =>
        refine .still .stop _ (.recvStop canWrite transfer pc) (by simp [prompt, pc, empty])
          rfl ?_
        simp [serverRank, pc, empty, Server.goto, ServerPc.position, ServerPc.comesTo]
  · obtain ⟨byte, requests, received⟩ := exists_receive empty
    have asked := transfer.request_pos config.size_pos helper.2
    have step : ∃ server, pair.server.step transport config.arguments (.recv [byte]) =
        some server := by
      simp only [Server.step, pc, Config.reqSize_eq]
      exact ⟨_, if_pos ⟨Nat.one_pos, asked⟩⟩
    obtain ⟨server, step⟩ := step
    refine .moves (.recv [byte]) { pair with server := server, requests := requests } ?_ rfl
      Nat.one_pos
    simp [Pair.step, Action.transfer, received, step]

theorem ServerNext.ofWrite (balanced : Server.Balanced config transport received sent pair.server)
    {canWrite : Bool} {toWrite : Nat} (pc : pair.server.pc = .write canWrite toWrite) :
    ServerNext nonBlock config transport received sent pair := by
  have holding := balanced.holding
  have ordered := balanced.sent_le
  have helper := balanced.helper
  simp only [pc, ServerPc.HelperOk, ServerPc.pushed, ServerPc.fetched] at helper holding
  by_cases writes : canWrite = true ∧ pair.server.quit = false
  · obtain ⟨rfl, quit⟩ := writes
    by_cases nothing : toWrite = 0
    · subst nothing
      have none : ¬sent < received := by omega
      refine .still (.advance 0) _ (.writeNothing 0 pc quit) rfl rfl ?_
      simp [serverRank, pc, quit, none, Server.goto, ServerPc.position, ServerPc.comesTo]
    · refine .still (.advance 0) _ (.startWrite 0 toWrite pc quit (Nat.pos_of_ne_zero nothing))
        rfl rfl ?_
      simp [serverRank, pc, quit, Server.goto, ServerPc.position, ServerPc.comesTo]
  · have skipped : canWrite = false ∨ pair.server.quit = true := by
      cases canWrite <;> simp_all
    refine .still (.advance 0) _ (.skipWrite 0 canWrite toWrite pc skipped) rfl rfl ?_
    rcases skipped with rfl | quit
    · simp [serverRank, pc, Server.goto, ServerPc.position, ServerPc.comesTo]
    · simp [serverRank, pc, quit, Server.goto, ServerPc.position]

theorem ServerNext.ofWriting (balanced : Server.Balanced config transport received sent pair.server)
    (room : 0 < pair.responses.capacity) {transfer : Transfer}
    (pc : pair.server.pc = .writing transfer) :
    ServerNext nonBlock config transport received sent pair := by
  have helper := balanced.helper
  simp only [pc, ServerPc.HelperOk] at helper
  by_cases full : pair.responses.capacity ≤ pair.responses.content.length
  · have nonempty : pair.responses.content ≠ [] := List.ne_nil_of_length_pos (by omega)
    cases nonBlock with
    | false => exact .waits (by simp [serverWaits, pc, full])
    | true =>
        refine .still .stop _ (.sendStop transfer pc) (by simp [prompt, pc, full]) rfl ?_
        simp [serverRank, pc, nonempty, Server.goto, ServerPc.position, ServerPc.comesTo]
  · have asked := transfer.request_pos config.size_pos helper.2
    have step : ∃ server, pair.server.step transport config.arguments (.send 1) =
        some server := by
      simp only [Server.step, pc, Config.reqSize_eq]
      exact ⟨_, if_pos ⟨Nat.one_pos, asked⟩⟩
    obtain ⟨server, step⟩ := step
    have one : (pair.server.outgoing 1).length = 1 :=
      balanced.outgoing_length (Server.step_inv step)
    obtain ⟨responses, sends⟩ := exists_send one (Nat.lt_of_not_le full)
    refine .moves (.send 1) { pair with server := server, responses := responses } ?_ rfl
      Nat.one_pos
    simp [Pair.step, Action.transfer, sends, step]

theorem serverNext (balanced : Server.Balanced config transport received sent pair.server)
    (room : 0 < pair.responses.capacity) :
    ServerNext nonBlock config transport received sent pair := by
  cases pc : pair.server.pc with
  | loop => exact .ofLoop pc
  | poll => exact .ofPoll balanced pc
  | read canRead canWrite => exact .ofRead balanced pc
  | reading canWrite transfer => exact .ofReading balanced pc
  | readDone canWrite info =>
      refine .still (.advance 0) _ (.accountRead 0 canWrite info pc) rfl rfl ?_
      simp [serverRank, pc, Server.goto, Server.accountRead_quit, ServerPc.position,
        ServerPc.comesTo]
  | write canWrite toWrite => exact .ofWrite balanced pc
  | writing transfer => exact .ofWriting balanced room pc
  | writeDone info =>
      refine .still (.advance 0) _ (.accountWrite 0 info pc) rfl rfl ?_
      simp [serverRank, pc, Server.goto, ServerPc.position, ServerPc.comesTo]
  | exit => exact .waits (by simp [serverWaits, pc])

theorem server_settles (nonBlock : Bool)
    (idled : ServerIdled config transport received sent pair pair)
    (room : 0 < pair.responses.capacity) :
    ∃ more later, Run ((machine transport config.arguments).restrict (alone nonBlock .server))
        pair more later ∧ ServerIdled config transport received sent pair later ∧
      (later.serverWaits nonBlock ∨
        MovesByte (machine transport config.arguments) nonBlock .server later) := by
  refine reaches_of_measure (ServerIdled config transport received sent pair)
    (serverRank received sent) ?_ pair idled
  intro later idled
  have same : later.responses = pair.responses := by rw [idled.same]
  have after : ServerNext nonBlock config transport received sent later :=
    serverNext idled.balanced (by rw [same]; exact room)
  cases after with
  | waits waits => exact Or.inl (Or.inl waits)
  | still action server step allowed still lower =>
      refine Or.inr ⟨.server action, { later with server := server }, restrict_step.mpr ⟨?_, ?_⟩,
        idled.step step allowed still, lower⟩
      · rw [alone_server]
        exact allowed
      · exact step_server_still step still
  | moves action next taken allowed moved =>
      exact Or.inl (Or.inr (movesByte_of_step (alone_server.trans allowed) taken moved))

theorem step_server_with (args : Arguments) (client : Client Byte) :
    { pair with client := client }.step transport args (.server action) =
      (pair.step transport args (.server action)).map fun next =>
        { next with client := client } := by
  simp only [Pair.step]
  split <;> simp_all

omit [DecidableEq Byte] in
theorem prompt_server_with (client : Client Byte) :
    { pair with client := client }.prompt nonBlock (.server action) =
      pair.prompt nonBlock (.server action) := by
  cases action with
  | poll ready => cases ready <;> rfl
  | _ => rfl

/-- What a server does alone it does beside any client. -/
theorem server_alone_with (args : Arguments) (client : Client Byte)
    {more : List (Pair Byte × PairAction Byte)}
    (run : Run ((machine transport args).restrict (alone nonBlock .server)) pair more later) :
    ∃ same, Run ((machine transport args).restrict (alone nonBlock .server))
        { pair with client := client } same { later with client := client } ∧
      same.map Prod.snd = more.map Prod.snd := by
  refine ⟨_, run.project (fun pair => { pair with client := client }) some ?_, ?_⟩
  · intro pair action next taken
    obtain ⟨allowed, taken⟩ := restrict_step.mp taken
    refine restrict_step.mpr ⟨?_, ?_⟩
    · cases action with
      | client action => simp [alone, PairAction.peer] at allowed
      | server action => rw [alone_server, prompt_server_with, ← alone_server, allowed]
    · cases action with
      | client action => simp [alone, PairAction.peer] at allowed
      | server action =>
          refine (step_server_with args client).trans ?_
          exact congrArg (Option.map _) taken
  · simp [project]

end Pair

end IpcBench
