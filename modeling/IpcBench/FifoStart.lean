import IpcBench.PipeOpens

/-!
The start of the fifo transport: both `main` functions open the response pipe and then the
request pipe, each for the end that the other does not open.
-/

namespace IpcBench

open Transition Calls NamedPipe

inductive FifoPath
  | request
  | response
deriving DecidableEq, Repr

def serverOpens : List (FifoPath × Mode) :=
  [(.response, .writeOnly), (.request, .readOnly)]

def clientOpens : List (FifoPath × Mode) :=
  [(.response, .readOnly), (.request, .writeOnly)]

def serverPipeSize : Nat := 1048576

def clientPipeSize : Nat := 102400

/-- The two processes from their first `open_fifo` to `communicate`. What a process does last
before that is `sigaction`, and whatever fails makes it return EXIT_FAILURE. -/
def fifoStart : System (Kernel FifoPath) (PipeCall FifoPath) Place Place :=
  openers clientOpens serverOpens clientPipeSize serverPipeSize

def fifoFresh (capacity : Nat) : Duo (Kernel FifoPath) Place Place :=
  openersStart clientOpens serverOpens capacity

theorem fifo_meeting : Meeting clientOpens serverOpens where
  distinct := by simp [clientOpens]
  meets := by
    refine .cons ⟨rfl, .reads⟩ (.cons ⟨rfl, .writes⟩ .nil)

/-- What a process can rely on when it comes to `communicate`: its peer has opened both pipes,
and has them open as long as it does not give up. -/
structure FifoOpened (duo : Duo (Kernel FifoPath) Place Place) : Prop where
  metServer : duo.client = .through →
    (duo.shared.pipes .request).readerOpens = 1 ∧ (duo.shared.pipes .response).writerOpens = 1
  hasServer : duo.client = .through → duo.server.isGone = false →
    (duo.shared.pipes .request).readers = 1 ∧ (duo.shared.pipes .response).writers = 1
  metClient : duo.server = .through →
    (duo.shared.pipes .request).writerOpens = 1 ∧ (duo.shared.pipes .response).readerOpens = 1
  hasClient : duo.server = .through → duo.client.isGone = false →
    (duo.shared.pipes .request).writers = 1 ∧ (duo.shared.pipes .response).readers = 1
  both : duo.client = .through → duo.server = .through → ∀ path,
    (duo.shared.pipes path).readers = 1 ∧ (duo.shared.pipes path).writers = 1 ∧
      ((duo.shared.pipes path).capacity = 131072 ∨ (duo.shared.pipes path).capacity = 1048576)

theorem fifo_sizes : roundSize clientPipeSize = 131072 ∧ roundSize serverPipeSize = 1048576 := by
  decide

theorem Opening.fifo {duo : Duo (Kernel FifoPath) Place Place}
    (opening : Opening clientOpens serverOpens clientPipeSize serverPipeSize duo) :
    FifoOpened duo := by
  have clientPassed := opening.met.client.passed
  have serverPassed := opening.met.server.passed
  have client := opening.met.client
  have server := opening.met.server
  have serverArrived : duo.client = .through → 2 ≤ duo.server.arrived serverOpens.length := by
    intro through
    rwa [through] at clientPassed
  have clientArrived : duo.server = .through → 2 ≤ duo.client.arrived clientOpens.length := by
    intro through
    rwa [through] at serverPassed
  refine ⟨?_, ?_, ?_, ?_, ?_⟩
  · intro through
    have arrived := serverArrived through
    constructor
    · exact (server.opens 1 .request .readOnly rfl).trans (among_eq_one (by omega))
    · exact (server.opens 0 .response .writeOnly rfl).trans (among_eq_one (by omega))
  · intro through stays
    have arrived := serverArrived through
    have held := Place.held_of_stays serverOpens.length stays
    constructor
    · exact (server.present 1 .request .readOnly rfl).trans (among_eq_one (by omega))
    · exact (server.present 0 .response .writeOnly rfl).trans (among_eq_one (by omega))
  · intro through
    have arrived := clientArrived through
    constructor
    · exact (client.opens 1 .request .writeOnly rfl).trans (among_eq_one (by omega))
    · exact (client.opens 0 .response .readOnly rfl).trans (among_eq_one (by omega))
  · intro through stays
    have arrived := clientArrived through
    have held := Place.held_of_stays clientOpens.length stays
    constructor
    · exact (client.present 1 .request .writeOnly rfl).trans (among_eq_one (by omega))
    · exact (client.present 0 .response .readOnly rfl).trans (among_eq_one (by omega))
  · intro clientThrough serverThrough path
    have clientHeld : duo.client.held clientOpens.length = 2 := by rw [clientThrough]; rfl
    have serverHeld : duo.server.held serverOpens.length = 2 := by rw [serverThrough]; rfl
    have clientSized : duo.client.sized clientOpens.length = 2 := by rw [clientThrough]; rfl
    have sizes := fifo_sizes
    cases path with
    | request =>
        have capacity := opening.client 1 .request .writeOnly rfl (by omega)
        rw [sizes.1, sizes.2] at capacity
        exact ⟨(server.present 1 .request .readOnly rfl).trans (among_eq_one (by omega)),
          (client.present 1 .request .writeOnly rfl).trans (among_eq_one (by omega)), capacity⟩
    | response =>
        have capacity := opening.client 0 .response .readOnly rfl (by omega)
        rw [sizes.1, sizes.2] at capacity
        exact ⟨(client.present 0 .response .readOnly rfl).trans (among_eq_one (by omega)),
          (server.present 0 .response .writeOnly rfl).trans (among_eq_one (by omega)), capacity⟩

/-- Whatever the interleaving, both processes open both pipes when no call fails, and when
calls fail nobody waits but for a process that has given up; who comes to `communicate` has
met its peer, which then has the other end of both pipes unless it has given up. -/
theorem fifo_opens (capacity : Nat) :
    ((fifoStart.machine.restrict fun _ action => decide (action.2 = .succeeds)).Ends
        (fifoFresh capacity) fun duo => duo.client = .through ∧ duo.server = .through) ∧
      fifoStart.machine.Ends (fifoFresh capacity) Settled ∧
      ∀ trace duo, Run fifoStart.machine (fifoFresh capacity) trace duo → FifoOpened duo := by
  refine ⟨openers_through fifo_meeting, openers_settle fifo_meeting, ?_⟩
  intro trace duo run
  exact Opening.fifo (Opening.run fifo_meeting run)

end IpcBench
