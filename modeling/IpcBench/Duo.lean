import IpcBench.Transition
import Mathlib.Data.List.Nodup

/-!
Two processes over one shared resource, which take turns at it or should, and
histories that follow a script of rounds.
-/

namespace Transition

structure Duo (Shared Client Server : Type) where
  shared : Shared
  client : Client
  server : Server
deriving DecidableEq

inductive Peer
  | client
  | server
deriving DecidableEq, Repr

section Machine

variable {Shared Client Server : Type} (client : Shared → Client → Option (Shared × Client))
  (server : Shared → Server → Option (Shared × Server))

def Duo.step (duo : Duo Shared Client Server) : Peer → Option (Duo Shared Client Server)
  | .client => (client duo.shared duo.client).map fun result =>
      { duo with shared := result.1, client := result.2 }
  | .server => (server duo.shared duo.server).map fun result =>
      { duo with shared := result.1, server := result.2 }

def Duo.machine : Machine (Duo Shared Client Server) Peer where
  step := Duo.step client server

variable {client server} {duo next : Duo Shared Client Server} {peer : Peer}

theorem map_pair_eq_some {First Second Result : Type} {pair : Option (First × Second)}
    {combine : First × Second → Result} {result : Result} :
    pair.map combine = some result ↔
      ∃ first second, pair = some (first, second) ∧ result = combine (first, second) := by
  rw [Option.map_eq_some_iff]
  constructor
  · rintro ⟨⟨first, second⟩, found, rfl⟩
    exact ⟨first, second, found, rfl⟩
  · rintro ⟨first, second, found, rfl⟩
    exact ⟨(first, second), found, rfl⟩

theorem Duo.step_client : (Duo.machine client server).step duo .client = some next ↔
    ∃ shared place, client duo.shared duo.client = some (shared, place) ∧
      next = { duo with shared := shared, client := place } := by
  simp only [Duo.machine, Duo.step]
  exact map_pair_eq_some

theorem Duo.step_server : (Duo.machine client server).step duo .server = some next ↔
    ∃ shared place, server duo.shared duo.server = some (shared, place) ∧
      next = { duo with shared := shared, server := place } := by
  simp only [Duo.machine, Duo.step]
  exact map_pair_eq_some

/-- Not everyone is done, and whoever is not done waits. -/
def Stranded (clientDone clientWaits serverDone serverWaits : Prop) : Prop :=
  ¬(clientDone ∧ serverDone) ∧ (clientDone ∨ clientWaits) ∧ (serverDone ∨ serverWaits)

end Machine

/-! Scripts. -/

section Script

variable {Event Move : Type} {script : Nat → Event} {events more : List Event}

def Follows (script : Nat → Event) (events : List Event) : Prop :=
  events = (List.range events.length).map script

def Continues (script : Nat → Event) (done : Nat) (more : List Event) : Prop :=
  more = (List.range more.length).map fun index => script (done + index)

theorem follows_nil : Follows script [] := rfl

theorem continues_nil {done : Nat} : Continues script done [] := rfl

theorem continues_one {done : Nat} {event : Event} (next : event = script done) :
    Continues script done [event] := by
  simp [Continues, next]

theorem continues_two {done : Nat} {first second : Event} (next : first = script done)
    (last : second = script (done + 1)) : Continues script done [first, second] := by
  simp [Continues, next, last, List.range_succ]

theorem Follows.append (follows : Follows script events)
    (continues : Continues script events.length more) : Follows script (events ++ more) := by
  unfold Follows at *
  rw [List.length_append, List.range_add, List.map_append, ← follows, List.map_map]
  exact congrArg _ continues

def rounds (size : Nat) (move : Nat → Move) (index : Nat) : Move × Nat :=
  (move (index % size), index / size)

theorem rounds_eq {size position : Nat} (move : Nat → Move) (round : Nat)
    (inside : position < size) : rounds size move (size * round + position) = (move position, round) := by
  simp only [rounds, Nat.mul_add_mod, Nat.mod_eq_of_lt inside]
  rw [Nat.mul_add_div (by omega), Nat.div_eq_of_lt inside, Nat.add_zero]

end Script

end Transition
