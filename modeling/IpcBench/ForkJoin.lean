import Mathlib.Algebra.Group.Basic
import Mathlib.Algebra.GroupWithZero.Nat
import Mathlib.Algebra.Ring.Int.Defs

/-!
Threads that start others and wait for them, over one shared state. The activities that are
under way form a tree; a step is one of a single activity, which may replace itself by a tree of
its own, or the join of two that have returned. The rules here lead from single activities to
trees: what is counted, what is owed, what is left to do, and that someone can go on.
-/

namespace ForkJoin

/-- The left one of two activities runs in a thread of its own. -/
inductive Threads (Local : Type)
  | leaf (activity : Local)
  | both (left right : Threads Local)
  | returned
deriving DecidableEq, Repr

inductive Position
  | here
  | left (rest : Position)
  | right (rest : Position)
deriving DecidableEq, Repr

variable {Local Shared : Type}

namespace Threads

def at? : Threads Local → Position → Option Local
  | .leaf activity, .here => some activity
  | .both left _, .left turn => left.at? turn
  | .both _ right, .right turn => right.at? turn
  | _, _ => none

def step (act : Local → Shared → Option (Threads Local × Shared)) :
    Threads Local → Position → Shared → Option (Threads Local × Shared)
  | .leaf activity, .here, shared => act activity shared
  | .both .returned .returned, .here, shared => some (.returned, shared)
  | .both left right, .left turn, shared =>
      (left.step act turn shared).map fun result => (.both result.1 right, result.2)
  | .both left right, .right turn, shared =>
      (right.step act turn shared).map fun result => (.both left result.1, result.2)
  | _, _, _ => none

def All (Good : Local → Prop) : Threads Local → Prop
  | .leaf activity => Good activity
  | .both left right => left.All Good ∧ right.All Good
  | .returned => True

def total {Amount : Type} [Add Amount] [Zero Amount] (amount : Local → Amount) :
    Threads Local → Amount
  | .leaf activity => amount activity
  | .both left right => left.total amount + right.total amount
  | .returned => 0

def work (amount : Local → Nat) : Threads Local → Nat
  | .leaf activity => amount activity
  | .both left right => left.work amount + right.work amount + 1
  | .returned => 0

end Threads

variable {act : Local → Shared → Option (Threads Local × Shared)} {tree next : Threads Local}
  {shared after : Shared} {turn : Position}

inductive Steps (act : Local → Shared → Option (Threads Local × Shared)) :
    Threads Local → Shared → Threads Local → Shared → Prop
  | leaf {activity : Local} {tree : Threads Local} {before later : Shared}
      (acted : act activity before = some (tree, later)) : Steps act (.leaf activity) before tree later
  | join {before : Shared} : Steps act (.both .returned .returned) before .returned before
  | left {tree moved right : Threads Local} {before later : Shared}
      (moves : Steps act tree before moved later) :
      Steps act (.both tree right) before (.both moved right) later
  | right {tree moved left : Threads Local} {before later : Shared}
      (moves : Steps act tree before moved later) :
      Steps act (.both left tree) before (.both left moved) later

theorem Threads.step_inv (taken : tree.step act turn shared = some (next, after)) :
    Steps act tree shared next after := by
  induction tree generalizing turn next with
  | leaf activity =>
      cases turn with
      | here => exact .leaf taken
      | left turn => cases taken
      | right turn => cases taken
  | returned => cases turn <;> cases taken
  | both left right ihLeft ihRight =>
      cases turn with
      | here =>
          cases left with
          | returned =>
              cases right with
              | returned =>
                  cases taken
                  exact .join
              | _ => cases taken
          | _ => cases taken
      | left turn =>
          simp only [Threads.step, Option.map_eq_some_iff] at taken
          obtain ⟨⟨moved, _⟩, found, same⟩ := taken
          cases same
          exact .left (ihLeft found)
      | right turn =>
          simp only [Threads.step, Option.map_eq_some_iff] at taken
          obtain ⟨⟨moved, _⟩, found, same⟩ := taken
          cases same
          exact .right (ihRight found)

theorem Threads.All.imp {Good Better : Local → Prop} (amount : Local → Nat)
    (all : tree.All Good)
    (better : ∀ activity, amount activity ≤ tree.total amount → Good activity → Better activity) :
    tree.All Better := by
  induction tree with
  | leaf activity => exact better activity (Nat.le_refl _) all
  | returned => trivial
  | both left right ihLeft ihRight =>
      constructor
      · refine ihLeft all.1 fun activity most => better activity ?_
        exact Nat.le_trans most (Nat.le_add_right _ _)
      · refine ihRight all.2 fun activity most => better activity ?_
        exact Nat.le_trans most (Nat.le_add_left _ _)

theorem Threads.All.and {Good Other Both : Local → Prop} (good : tree.All Good)
    (other : tree.All Other) (both : ∀ {activity}, Good activity → Other activity → Both activity) :
    tree.All Both := by
  induction tree with
  | leaf activity => exact both good other
  | returned => trivial
  | both left right ihLeft ihRight =>
      exact ⟨ihLeft good.1 other.1, ihRight good.2 other.2⟩

theorem Threads.total_sub {whole : Local → Int} {more less : Local → Nat}
    (parts : ∀ activity, whole activity = more activity - less activity) (tree : Threads Local) :
    tree.total whole = tree.total more - tree.total less := by
  induction tree with
  | leaf activity => exact parts activity
  | returned => rfl
  | both left right ihLeft ihRight =>
      simp only [Threads.total, ihLeft, ihRight]
      omega

namespace Steps

/-- Activities hold shares of a capacity. When each keeps the account and disturbs nobody whose
share fits beside its own, all of them do. -/
theorem accounted {held : Local → Nat} {capacity : Shared → Nat} {Good : Shared → Local → Prop}
    (rule : ∀ activity before tree later others, held activity + others = capacity before →
      Good before activity → act activity before = some (tree, later) →
        tree.total held + others = capacity later ∧ tree.All (Good later) ∧
          ∀ other, held other ≤ others → Good before other → Good later other)
    (steps : Steps act tree shared next after) {others : Nat}
    (counted : tree.total held + others = capacity shared) (good : tree.All (Good shared)) :
    next.total held + others = capacity after ∧ next.All (Good after) ∧
      ∀ other, held other ≤ others → Good shared other → Good after other := by
  induction steps generalizing others with
  | leaf acted => exact rule _ _ _ _ _ counted good acted
  | join => exact ⟨counted, trivial, fun _ _ good => good⟩
  | @left tree moved right before later moves ih =>
      simp only [Threads.total] at counted ⊢
      obtain ⟨kept, own, rest⟩ := @ih (right.total held + others) (by omega) good.1
      refine ⟨by omega, ⟨own, good.2.imp held fun other most => rest other (by omega)⟩, ?_⟩
      exact fun other most => rest other (by omega)
  | @right tree moved left before later moves ih =>
      simp only [Threads.total] at counted ⊢
      obtain ⟨kept, own, rest⟩ := @ih (left.total held + others) (by omega) good.2
      refine ⟨by omega, ⟨good.1.imp held fun other most => rest other (by omega), own⟩, ?_⟩
      exact fun other most => rest other (by omega)

/-- What has been done and what is owed stay the same in sum. -/
theorem conserved {Amount : Type} [AddCommMonoid Amount] {owed : Local → Amount}
    {done : Shared → Amount} {Good : Shared → Local → Prop}
    (rule : ∀ activity before tree later, Good before activity →
      act activity before = some (tree, later) →
        done later + tree.total owed = done before + owed activity)
    (steps : Steps act tree shared next after) (good : tree.All (Good shared)) :
    done after + next.total owed = done shared + tree.total owed := by
  induction steps with
  | leaf acted => exact rule _ _ _ _ good acted
  | join => simp only [Threads.total, add_zero]
  | left moves ih =>
      simp only [Threads.total]
      rw [← add_assoc, ih good.1, add_assoc]
  | @right tree moved left before later moves ih =>
      simp only [Threads.total]
      rw [add_left_comm, ih good.2, add_left_comm]

theorem total_le {amount : Local → Nat} {Good : Shared → Local → Prop}
    (rule : ∀ activity before tree later, Good before activity →
      act activity before = some (tree, later) → tree.total amount ≤ amount activity)
    (steps : Steps act tree shared next after) (good : tree.All (Good shared)) :
    next.total amount ≤ tree.total amount := by
  induction steps with
  | leaf acted => exact rule _ _ _ _ good acted
  | join => exact Nat.zero_le _
  | left moves ih =>
      have fewer := ih good.1
      simp only [Threads.total]
      omega
  | right moves ih =>
      have fewer := ih good.2
      simp only [Threads.total]
      omega

theorem work_lt {amount : Local → Nat} {Good : Shared → Local → Prop}
    (rule : ∀ activity before tree later, Good before activity →
      act activity before = some (tree, later) → tree.work amount < amount activity)
    (steps : Steps act tree shared next after) (good : tree.All (Good shared)) :
    next.work amount < tree.work amount := by
  induction steps with
  | leaf acted => exact rule _ _ _ _ good acted
  | join => exact Nat.zero_lt_one
  | left moves ih =>
      have lower := ih good.1
      simp only [Threads.work]
      omega
  | right moves ih =>
      have lower := ih good.2
      simp only [Threads.work]
      omega

end Steps

theorem Threads.exists_step {held : Local → Nat}
    (goes : ∀ activity, held activity = 0 ∨ ∃ result, act activity shared = some result)
    (free : (∀ activity, ∃ result, act activity shared = some result) ∨ 0 < tree.total held)
    (running : tree ≠ .returned) : ∃ turn result, tree.step act turn shared = some result := by
  induction tree with
  | leaf activity =>
      refine ⟨.here, ?_⟩
      rcases free with all | some
      · exact all activity
      · rcases goes activity with none | enabled
        · simp only [Threads.total] at some
          omega
        · exact enabled
  | returned => exact absurd rfl running
  | both left right ihLeft ihRight =>
      have inLeft : (∃ turn result, left.step act turn shared = some result) →
          ∃ turn result, (Threads.both left right).step act turn shared = some result := by
        rintro ⟨turn, result, taken⟩
        exact ⟨.left turn, _, by rw [Threads.step, taken]; rfl⟩
      have inRight : (∃ turn result, right.step act turn shared = some result) →
          ∃ turn result, (Threads.both left right).step act turn shared = some result := by
        rintro ⟨turn, result, taken⟩
        exact ⟨.right turn, _, by rw [Threads.step, taken]; rfl⟩
      rcases free with all | some
      · by_cases first : left = .returned
        · by_cases second : right = .returned
          · subst first second
            exact ⟨.here, _, rfl⟩
          · exact inRight (ihRight (Or.inl all) second)
        · exact inLeft (ihLeft (Or.inl all) first)
      · simp only [Threads.total] at some
        rcases Nat.eq_zero_or_pos (left.total held) with none | more
        · refine inRight (ihRight (Or.inr (by omega)) ?_)
          rintro rfl
          simp only [Threads.total] at some
          omega
        · refine inLeft (ihLeft (Or.inr more) ?_)
          rintro rfl
          exact absurd more (Nat.lt_irrefl 0)

end ForkJoin
