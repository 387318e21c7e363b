import Mathlib.Data.List.Nodup
import Mathlib.Data.List.Perm.Subperm
import Mathlib.Logic.Relation

/-! # Exploring a finite graph

A worklist holds the nodes still to be visited.  The loop visits one of them and
adds those of its children that were not visited yet.  Every iteration visits a
new node, so as many iterations as there are nodes empty the list; what was
visited is then closed under children, and holds nothing but what can be reached
from the nodes the loop began with. -/

namespace Worklist

open List

variable {α : Type} [DecidableEq α] (children : α → List α)

/-- The children that were not visited join the worklist. -/
def enqueue (visited stage nodes : List α) : List α :=
  nodes.foldl (fun stage node => if node ∈ visited then stage else stage.insert node) stage

/-- At most `fuel` iterations of the loop. -/
def explore : Nat → List α → List α → List α
  | 0, _, visited => visited
  | _ + 1, [], visited => visited
  | fuel + 1, node :: stage, visited =>
    explore fuel (enqueue (node :: visited) stage (children node)) (node :: visited)

theorem mem_enqueue {visited stage nodes : List α} {a : α} :
    a ∈ enqueue visited stage nodes ↔ a ∈ stage ∨ a ∈ nodes ∧ a ∉ visited := by
  induction nodes generalizing stage with
  | nil => simp [enqueue]
  | cons node rest ih =>
    rw [enqueue, foldl_cons, ← enqueue, ih]
    by_cases seen : node ∈ visited
    · rw [if_pos seen]
      constructor
      · rintro (old | ⟨new, fresh⟩)
        · exact .inl old
        · exact .inr ⟨mem_cons_of_mem _ new, fresh⟩
      · rintro (old | ⟨new, fresh⟩)
        · exact .inl old
        · rcases mem_cons.mp new with rfl | new
          · exact absurd seen fresh
          · exact .inr ⟨new, fresh⟩
    · rw [if_neg seen, mem_insert_iff]
      constructor
      · rintro ((rfl | old) | ⟨new, fresh⟩)
        · exact .inr ⟨mem_cons_self, seen⟩
        · exact .inl old
        · exact .inr ⟨mem_cons_of_mem _ new, fresh⟩
      · rintro (old | ⟨new, fresh⟩)
        · exact .inl (.inr old)
        · rcases mem_cons.mp new with rfl | new
          · exact .inl (.inl rfl)
          · exact .inr ⟨new, fresh⟩

theorem nodup_enqueue {visited stage nodes : List α} (nodup : stage.Nodup) :
    (enqueue visited stage nodes).Nodup := by
  induction nodes generalizing stage with
  | nil => exact nodup
  | cons node rest ih =>
    rw [enqueue, foldl_cons, ← enqueue]
    apply ih
    split
    · exact nodup
    · exact List.Nodup.insert nodup

/-- Nothing is visited that cannot be reached. -/
theorem mem_explore {fuel : Nat} {stage visited : List α} {a : α}
    (member : a ∈ explore children fuel stage visited) :
    a ∈ visited ∨ ∃ s ∈ stage, Relation.ReflTransGen (fun a b => b ∈ children a) s a := by
  induction fuel generalizing stage visited with
  | zero => exact .inl member
  | succ fuel ih =>
    cases stage with
    | nil => exact .inl member
    | cons node stage =>
      rcases ih member with seen | ⟨s, staged, path⟩
      · rcases mem_cons.mp seen with rfl | seen
        · exact .inr ⟨a, mem_cons_self, .refl⟩
        · exact .inl seen
      · right
        rcases mem_enqueue.mp staged with old | ⟨child, _⟩
        · exact ⟨s, mem_cons_of_mem _ old, path⟩
        · exact ⟨node, mem_cons_self, .head child path⟩

theorem subset_explore {fuel : Nat} {stage visited : List α} :
    ∀ a ∈ visited, a ∈ explore children fuel stage visited := by
  induction fuel generalizing stage visited with
  | zero => exact fun a member => member
  | succ fuel ih =>
    cases stage with
    | nil => exact fun a member => member
    | cons node stage => exact fun a member => ih a (mem_cons_of_mem _ member)

/-- What the loop needs to know of a worklist over the given nodes. -/
structure Ready (nodes stage visited : List α) : Prop where
  stageNodup : stage.Nodup
  visitedNodup : visited.Nodup
  fresh : ∀ a ∈ stage, a ∉ visited
  stageNodes : ∀ a ∈ stage, a ∈ nodes
  visitedNodes : ∀ a ∈ visited, a ∈ nodes
  pending : ∀ a ∈ visited, ∀ c ∈ children a, c ∈ visited ∨ c ∈ stage

variable {children}

theorem Ready.next {nodes stage visited : List α} {node : α}
    (ready : Ready children nodes (node :: stage) visited)
    (inside : ∀ a ∈ nodes, ∀ c ∈ children a, c ∈ nodes) :
    Ready children nodes (enqueue (node :: visited) stage (children node)) (node :: visited) := by
  obtain ⟨notStaged, stageNodup⟩ := nodup_cons.mp ready.stageNodup
  have isNode := ready.stageNodes node mem_cons_self
  have isFresh := ready.fresh node mem_cons_self
  refine ⟨nodup_enqueue stageNodup, nodup_cons.mpr ⟨isFresh, ready.visitedNodup⟩, ?_, ?_, ?_, ?_⟩
  · intro a staged
    rcases mem_enqueue.mp staged with old | ⟨_, new⟩
    · intro seen
      rcases mem_cons.mp seen with rfl | seen
      · exact notStaged old
      · exact ready.fresh a (mem_cons_of_mem _ old) seen
    · exact new
  · intro a staged
    rcases mem_enqueue.mp staged with old | ⟨child, _⟩
    · exact ready.stageNodes a (mem_cons_of_mem _ old)
    · exact inside node isNode a child
  · intro a seen
    rcases mem_cons.mp seen with rfl | seen
    · exact isNode
    · exact ready.visitedNodes a seen
  · intro a seen c child
    by_cases done : c ∈ node :: visited
    · exact .inl done
    · right
      apply mem_enqueue.mpr
      rcases mem_cons.mp seen with rfl | seen
      · exact .inr ⟨child, done⟩
      · rcases ready.pending a seen c child with old | old
        · exact absurd (mem_cons_of_mem _ old) done
        · rcases mem_cons.mp old with rfl | old
          · exact absurd mem_cons_self done
          · exact .inl old

/-- With enough fuel the loop visits the whole worklist and ends closed. -/
theorem Ready.explore {nodes : List α} (inside : ∀ a ∈ nodes, ∀ c ∈ children a, c ∈ nodes)
    {fuel : Nat} {stage visited : List α} (ready : Ready children nodes stage visited)
    (enough : nodes.length ≤ fuel + visited.length) :
    (∀ a ∈ stage, a ∈ explore children fuel stage visited) ∧
      ∀ a ∈ explore children fuel stage visited, ∀ c ∈ children a,
        c ∈ explore children fuel stage visited := by
  have ended : ∀ {visited : List α}, Ready children nodes [] visited →
      (∀ a ∈ ([] : List α), a ∈ visited) ∧ ∀ a ∈ visited, ∀ c ∈ children a, c ∈ visited := by
    intro visited ready
    refine ⟨by simp, fun a seen c child => ?_⟩
    exact (ready.pending a seen c child).resolve_right (by simp)
  induction fuel generalizing stage visited with
  | zero =>
    cases stage with
    | nil => exact ended ready
    | cons node stage =>
      -- one node more than there are
      have nodup : (node :: visited).Nodup :=
        nodup_cons.mpr ⟨ready.fresh node mem_cons_self, ready.visitedNodup⟩
      have subset : node :: visited ⊆ nodes :=
        cons_subset.mpr ⟨ready.stageNodes node mem_cons_self, ready.visitedNodes⟩
      have size := (subperm_of_subset nodup subset).length_le
      simp only [length_cons] at size
      omega
  | succ fuel ih =>
    cases stage with
    | nil => exact ended ready
    | cons node stage =>
      obtain ⟨staged, closed⟩ := ih (ready.next inside) (by simp only [length_cons]; omega)
      refine ⟨?_, closed⟩
      intro a member
      rcases mem_cons.mp member with rfl | member
      · rw [Worklist.explore]
        exact subset_explore children a mem_cons_self
      · exact staged a (mem_enqueue.mpr (.inl member))

end Worklist
