import Mathlib

/-!
# Depth-first search for a cycle

A search from a node through the successors of the nodes, until one of them is
the node itself.  The nodes that are not entered yet bound the search.
-/

namespace NetLang

universe u

namespace Search

variable {α : Type u} [DecidableEq α] {next : α → List α} {start : α}

/-- An edge leads from a node to each of its successors. -/
def Edge (next : α → List α) (node other : α) : Prop :=
  other ∈ next node

/-- There is no answer if the fuel runs out. -/
def seek (next : α → List α) (start : α) :
    Nat → List α → List α → Option Bool
  | 0, _, _ => none
  | _ + 1, [], _ => some false
  | fuel + 1, node :: pending, seen =>
      if node ∈ seen then seek next start fuel pending seen
      else if start ∈ next node then some true
      else seek next start fuel ((next node).reverse ++ pending)
        (node :: seen)

/-- The pending nodes, and the successors of the nodes that are not seen. -/
def work (next : α → List α) (nodes pending seen : List α) : Nat :=
  pending.length +
    ((nodes.filter fun node => node ∉ seen).map fun node =>
      (next node).length).sum

theorem work_enter {nodes pending seen : List α} {node : α}
    (distinct : nodes.Nodup) (known : node ∈ nodes) (fresh : node ∉ seen) :
    work next nodes ((next node).reverse ++ pending) (node :: seen) + 1 =
      work next nodes (node :: pending) seen := by
  have rest : ∀ others : List α, node ∉ others →
      (others.filter fun other => other ∉ node :: seen) =
        others.filter fun other => other ∉ seen := by
    intro others absent
    apply List.filter_congr
    intro other member
    have different : other ≠ node := by
      intro same
      exact absent (same ▸ member)
    simp [different]
  obtain ⟨front, back, rfl⟩ := List.append_of_mem known
  have parts := List.nodup_append.mp distinct
  have inFront : node ∉ front := by
    intro member
    exact parts.2.2 node member node (by simp) rfl
  have inBack : node ∉ back := (List.nodup_cons.mp parts.2.1).1
  unfold work
  rw [List.filter_append, List.filter_append, List.filter_cons,
    List.filter_cons, rest front inFront, rest back inBack]
  simp only [List.mem_cons, true_or, not_true, decide_false, fresh,
    not_false_eq_true, decide_true, if_true, List.length_append,
    List.length_reverse, List.length_cons, List.map_append, List.map_cons,
    List.sum_append, List.sum_cons]
  simp
  omega

/-- A search ends if each node of its graph is known. -/
theorem seek_ends {nodes pending seen : List α} {fuel : Nat}
    (distinct : nodes.Nodup) (closed : ∀ node, ∀ other ∈ next node,
      other ∈ nodes) (known : ∀ node ∈ pending, node ∈ nodes)
    (enough : work next nodes pending seen < fuel) :
    ∃ answer, seek next start fuel pending seen = some answer := by
  induction fuel generalizing pending seen with
  | zero => exact absurd enough (Nat.not_lt_zero _)
  | succ fuel induction =>
      cases pending with
      | nil => exact ⟨false, rfl⟩
      | cons node pending =>
          rw [List.forall_mem_cons] at known
          rw [seek]
          by_cases entered : node ∈ seen
          · rw [if_pos entered]
            apply induction known.2
            simp only [work, List.length_cons] at enough ⊢
            omega
          · rw [if_neg entered]
            by_cases found : start ∈ next node
            · exact ⟨true, if_pos found⟩
            · rw [if_neg found]
              apply induction
              · intro other member
                cases List.mem_append.mp member with
                | inl successor =>
                    exact closed node other (List.mem_reverse.mp successor)
                | inr pending => exact known.2 other pending
              · have measured : work next nodes
                    ((next node).reverse ++ pending) (node :: seen) + 1 =
                      work next nodes (node :: pending) seen :=
                  work_enter distinct known.1 entered
                omega

/-- What a search has found out. -/
structure Explored (next : α → List α) (start : α)
    (pending seen : List α) : Prop where
  reached : ∀ node ∈ pending ++ seen,
    Relation.ReflTransGen (Edge next) start node
  started : start ∈ pending ++ seen
  closed : ∀ node ∈ seen, ∀ other ∈ next node, other ∈ pending ++ seen
  missed : ∀ node ∈ seen, start ∉ next node

omit [DecidableEq α] in
theorem Explored.initial : Explored next start [start] [] := by
  constructor
  · intro node member
    rw [List.append_nil, List.mem_singleton] at member
    rw [member]
  · simp
  · simp
  · simp

omit [DecidableEq α] in
theorem Explored.skip {node : α} {pending seen : List α}
    (explored : Explored next start (node :: pending) seen)
    (entered : node ∈ seen) : Explored next start pending seen := by
  have kept : ∀ other ∈ node :: pending ++ seen,
      other ∈ pending ++ seen := by
    intro other member
    rw [List.cons_append, List.mem_cons] at member
    cases member with
    | inl same => simp [same, entered]
    | inr rest => exact rest
  constructor
  · intro other member
    exact explored.reached other (List.mem_cons_of_mem _ member)
  · exact kept start explored.started
  · intro other member successor edge
    exact kept successor (explored.closed other member successor edge)
  · exact explored.missed

omit [DecidableEq α] in
theorem Explored.enter {node : α} {pending seen : List α}
    (explored : Explored next start (node :: pending) seen)
    (missed : start ∉ next node) :
    Explored next start ((next node).reverse ++ pending) (node :: seen) := by
  have kept : ∀ other ∈ node :: pending ++ seen,
      other ∈ (next node).reverse ++ pending ++ node :: seen := by
    intro other member
    simp only [List.cons_append, List.mem_cons, List.mem_append] at member ⊢
    tauto
  constructor
  · intro other member
    simp only [List.mem_append, List.mem_reverse, List.mem_cons] at member
    obtain (successor | rest) | same | rest := member
    · exact (explored.reached node (by simp)).tail successor
    · exact explored.reached other (by simp [rest])
    · exact explored.reached other (by simp [same])
    · exact explored.reached other (by simp [rest])
  · exact kept start explored.started
  · intro other member successor edge
    cases List.mem_cons.mp member with
    | inl same =>
        subst same
        simp [edge]
    | inr member =>
        exact kept successor (explored.closed other member successor edge)
  · rw [List.forall_mem_cons]
    exact ⟨missed, explored.missed⟩

omit [DecidableEq α] in
/-- A search without pending nodes has seen every node that is reached. -/
theorem Explored.finished {seen : List α}
    (explored : Explored next start [] seen) :
    ¬ Relation.TransGen (Edge next) start start := by
  have every : ∀ node, Relation.ReflTransGen (Edge next) start node →
      node ∈ seen := by
    intro node reached
    induction reached with
    | refl => exact explored.started
    | tail _ edge induction => exact explored.closed _ induction _ edge
  intro cycle
  obtain ⟨node, reached, edge⟩ := Relation.TransGen.tail'_iff.mp cycle
  exact explored.missed node (every node reached) edge

/-- The answer of a search is whether its start lies on a cycle. -/
theorem seek_exact {pending seen : List α} {fuel : Nat} {answer : Bool}
    (explored : Explored next start pending seen)
    (found : seek next start fuel pending seen = some answer) :
    answer = true ↔ Relation.TransGen (Edge next) start start := by
  induction fuel generalizing pending seen with
  | zero => cases found
  | succ fuel induction =>
      cases pending with
      | nil =>
          cases found
          simp [explored.finished]
      | cons node pending =>
          rw [seek] at found
          split at found
          case isTrue entered => exact induction (explored.skip entered) found
          case isFalse fresh =>
            split at found
            case isTrue edge =>
              cases found
              have reached := explored.reached node (by simp)
              simp [Relation.TransGen.tail' reached edge]
            case isFalse missed =>
              exact induction (explored.enter missed) found

end Search

end NetLang
