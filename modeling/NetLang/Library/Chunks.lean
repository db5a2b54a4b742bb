import Mathlib

/-!
# Consecutive chunks of a list
-/

namespace NetLang

variable {α β : Type}

def chunksUpTo (width : Nat) : Nat → List α → List (List α)
  | _, [] => []
  | 0, _ => []
  | fuel + 1, values =>
      values.take width :: chunksUpTo width fuel (values.drop width)

/-- Consecutive chunks of the given width; only the last may be shorter. -/
def chunks (width : Nat) (values : List α) : List (List α) :=
  chunksUpTo width values.length values

theorem mem_of_mem_chunksUpTo {width : Nat} {value : α} :
    ∀ {fuel : Nat} {values list : List α},
      list ∈ chunksUpTo width fuel values → value ∈ list → value ∈ values
  | _, [], _, member, _ => by
      simp [chunksUpTo] at member
  | 0, _ :: _, _, member, _ => by
      cases member
  | fuel + 1, head :: tail, list, member, inside => by
      rcases List.mem_cons.mp member with rfl | later
      · exact List.mem_of_mem_take inside
      · exact List.mem_of_mem_drop (mem_of_mem_chunksUpTo later inside)

theorem mem_of_mem_chunks {width : Nat} {value : α} {values list : List α}
    (member : list ∈ chunks width values) (inside : value ∈ list) :
    value ∈ values :=
  mem_of_mem_chunksUpTo member inside

theorem chunksUpTo_enough {width : Nat} (positive : 0 < width) :
    ∀ (fuel fuel' : Nat) (values : List α), values.length ≤ fuel →
      values.length ≤ fuel' →
      chunksUpTo width fuel values = chunksUpTo width fuel' values := by
  intro fuel
  induction fuel with
  | zero =>
      intro fuel' values short _
      cases values with
      | nil => cases fuel' <;> rfl
      | cons head tail => simp at short
  | succ fuel induction =>
      intro fuel' values short short'
      cases values with
      | nil => cases fuel' <;> rfl
      | cons head tail =>
          cases fuel' with
          | zero => simp at short'
          | succ fuel' =>
              have shorter : ((head :: tail).drop width).length ≤ fuel ∧
                  ((head :: tail).drop width).length ≤ fuel' := by
                simp only [List.length_drop, List.length_cons] at short short' ⊢
                omega
              simp only [chunksUpTo, induction fuel' _ shorter.1 shorter.2]

/-- The first chunk, and the chunks of the rest. -/
theorem chunks_cons {width : Nat} (positive : 0 < width) (head : α)
    (tail : List α) :
    chunks width (head :: tail) =
      (head :: tail).take width :: chunks width ((head :: tail).drop width) := by
  have shorter : ((head :: tail).drop width).length ≤ tail.length := by
    simp only [List.length_drop, List.length_cons]
    omega
  simp only [chunks, List.length_cons, chunksUpTo,
    chunksUpTo_enough positive _ _ _ shorter le_rfl]

theorem chunksUpTo_forall₂ {related : α → β → Prop} (width : Nat) :
    ∀ (fuel : Nat) {values : List α} {values' : List β},
      List.Forall₂ related values values' →
      List.Forall₂ (List.Forall₂ related) (chunksUpTo width fuel values)
        (chunksUpTo width fuel values') := by
  intro fuel
  induction fuel with
  | zero =>
      intro values values' pairs
      cases pairs <;> exact .nil
  | succ fuel induction =>
      intro values values' pairs
      cases pairs with
      | nil => exact .nil
      | cons head tail =>
          have all := List.Forall₂.cons head tail
          exact .cons (List.forall₂_take width all)
            (induction (List.forall₂_drop width all))

/-- Related lists have related chunks. -/
theorem chunks_forall₂ {related : α → β → Prop} (width : Nat)
    {values : List α} {values' : List β}
    (pairs : List.Forall₂ related values values') :
    List.Forall₂ (List.Forall₂ related) (chunks width values)
      (chunks width values') := by
  unfold chunks
  rw [← pairs.length_eq]
  exact chunksUpTo_forall₂ width _ pairs

end NetLang
