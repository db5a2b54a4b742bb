import Mathlib

/-!
# Maps keyed by names

`NameMap` models a hash map: only insertion and lookup matter, so the newest
entry shadows the older ones.  `SortedMap` models an ordered map, whose
iteration order is observable: its entries are kept in increasing key order.
-/

namespace NetLang

/-- A hash map from names, newest entry first. -/
abbrev NameMap (α : Type) := List (String × α)

namespace NameMap

variable {α β : Type}

def get? (map : NameMap α) (key : String) : Option α :=
  List.lookup key map

def insert (map : NameMap α) (key : String) (value : α) : NameMap α :=
  (key, value) :: map

@[simp] theorem get?_nil (key : String) :
    get? ([] : NameMap α) key = none :=
  rfl

@[simp] theorem get?_insert_self (map : NameMap α) (key : String)
    (value : α) : (map.insert key value).get? key = some value := by
  simp [get?, insert]

theorem get?_insert (map : NameMap α) (key other : String) (value : α) :
    (map.insert key value).get? other =
      if other = key then some value else map.get? other := by
  by_cases same : other = key
  · subst same
    simp
  · have different : (other == key) = false := by simpa using same
    simp [get?, insert, List.lookup_cons, different, same]

end NameMap

/-- An ordered map from names, as its entries in increasing key order. -/
abbrev SortedMap (α : Type) := List (String × α)

namespace SortedMap

variable {α β : Type}

def get? (map : SortedMap α) (key : String) : Option α :=
  List.lookup key map

def contains (map : SortedMap α) (key : String) : Bool :=
  (get? map key).isSome

/-- Insert or replace, keeping the keys in increasing order. -/
def insert : SortedMap α → String → α → SortedMap α
  | [], key, value => [(key, value)]
  | (head, old) :: tail, key, value =>
      if key = head then (key, value) :: tail
      else if key < head then (key, value) :: (head, old) :: tail
      else (head, old) :: insert tail key value

theorem get?_insert (map : SortedMap α) (key other : String) (value : α) :
    get? (insert map key value) other =
      if other = key then some value else get? map other := by
  induction map with
  | nil =>
      by_cases same : other = key
      · simp [insert, get?, same]
      · have different : (other == key) = false := by simpa using same
        simp [insert, get?, List.lookup_cons, different, same]
  | cons entry tail induction =>
      obtain ⟨head, old⟩ := entry
      unfold insert
      split
      · next sameHead =>
          subst sameHead
          by_cases same : other = key
          · simp [get?, same]
          · have different : (other == key) = false := by simpa using same
            simp [get?, List.lookup_cons, different, same]
      · next differentHead =>
          split
          · by_cases same : other = key
            · simp [get?, same]
            · have different : (other == key) = false := by simpa using same
              simp [get?, List.lookup_cons, different, same]
          · by_cases atHead : other = head
            · subst atHead
              have different : other ≠ key := fun same =>
                differentHead same.symm
              simp [get?, different]
            · have notHead : (other == head) = false := by simpa using atHead
              simp only [get?, List.lookup_cons, notHead] at induction ⊢
              exact induction

@[simp] theorem get?_insert_self (map : SortedMap α) (key : String)
    (value : α) : get? (insert map key value) key = some value := by
  rw [get?_insert, if_pos rfl]

theorem mem_insert {map : SortedMap α} {key : String} {value : α}
    {entry : String × α} (member : entry ∈ insert map key value) :
    entry = (key, value) ∨ entry ∈ map := by
  induction map with
  | nil => simpa [insert] using member
  | cons head tail induction =>
      obtain ⟨headKey, old⟩ := head
      unfold insert at member
      split at member
      · rcases List.mem_cons.mp member with first | later
        · exact .inl first
        · exact .inr (List.mem_cons_of_mem _ later)
      · split at member
        · rcases List.mem_cons.mp member with first | later
          · exact .inl first
          · exact .inr later
        · rcases List.mem_cons.mp member with first | later
          · exact .inr (first ▸ List.mem_cons_self)
          · rcases induction later with new | kept
            · exact .inl new
            · exact .inr (List.mem_cons_of_mem _ kept)

theorem mem_of_get? {map : SortedMap α} {key : String} {value : α}
    (found : get? map key = some value) : (key, value) ∈ map := by
  induction map with
  | nil => simp [get?] at found
  | cons entry tail induction =>
      obtain ⟨head, old⟩ := entry
      simp only [get?, List.lookup_cons] at found
      split at found
      · next same =>
          have keyEq : key = head := by simpa using same
          cases found
          simp [keyEq]
      · exact List.mem_cons_of_mem _ (induction found)

/-- The keys of an ordered map increase. -/
def Ordered (map : SortedMap α) : Prop :=
  map.Pairwise fun entry later => entry.1 < later.1

/-- An ordered map has one entry for each key. -/
theorem Ordered.unique {map : SortedMap α} {key : String} {value other : α}
    (ordered : Ordered map) (member : (key, value) ∈ map)
    (member' : (key, other) ∈ map) : value = other := by
  induction map with
  | nil => cases member
  | cons entry tail induction =>
      obtain ⟨above, later⟩ := List.pairwise_cons.mp ordered
      rcases List.mem_cons.mp member with rfl | inside
      · rcases List.mem_cons.mp member' with same | inside'
        · exact (Prod.mk.inj same).2.symm
        · exact absurd rfl (above _ inside').ne
      · rcases List.mem_cons.mp member' with rfl | inside'
        · exact absurd rfl (above _ inside).ne
        · exact induction later inside inside'

theorem insert_ordered {map : SortedMap α} {key : String} {value : α}
    (ordered : Ordered map) : Ordered (insert map key value) := by
  induction map with
  | nil => exact List.pairwise_singleton _ _
  | cons entry tail induction =>
      obtain ⟨head, old⟩ := entry
      obtain ⟨above, later⟩ := List.pairwise_cons.mp ordered
      unfold insert
      split
      · next same =>
          subst same
          exact List.pairwise_cons.mpr ⟨above, later⟩
      · next different =>
          split
          · next below =>
              refine List.pairwise_cons.mpr ⟨?_, ordered⟩
              intro entry member
              rcases List.mem_cons.mp member with rfl | inside
              · exact below
              · exact below.trans (above entry inside)
          · next notBelow =>
              have beyond : head < key :=
                lt_of_le_of_ne (not_lt.mp notBelow) (Ne.symm different)
              refine List.pairwise_cons.mpr ⟨?_, induction later⟩
              intro entry member
              rcases mem_insert member with rfl | inside
              · exact beyond
              · exact above entry inside

theorem get?_eq_none_of_lt {map : SortedMap α} {key : String}
    (below : ∀ entry ∈ map, key < entry.1) : get? map key = none := by
  rw [get?, List.lookup_eq_none_iff]
  intro entry member
  simpa using (below entry member).ne

theorem get?_cons_self (key : String) (value : α) (map : SortedMap α) :
    get? ((key, value) :: map) key = some value := by
  simp [get?]

theorem get?_cons_of_ne {key other : String} (value : α) (map : SortedMap α)
    (different : other ≠ key) :
    get? ((key, value) :: map) other = get? map other := by
  have distinct : (other == key) = false := by simpa using different
  simp [get?, List.lookup_cons, distinct]

/-- Entry by entry is the same as key by key. -/
theorem forall₂_iff_get? {R : α → β → Prop} {left : SortedMap α}
    {right : SortedMap β} (ordered : Ordered left) (ordered' : Ordered right) :
    List.Forall₂ (fun entry entry' =>
        entry.1 = entry'.1 ∧ R entry.2 entry'.2) left right ↔
      ∀ key, Option.Rel R (get? left key) (get? right key) := by
  constructor
  · intro related key
    induction related with
    | nil => exact .none
    | @cons entry entry' tail tail' both rest induction =>
        obtain ⟨head, a⟩ := entry
        obtain ⟨head', b⟩ := entry'
        obtain ⟨rfl, holds⟩ : head = head' ∧ R a b := both
        by_cases same : key = head
        · subst same
          rw [get?_cons_self, get?_cons_self]
          exact .some holds
        · rw [get?_cons_of_ne a tail same, get?_cons_of_ne b tail' same]
          exact induction (List.pairwise_cons.mp ordered).2
            (List.pairwise_cons.mp ordered').2
  · intro related
    induction left generalizing right with
    | nil =>
        cases right with
        | nil => exact .nil
        | cons entry' tail' =>
            have missing := related entry'.1
            rw [get?_cons_self entry'.1 entry'.2 tail'] at missing
            cases missing
    | cons entry tail induction =>
        obtain ⟨head, a⟩ := entry
        obtain ⟨above, later⟩ := List.pairwise_cons.mp ordered
        cases right with
        | nil =>
            have missing := related head
            rw [get?_cons_self] at missing
            cases missing
        | cons entry' tail' =>
            obtain ⟨head', b⟩ := entry'
            obtain ⟨above', later'⟩ := List.pairwise_cons.mp ordered'
            have same : head = head' := by
              obtain below | same | below := lt_trichotomy head head'
              · have missing := related head
                rw [get?_cons_self, get?_eq_none_of_lt] at missing
                · cases missing
                · intro entry member
                  rcases List.mem_cons.mp member with rfl | inside
                  · exact below
                  · exact below.trans (above' entry inside)
              · exact same
              · have missing := related head'
                rw [get?_cons_self head' b, get?_eq_none_of_lt] at missing
                · cases missing
                · intro entry member
                  rcases List.mem_cons.mp member with rfl | inside
                  · exact below
                  · exact below.trans (above entry inside)
            subst same
            have holds := related head
            rw [get?_cons_self, get?_cons_self] at holds
            cases holds with
            | some holds =>
                refine .cons ⟨rfl, holds⟩ (induction later later' ?_)
                intro key
                by_cases atHead : key = head
                · subst atHead
                  rw [get?_eq_none_of_lt above, get?_eq_none_of_lt above']
                  exact .none
                · have found := related key
                  rwa [get?_cons_of_ne a tail atHead,
                    get?_cons_of_ne b tail' atHead] at found

end SortedMap

theorem optionRel_mono {α β : Type} {post weaker : α → β → Prop}
    {a : Option α} {b : Option β} (related : Option.Rel post a b)
    (implies : ∀ x y, post x y → weaker x y) : Option.Rel weaker a b := by
  cases related with
  | none => exact .none
  | some holds => exact .some (implies _ _ holds)

end NetLang
