import Mathlib.Data.List.Basic

/-!
# Regular expressions and longest matches

Expressions over classes of symbols.  A list of rules selects the rule with the
longest match, the earliest one among equals.
-/

namespace NetLang

universe u v

inductive Regex (α : Type u) where
  | none
  | empty
  | symbol (accepts : α → Bool)
  | seq (first second : Regex α)
  | alt (left right : Regex α)
  | star (inner : Regex α)

namespace Regex

variable {α : Type u} {β : Type v} {r s : Regex α} {a : α} {word : List α}

def plus (inner : Regex α) : Regex α :=
  .seq inner (.star inner)

/-- A given sequence of symbols. -/
def literal [DecidableEq α] : List α → Regex α
  | [] => .empty
  | [a] => .symbol (· = a)
  | a :: rest => .seq (.symbol (· = a)) (literal rest)

inductive Matches : Regex α → List α → Prop where
  | empty : Matches .empty []
  | symbol {accepts : α → Bool} {a : α} (accepted : accepts a = true) :
      Matches (.symbol accepts) [a]
  | seq {first second : Regex α} {front back : List α} :
      Matches first front → Matches second back →
      Matches (.seq first second) (front ++ back)
  | left {left right : Regex α} {word : List α} :
      Matches left word → Matches (.alt left right) word
  | right {left right : Regex α} {word : List α} :
      Matches right word → Matches (.alt left right) word
  | done {inner : Regex α} : Matches (.star inner) []
  | more {inner : Regex α} {a : α} {front back : List α} :
      Matches inner (a :: front) → Matches (.star inner) back →
      Matches (.star inner) (a :: (front ++ back))

@[simp] theorem matches_none : ¬ Matches .none word := by
  intro found
  cases found

@[simp] theorem matches_empty :
    Matches .empty word ↔ word = [] := by
  constructor
  · intro found
    cases found
    rfl
  · rintro rfl
    exact .empty

@[simp] theorem matches_symbol {accepts : α → Bool} :
    Matches (.symbol accepts) word ↔ ∃ a, accepts a = true ∧ word = [a] := by
  constructor
  · intro found
    cases found with
    | symbol accepted => exact ⟨_, accepted, rfl⟩
  · rintro ⟨a, accepted, rfl⟩
    exact .symbol accepted

theorem matches_seq :
    Matches (.seq r s) word ↔
      ∃ front back, word = front ++ back ∧ Matches r front ∧
        Matches s back := by
  constructor
  · intro found
    cases found with
    | seq first second => exact ⟨_, _, rfl, first, second⟩
  · rintro ⟨front, back, rfl, first, second⟩
    exact .seq first second

theorem matches_alt :
    Matches (.alt r s) word ↔ Matches r word ∨ Matches s word := by
  constructor
  · intro found
    cases found with
    | left found => exact .inl found
    | right found => exact .inr found
  · rintro (found | found)
    · exact .left found
    · exact .right found

theorem matches_star_cons :
    Matches (.star r) (a :: word) ↔
      ∃ front back, word = front ++ back ∧ Matches r (a :: front) ∧
        Matches (.star r) back := by
  constructor
  · intro found
    cases found with
    | more first rest => exact ⟨_, _, rfl, first, rest⟩
  · rintro ⟨front, back, rfl, first, rest⟩
    exact .more first rest

/-- A repeated class matches the words over that class. -/
theorem matches_star_symbol {accepts : α → Bool} :
    Matches (.star (.symbol accepts)) word ↔
      ∀ a ∈ word, accepts a = true := by
  induction word with
  | nil => simp [Matches.done]
  | cons a word induction =>
      rw [matches_star_cons, List.forall_mem_cons]
      constructor
      · rintro ⟨front, back, rfl, first, rest⟩
        obtain ⟨b, accepted, same⟩ := matches_symbol.mp first
        cases same
        exact ⟨accepted, induction.mp rest⟩
      · rintro ⟨accepted, rest⟩
        exact ⟨[], word, rfl, .symbol accepted, induction.mpr rest⟩

theorem matches_plus_symbol {accepts : α → Bool} :
    Matches (plus (.symbol accepts)) word ↔
      word ≠ [] ∧ ∀ a ∈ word, accepts a = true := by
  rw [plus, matches_seq]
  constructor
  · rintro ⟨front, back, rfl, first, rest⟩
    obtain ⟨a, accepted, rfl⟩ := matches_symbol.mp first
    simpa using ⟨accepted, matches_star_symbol.mp rest⟩
  · rintro ⟨filled, every⟩
    obtain ⟨a, rest, rfl⟩ := List.exists_cons_of_ne_nil filled
    rw [List.forall_mem_cons] at every
    exact ⟨[a], rest, rfl, .symbol every.1, matches_star_symbol.mpr every.2⟩

@[simp] theorem matches_literal [DecidableEq α] (letters : List α) :
    Matches (.literal letters) word ↔ word = letters := by
  induction letters generalizing word with
  | nil => simp [Regex.literal]
  | cons a letters induction =>
      cases letters with
      | nil => simp [Regex.literal]
      | cons b letters =>
          rw [Regex.literal, matches_seq]
          · simp [induction]
          · simp

def nullable : Regex α → Bool
  | .none => false
  | .empty => true
  | .symbol _ => false
  | .seq first second => first.nullable && second.nullable
  | .alt left right => left.nullable || right.nullable
  | .star _ => true

theorem nullable_iff : r.nullable = true ↔ Matches r [] := by
  induction r with
  | none => simp [nullable]
  | empty => simp [nullable]
  | symbol => simp [nullable]
  | seq first second first_iff second_iff =>
      simp [nullable, first_iff, second_iff, matches_seq]
  | alt left right left_iff right_iff =>
      simp [nullable, left_iff, right_iff, matches_alt]
  | star => simp [nullable, Matches.done]

/-- The alternatives of two expressions, without an empty one. -/
def join : Regex α → Regex α → Regex α
  | .none, right => right
  | left, .none => left
  | left, right => .alt left right

/-- The sequence of two expressions, which is empty if the first one is. -/
def chain : Regex α → Regex α → Regex α
  | .none, _ => .none
  | .empty, second => second
  | first, second => .seq first second

theorem matches_join :
    Matches (join r s) word ↔ Matches r word ∨ Matches s word := by
  unfold join
  split
  · simp
  · simp
  · exact matches_alt

theorem matches_chain :
    Matches (chain r s) word ↔ Matches (.seq r s) word := by
  unfold chain
  split
  · simp [matches_seq]
  · simp [matches_seq]
  · rfl

/-- What remains to be matched after one symbol. -/
def step (a : α) : Regex α → Regex α
  | .none => .none
  | .empty => .none
  | .symbol accepts => if accepts a then .empty else .none
  | .seq first second =>
      if first.nullable then
        join (chain (first.step a) second) (second.step a)
      else chain (first.step a) second
  | .alt left right => join (left.step a) (right.step a)
  | .star inner => chain (inner.step a) (.star inner)

theorem matches_seq_cons :
    Matches (.seq r s) (a :: word) ↔
      (∃ front back, word = front ++ back ∧ Matches r (a :: front) ∧
        Matches s back) ∨ (Matches r [] ∧ Matches s (a :: word)) := by
  rw [matches_seq]
  constructor
  · rintro ⟨front, back, same, first, second⟩
    cases front with
    | nil =>
        cases same
        exact .inr ⟨first, second⟩
    | cons b front =>
        cases same
        exact .inl ⟨front, back, rfl, first, second⟩
  · rintro (⟨front, back, rfl, first, second⟩ | ⟨first, second⟩)
    · exact ⟨a :: front, back, rfl, first, second⟩
    · exact ⟨[], a :: word, rfl, first, second⟩

theorem matches_step :
    Matches (r.step a) word ↔ Matches r (a :: word) := by
  induction r generalizing word with
  | none => simp [step]
  | empty => simp [step]
  | symbol accepts =>
      by_cases accepted : accepts a = true
      · simp [step, accepted]
      · simp [step, accepted]
  | seq first second first_iff second_iff =>
      have chained : Matches (chain (first.step a) second) word ↔
          ∃ front back, word = front ++ back ∧ Matches first (a :: front) ∧
            Matches second back := by
        rw [matches_chain, matches_seq]
        simp only [first_iff]
      rw [matches_seq_cons, ← chained, ← nullable_iff, ← second_iff]
      by_cases skips : first.nullable = true
      · simp [step, skips, matches_join]
      · simp [step, skips]
  | alt left right left_iff right_iff =>
      rw [step, matches_join, left_iff, right_iff, matches_alt]
  | star inner inner_iff =>
      rw [step, matches_chain, matches_seq, matches_star_cons]
      simp only [inner_iff]

/-- The expression matches the whole word. -/
def accepts : Regex α → List α → Bool
  | r, [] => r.nullable
  | r, a :: word => accepts (r.step a) word

theorem accepts_iff : r.accepts word = true ↔ Matches r word := by
  induction word generalizing r with
  | nil => exact nullable_iff
  | cons a word induction => rw [accepts, induction, matches_step]

def isNone : Regex α → Bool
  | .none => true
  | _ => false

/-- Nothing that begins with a symbol is matched if nothing remains after it. -/
theorem not_matches_of_step (dead : (r.step a).isNone = true) :
    ¬ Matches r (a :: word) := by
  rw [← matches_step]
  cases found : r.step a <;> simp_all [isNone]

/-- The length of the longest prefix that matches. -/
def longest : Regex α → List α → Option Nat
  | r, [] => if r.nullable then some 0 else .none
  | r, a :: rest =>
      match longest (r.step a) rest with
      | some length => some (length + 1)
      | .none => if r.nullable then some 0 else .none

/-- No prefix longer than the given one matches. -/
def NoLonger (r : Regex α) (input : List α) (length : Nat) : Prop :=
  ∀ front back, input = front ++ back → length < front.length →
    ¬ Matches r front

theorem noLonger_append {rest : List α} :
    r.NoLonger (word ++ rest) word.length ↔
      ∀ more back, rest = more ++ back → more ≠ [] →
        ¬ Matches r (word ++ more) := by
  constructor
  · intro furthest more back same filled
    apply furthest (word ++ more) back (by simp [same])
    simpa [List.length_pos_iff] using filled
  · intro furthest front back same longer
    obtain ⟨more, rfl, rest⟩ | ⟨more, shorter, _⟩ :=
      List.append_eq_append_iff.mp same
    · apply furthest more back rest
      rintro rfl
      simp at longer
    · rw [shorter, List.length_append] at longer
      omega

theorem longest_none {input : List α} (absent : r.longest input = .none) :
    ∀ front back, input = front ++ back → ¬ Matches r front := by
  induction input generalizing r with
  | nil =>
      intro front back same
      obtain ⟨rfl, rfl⟩ := List.append_eq_nil_iff.mp same.symm
      rw [← nullable_iff]
      intro empty
      simp [longest, empty] at absent
  | cons a rest induction =>
      rw [longest] at absent
      cases later : longest (r.step a) rest with
      | some length => simp [later] at absent
      | none =>
          intro front back same
          cases front with
          | nil =>
              rw [← nullable_iff]
              intro empty
              simp [later, empty] at absent
          | cons b front =>
              cases same
              rw [← matches_step]
              exact induction later front back rfl

theorem longest_some {input : List α} {length : Nat}
    (found : r.longest input = some length) :
    ∃ front back, input = front ++ back ∧ front.length = length ∧
      Matches r front ∧ NoLonger r input length := by
  induction input generalizing r length with
  | nil =>
      rw [longest] at found
      split at found
      case isFalse => cases found
      case isTrue empty =>
        cases found
        refine ⟨[], [], rfl, rfl, nullable_iff.mp empty, ?_⟩
        intro front back same longer
        obtain ⟨rfl, rfl⟩ := List.append_eq_nil_iff.mp same.symm
        exact absurd longer (by simp)
  | cons a rest induction =>
      rw [longest] at found
      cases later : longest (r.step a) rest with
      | some length =>
          rw [later] at found
          cases found
          obtain ⟨front, back, rfl, measured, found, furthest⟩ :=
            induction later
          refine ⟨a :: front, back, rfl, by simp [measured],
            matches_step.mp found, ?_⟩
          intro front back same longer
          cases front with
          | nil => exact absurd longer (by simp)
          | cons b front =>
              injection same with first same
              subst first
              rw [← matches_step]
              exact furthest front back same
                (by simpa using longer)
      | none =>
          simp only [later] at found
          split at found
          case isFalse => cases found
          case isTrue empty =>
            cases found
            refine ⟨[], a :: rest, rfl, rfl, nullable_iff.mp empty, ?_⟩
            intro front back same longer
            cases front with
            | nil => exact absurd longer (by simp)
            | cons b front =>
                cases same
                rw [← matches_step]
                exact longest_none later front back rfl

end Regex

/-- The longest match of any rule, and what the earliest such rule does. -/
def longestRule {α : Type u} {β : Type v} :
    List (Regex α × β) → List α → Option (Nat × β)
  | [], _ => none
  | (pattern, action) :: rules, input =>
      match pattern.longest input, longestRule rules input with
      | none, later => later
      | some length, none => some (length, action)
      | some length, some (length', action') =>
          if length' ≤ length then some (length, action)
          else some (length', action')

section Rules

variable {α : Type u} {β : Type v} {rules : List (Regex α × β)}
  {input word back : List α} {action : β}

theorem longestRule_none (absent : longestRule rules input = none) :
    ∀ rule ∈ rules, ∀ front back, input = front ++ back →
      ¬ Regex.Matches rule.1 front := by
  induction rules with
  | nil => simp
  | cons rule rules induction =>
      rw [longestRule] at absent
      split at absent
      case h_1 first =>
        rw [List.forall_mem_cons]
        exact ⟨Regex.longest_none first, induction absent⟩
      case h_2 => cases absent
      case h_3 => split at absent <;> cases absent

/-- What the earliest rule does that matches the whole word. -/
def earliestRule : List (Regex α × β) → List α → Option β
  | [], _ => none
  | (pattern, action) :: rules, word =>
      if pattern.accepts word then some action else earliestRule rules word

theorem earliestRule_some (found : earliestRule rules word = some action) :
    ∃ pattern, (pattern, action) ∈ rules ∧ pattern.Matches word := by
  induction rules with
  | nil => cases found
  | cons rule rules induction =>
      obtain ⟨pattern, first⟩ := rule
      rw [earliestRule] at found
      split at found
      case isTrue accepted =>
        cases found
        exact ⟨pattern, List.mem_cons_self, Regex.accepts_iff.mp accepted⟩
      case isFalse =>
        obtain ⟨other, member, shown⟩ := induction found
        exact ⟨other, List.mem_cons_of_mem _ member, shown⟩

theorem earliestRule_append {others : List (Regex α × β)}
    (unmatched : ∀ rule ∈ others, ¬ rule.1.Matches word) :
    earliestRule (others ++ rules) word = earliestRule rules word := by
  induction others with
  | nil => rfl
  | cons rule others induction =>
      rw [List.forall_mem_cons] at unmatched
      rw [List.cons_append, earliestRule, if_neg, induction unmatched.2]
      rw [Regex.accepts_iff]
      exact unmatched.1

/-- A word before the rest of the input is the longest that a rule matches,
and the earliest rule that matches it has the action. -/
structure Selects (rules : List (Regex α × β)) (word rest : List α)
    (action : β) : Prop where
  earliest : earliestRule rules word = some action
  furthest : ∀ rule ∈ rules, rule.1.NoLonger (word ++ rest) word.length

/-- The selected rule is the earliest of those with the longest match. -/
theorem longestRule_selects {length : Nat}
    (found : longestRule rules input = some (length, action)) :
    ∃ word rest, input = word ++ rest ∧ word.length = length ∧
      Selects rules word rest action := by
  induction rules generalizing length action with
  | nil => cases found
  | cons rule rules induction =>
      obtain ⟨pattern, first⟩ := rule
      rw [longestRule] at found
      split at found
      case h_1 absent =>
        obtain ⟨word, rest, rfl, rfl, earliest, furthest⟩ := induction found
        have other := Regex.longest_none absent
        refine ⟨word, rest, rfl, rfl, ?_, ?_⟩
        · rw [earliestRule, if_neg, earliest]
          rw [Regex.accepts_iff]
          exact other word rest rfl
        · rw [List.forall_mem_cons]
          refine ⟨?_, furthest⟩
          intro front back same _
          exact other front back same
      case h_2 own later =>
        cases found
        obtain ⟨word, rest, rfl, rfl, shown, furthest⟩ :=
          Regex.longest_some own
        refine ⟨word, rest, rfl, rfl, ?_, ?_⟩
        · rw [earliestRule, if_pos (Regex.accepts_iff.mpr shown)]
        · rw [List.forall_mem_cons]
          refine ⟨furthest, ?_⟩
          intro rule member front back same _
          exact longestRule_none later rule member front back same
      case h_3 length length' action' own later =>
        obtain ⟨word, rest, same, measured, shown, furthest⟩ :=
          Regex.longest_some own
        obtain ⟨word', rest', same', measured', earliest, furthest'⟩ :=
          induction later
        split at found
        case isTrue enough =>
          cases found
          refine ⟨word, rest, same, measured, ?_, ?_⟩
          · rw [earliestRule, if_pos (Regex.accepts_iff.mpr shown)]
          · subst same measured
            rw [List.forall_mem_cons]
            refine ⟨furthest, ?_⟩
            intro rule member front back split longer
            rw [same'] at split
            exact furthest' rule member front back split (by omega)
        case isFalse short =>
          cases found
          refine ⟨word', rest', same', measured', ?_, ?_⟩
          · rw [earliestRule, if_neg, earliest]
            rw [Regex.accepts_iff]
            exact furthest word' rest' same' (by omega)
          · subst same' measured'
            rw [List.forall_mem_cons]
            refine ⟨?_, furthest'⟩
            intro front back split longer
            exact furthest front back split (by omega)

/-- The selected rule matches, and no rule matches a longer prefix. -/
theorem longestRule_some {length : Nat}
    (found : longestRule rules input = some (length, action)) :
    ∃ pattern, (pattern, action) ∈ rules ∧
      (∃ front back, input = front ++ back ∧ front.length = length ∧
        Regex.Matches pattern front) ∧
      ∀ rule ∈ rules, rule.1.NoLonger input length := by
  obtain ⟨word, rest, rfl, rfl, earliest, furthest⟩ :=
    longestRule_selects found
  obtain ⟨pattern, member, shown⟩ := earliestRule_some earliest
  exact ⟨pattern, member, ⟨word, rest, rfl, rfl, shown⟩, furthest⟩

/-- Some rule is selected if one matches a prefix. -/
theorem longestRule_exists {rule : Regex α × β} {back : List α}
    (member : rule ∈ rules) (found : rule.1.Matches word) :
    ∃ length action, longestRule rules (word ++ back) = some (length, action) ∧
      word.length ≤ length := by
  cases chosen : longestRule rules (word ++ back) with
  | none => exact absurd found (longestRule_none chosen rule member word _ rfl)
  | some choice =>
      obtain ⟨length, action⟩ := choice
      refine ⟨length, action, rfl, ?_⟩
      obtain ⟨_, _, _, furthest⟩ := longestRule_some chosen
      by_contra short
      exact furthest rule member word back rfl (by omega) found

theorem longestRule_of_selects (selects : Selects rules word back action) :
    longestRule rules (word ++ back) = some (word.length, action) := by
  obtain ⟨earliest, furthest⟩ := selects
  obtain ⟨pattern, member, shown⟩ := earliestRule_some earliest
  obtain ⟨length, action', chosen, above⟩ :
      ∃ length action', longestRule rules (word ++ back) =
        some (length, action') ∧ word.length ≤ length :=
    longestRule_exists member shown
  obtain ⟨word', rest', same, rfl, earliest', _⟩ := longestRule_selects chosen
  obtain ⟨pattern', member', shown'⟩ := earliestRule_some earliest'
  have below : word'.length ≤ word.length := by
    by_contra longer
    exact furthest _ member' word' rest' same (by omega) shown'
  have equal : word = word' :=
    (List.append_inj same (Nat.le_antisymm above below)).1
  subst equal
  have actions : some action = some action' := earliest.symm.trans earliest'
  cases actions
  exact chosen

end Rules

end NetLang
