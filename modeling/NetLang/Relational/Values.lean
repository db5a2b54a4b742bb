import NetLang.Interpreter.Execute

/-!
# Related values

Two executions may number their functions differently and have different
identities.  Values are related when they are the same up to such a matching
of function handles and of identities, and every operation on values takes
related values to related results.
-/

namespace NetLang

/-- Which function handles and which execution identities correspond. -/
structure Matching where
  handle : Nat → Nat → Prop
  token : Nat → Nat → Prop

namespace Matching

/-- Corresponding handles and identities are equal together. -/
structure Faithful (matching : Matching) : Prop where
  handle : ∀ {a b a' b'}, matching.handle a a' → matching.handle b b' →
    (a = b ↔ a' = b')
  token : ∀ {a b a' b'}, matching.token a a' → matching.token b b' →
    (a = b ↔ a' = b')

structure Extends (smaller larger : Matching) : Prop where
  handle : ∀ {a a'}, smaller.handle a a' → larger.handle a a'
  token : ∀ {a a'}, smaller.token a a' → larger.token a a'

def equality : Matching :=
  ⟨Eq, Eq⟩

end Matching

namespace Value

mutual

def Rel (matching : Matching) : Value → Value → Prop
  | .record identity typeId name fields,
      .record identity' typeId' name' fields' =>
      matching.token identity identity' ∧ typeId = typeId' ∧ name = name' ∧
        RelFields matching fields fields'
  | .integer a, .integer b => a = b
  | .float a, .float b => a = b
  | .string a, .string b => a = b
  | .bytes a, .bytes b => a = b
  | .connection a, .connection b => a = b
  | .boolean a, .boolean b => a = b
  | .null, .null => True
  | .duration a, .duration b => a = b
  | .array a, .array b => RelList matching a b
  | .object a, .object b => RelFields matching a b
  | .function a, .function b => matching.handle a b
  | .print, .print => True
  | .builtin a, .builtin b => a = b
  | _, _ => False

def RelList (matching : Matching) : List Value → List Value → Prop
  | [], [] => True
  | a :: as, b :: bs => Rel matching a b ∧ RelList matching as bs
  | _, _ => False

def RelFields (matching : Matching) :
    List (String × Value) → List (String × Value) → Prop
  | [], [] => True
  | (k, a) :: as, (k', b) :: bs =>
      k = k' ∧ Rel matching a b ∧ RelFields matching as bs
  | _, _ => False

end

variable {matching larger : Matching}

mutual

theorem Rel.mono (extends' : matching.Extends larger) :
    ∀ {a b : Value}, Rel matching a b → Rel larger a b
  | .record _ _ _ _, .record _ _ _ _, related =>
      ⟨extends'.token related.1, related.2.1, related.2.2.1,
        RelFields.mono extends' related.2.2.2⟩
  | .integer _, .integer _, related | .float _, .float _, related
  | .string _, .string _, related | .bytes _, .bytes _, related
  | .connection _, .connection _, related
  | .boolean _, .boolean _, related | .duration _, .duration _, related
  | .builtin _, .builtin _, related => related
  | .null, .null, _ | .print, .print, _ => trivial
  | .array _, .array _, related => RelList.mono extends' related
  | .object _, .object _, related => RelFields.mono extends' related
  | .function _, .function _, related => extends'.handle related

theorem RelList.mono (extends' : matching.Extends larger) :
    ∀ {a b : List Value}, RelList matching a b → RelList larger a b
  | [], [], _ => trivial
  | _ :: _, _ :: _, related =>
      ⟨Rel.mono extends' related.1, RelList.mono extends' related.2⟩

theorem RelFields.mono (extends' : matching.Extends larger) :
    ∀ {a b : List (String × Value)},
      RelFields matching a b → RelFields larger a b
  | [], [], _ => trivial
  | _ :: _, _ :: _, related => ⟨related.1, Rel.mono extends' related.2.1,
      RelFields.mono extends' related.2.2⟩

end

mutual

theorem rel_refl : ∀ value : Value, Rel .equality value value
  | .record _ _ _ fields => ⟨rfl, rfl, rfl, relFields_refl fields⟩
  | .integer _ | .float _ | .string _ | .bytes _ | .connection _
  | .boolean _ | .duration _ | .builtin _ | .function _ => rfl
  | .null | .print => trivial
  | .array values => relList_refl values
  | .object fields => relFields_refl fields

theorem relList_refl : ∀ values : List Value,
    RelList .equality values values
  | [] => trivial
  | value :: rest => ⟨rel_refl value, relList_refl rest⟩

theorem relFields_refl : ∀ fields : List (String × Value),
    RelFields .equality fields fields
  | [] => trivial
  | (_, value) :: rest => ⟨rfl, rel_refl value, relFields_refl rest⟩

end

mutual

theorem Rel.eq : ∀ {a b : Value}, Rel .equality a b → a = b
  | .record _ _ _ _, .record _ _ _ _, ⟨same, rfl, rfl, fields⟩ => by
      cases (same : _ = _)
      rw [RelFields.eq fields]
  | .integer _, .integer _, rfl | .float _, .float _, rfl
  | .string _, .string _, rfl | .bytes _, .bytes _, rfl
  | .connection _, .connection _, rfl | .boolean _, .boolean _, rfl
  | .duration _, .duration _, rfl | .builtin _, .builtin _, rfl
  | .null, .null, _ | .print, .print, _ => rfl
  | .array _, .array _, related => by rw [RelList.eq related]
  | .object _, .object _, related => by rw [RelFields.eq related]
  | .function _, .function _, same => by
      cases (same : _ = _)
      rfl

theorem RelList.eq : ∀ {a b : List Value}, RelList .equality a b → a = b
  | [], [], _ => rfl
  | _ :: _, _ :: _, related => by
      rw [Rel.eq related.1, RelList.eq related.2]

theorem RelFields.eq : ∀ {a b : List (String × Value)},
    RelFields .equality a b → a = b
  | [], [], _ => rfl
  | (_, _) :: _, (_, _) :: _, ⟨rfl, value, rest⟩ => by
      rw [Rel.eq value, RelFields.eq rest]

end

mutual

/-- A value is related to at most one other. -/
theorem Rel.unique (faithful : matching.Faithful) :
    ∀ {a b c : Value}, Rel matching a b → Rel matching a c → c = b
  | .record _ _ _ _, .record _ _ _ _, .record _ _ _ _,
      ⟨left, rfl, rfl, fields⟩, ⟨right, rfl, rfl, others⟩ => by
      rw [(faithful.token left right).mp rfl,
        RelFields.unique faithful fields others]
  | .integer _, .integer _, .integer _, rfl, rfl
  | .float _, .float _, .float _, rfl, rfl
  | .string _, .string _, .string _, rfl, rfl
  | .bytes _, .bytes _, .bytes _, rfl, rfl
  | .connection _, .connection _, .connection _, rfl, rfl
  | .boolean _, .boolean _, .boolean _, rfl, rfl
  | .duration _, .duration _, .duration _, rfl, rfl
  | .builtin _, .builtin _, .builtin _, rfl, rfl
  | .null, .null, .null, _, _ | .print, .print, .print, _, _ => rfl
  | .array _, .array _, .array _, left, right => by
      rw [RelList.unique faithful left right]
  | .object _, .object _, .object _, left, right => by
      rw [RelFields.unique faithful left right]
  | .function _, .function _, .function _, left, right => by
      rw [(faithful.handle left right).mp rfl]

theorem RelList.unique (faithful : matching.Faithful) :
    ∀ {a b c : List Value}, RelList matching a b → RelList matching a c →
      c = b
  | [], [], [], _, _ => rfl
  | _ :: _, _ :: _, _ :: _, left, right => by
      rw [Rel.unique faithful left.1 right.1,
        RelList.unique faithful left.2 right.2]

theorem RelFields.unique (faithful : matching.Faithful) :
    ∀ {a b c : List (String × Value)}, RelFields matching a b →
      RelFields matching a c → c = b
  | [], [], [], _, _ => rfl
  | (_, _) :: _, (_, _) :: _, (_, _) :: _, ⟨rfl, left, lefts⟩,
      ⟨rfl, right, rights⟩ => by
      rw [Rel.unique faithful left right,
        RelFields.unique faithful lefts rights]

end

@[simp] theorem relFields_nil : RelFields matching [] [] :=
  trivial

theorem relList_iff {a b : List Value} :
    RelList matching a b ↔ List.Forall₂ (Rel matching) a b := by
  induction a generalizing b with
  | nil => cases b <;> simp [RelList]
  | cons head tail induction => cases b <;> simp [RelList, induction]

theorem Rel.typeName : ∀ {a b : Value}, Rel matching a b →
    a.typeName = b.typeName
  | .record _ _ _ _, .record _ _ _ _, related => related.2.2.1
  | .integer _, .integer _, _ | .float _, .float _, _
  | .string _, .string _, _ | .bytes _, .bytes _, _
  | .connection _, .connection _, _ | .boolean _, .boolean _, _
  | .duration _, .duration _, _ | .builtin _, .builtin _, _
  | .null, .null, _ | .print, .print, _ | .array _, .array _, _
  | .object _, .object _, _ | .function _, .function _, _ => rfl

theorem Rel.nested : ∀ {a b : Value}, Rel matching a b → [Formatting] →
    ∀ text, a.nested text = b.nested text
  | .string _, .string _, rfl, _, _ => rfl
  | .record _ _ _ _, .record _ _ _ _, _, _, _
  | .integer _, .integer _, _, _, _ | .float _, .float _, _, _, _
  | .bytes _, .bytes _, _, _, _
  | .connection _, .connection _, _, _, _ | .boolean _, .boolean _, _, _, _
  | .duration _, .duration _, _, _, _ | .builtin _, .builtin _, _, _, _
  | .null, .null, _, _, _ | .print, .print, _, _, _
  | .array _, .array _, _, _, _ | .object _, .object _, _, _, _
  | .function _, .function _, _, _, _ => rfl

section Display

variable [Formatting]

mutual

theorem Rel.display : ∀ {a b : Value}, Rel matching a b →
    a.display = b.display
  | .record _ _ _ _, .record _ _ _ _, ⟨_, _, rfl, fields⟩ => by
      simp only [Value.display, RelFields.displayRecord fields]
  | .integer _, .integer _, rfl | .float _, .float _, rfl
  | .string _, .string _, rfl | .bytes _, .bytes _, rfl
  | .boolean _, .boolean _, rfl | .duration _, .duration _, rfl
  | .builtin _, .builtin _, rfl => rfl
  | .connection _, .connection _, _ | .null, .null, _ | .print, .print, _
  | .function _, .function _, _ => rfl
  | .array _, .array _, values => by
      simp only [Value.display, RelList.displayList values]
  | .object _, .object _, fields => by
      simp only [Value.display, RelFields.displayObject fields]

theorem RelList.displayList : ∀ {a b : List Value}, RelList matching a b →
    Value.displayList a = Value.displayList b
  | [], [], _ => rfl
  | [_], [_], ⟨value, _⟩ => by
      simp only [Value.displayList, Rel.display value, Rel.nested value]
  | _ :: _ :: _, _ :: _ :: _, ⟨value, rest⟩ => by
      simp only [Value.displayList, Rel.display value, Rel.nested value,
        RelList.displayList rest]

theorem RelFields.displayRecord : ∀ {a b : List (String × Value)},
    RelFields matching a b →
      Value.displayRecord a = Value.displayRecord b
  | [], [], _ => rfl
  | [(_, _)], [(_, _)], ⟨rfl, value, _⟩ => by
      simp only [Value.displayRecord, Rel.display value, Rel.nested value]
  | (_, _) :: _ :: _, (_, _) :: _ :: _, ⟨rfl, value, rest⟩ => by
      simp only [Value.displayRecord, Rel.display value, Rel.nested value,
        RelFields.displayRecord rest]

theorem RelFields.displayObject : ∀ {a b : List (String × Value)},
    RelFields matching a b →
      Value.displayObject a = Value.displayObject b
  | [], [], _ => rfl
  | [(_, _)], [(_, _)], ⟨rfl, value, _⟩ => by
      simp only [Value.displayObject, Rel.display value, Rel.nested value]
  | (_, _) :: _ :: _, (_, _) :: _ :: _, ⟨rfl, value, rest⟩ => by
      simp only [Value.displayObject, Rel.display value, Rel.nested value,
        RelFields.displayObject rest]

end

theorem RelList.map_display : ∀ {a b : List Value}, RelList matching a b →
    a.map Value.display = b.map Value.display
  | [], [], _ => rfl
  | _ :: _, _ :: _, ⟨value, rest⟩ => by
      rw [List.map_cons, List.map_cons, value.display,
        RelList.map_display rest]

end Display

/-- The values that relations between executions look into. -/
def isStructured : Value → Bool
  | .record _ _ _ _ | .array _ | .object _ | .function _ => true
  | _ => false

theorem Rel.structured : ∀ {a b : Value}, Rel matching a b →
    a = b ∧ a.isStructured = false ∨
      a.isStructured = true ∧ b.isStructured = true
  | .record _ _ _ _, .record _ _ _ _, _ | .array _, .array _, _
  | .object _, .object _, _ | .function _, .function _, _ => .inr ⟨rfl, rfl⟩
  | .integer _, .integer _, rfl | .float _, .float _, rfl
  | .string _, .string _, rfl | .bytes _, .bytes _, rfl
  | .connection _, .connection _, rfl
  | .boolean _, .boolean _, rfl | .duration _, .duration _, rfl
  | .builtin _, .builtin _, rfl | .null, .null, _ | .print, .print, _ =>
      .inl ⟨rfl, rfl⟩

theorem equal_atom_structured {a b : Value} (atom : a.isStructured = false)
    (structured : b.isStructured = true) : a.equal b = false := by
  cases a <;> cases atom <;> cases b <;> cases structured <;> rfl

theorem equal_structured_atom {a b : Value} (structured : a.isStructured = true)
    (atom : b.isStructured = false) : a.equal b = false := by
  cases a <;> cases structured <;> cases b <;> cases atom <;> rfl

section Equal

theorem beq_of_iff {α : Type} [BEq α] [LawfulBEq α] {a b a' b' : α}
    (same : a = b ↔ a' = b') : (a == b) = (a' == b') := by
  rw [Bool.eq_iff_iff, beq_iff_eq, beq_iff_eq]
  exact same

theorem Rel.equal_atom {a b b' : Value} (atom : a.isStructured = false)
    (right : Rel matching b b') : a.equal b = a.equal b' := by
  rcases right.structured with ⟨rfl, _⟩ | ⟨structured, structured'⟩
  · rfl
  · rw [equal_atom_structured atom structured,
      equal_atom_structured atom structured']

mutual

theorem Rel.equal (faithful : matching.Faithful) :
    ∀ {a b a' b' : Value}, Rel matching a a' → Rel matching b b' →
      a.equal b = a'.equal b'
  | .record i t _ fs, b, .record i' t' _ fs', b', ⟨left, sameType, _, fields⟩,
      right => by
      cases (sameType : t = t')
      rcases right.structured with ⟨rfl, atom⟩ | ⟨structured, structured'⟩
      · rw [equal_structured_atom rfl atom, equal_structured_atom rfl atom]
      · match b, b', right with
        | .record j u _ gs, .record j' u' _ gs', ⟨token, same, _, others⟩ =>
            cases (same : u = u')
            simp only [Value.equal, RelFields.equal faithful fields others,
              beq_of_iff (faithful.token left token)]
        | .array _, .array _, _ | .object _, .object _, _
        | .function _, .function _, _ => rfl
  | .array xs, b, .array xs', b', left, right => by
      rcases right.structured with ⟨rfl, atom⟩ | ⟨structured, structured'⟩
      · rw [equal_structured_atom rfl atom, equal_structured_atom rfl atom]
      · match b, b', right with
        | .array ys, .array ys', right =>
            exact RelList.equal faithful left right
        | .record _ _ _ _, .record _ _ _ _, _ | .object _, .object _, _
        | .function _, .function _, _ => rfl
  | .object xs, b, .object xs', b', left, right => by
      rcases right.structured with ⟨rfl, atom⟩ | ⟨structured, structured'⟩
      · rw [equal_structured_atom rfl atom, equal_structured_atom rfl atom]
      · match b, b', right with
        | .object ys, .object ys', right =>
            exact RelFields.equal faithful left right
        | .record _ _ _ _, .record _ _ _ _, _ | .array _, .array _, _
        | .function _, .function _, _ => rfl
  | .function h, b, .function h', b', left, right => by
      rcases right.structured with ⟨rfl, atom⟩ | ⟨structured, structured'⟩
      · rw [equal_structured_atom rfl atom, equal_structured_atom rfl atom]
      · match b, b', right with
        | .function k, .function k', right =>
            exact beq_of_iff (faithful.handle left right)
        | .record _ _ _ _, .record _ _ _ _, _ | .array _, .array _, _
        | .object _, .object _, _ => rfl
  | .integer _, _, .integer _, _, rfl, right
  | .float _, _, .float _, _, rfl, right
  | .string _, _, .string _, _, rfl, right
  | .bytes _, _, .bytes _, _, rfl, right
  | .connection _, _, .connection _, _, rfl, right
  | .boolean _, _, .boolean _, _, rfl, right
  | .duration _, _, .duration _, _, rfl, right
  | .builtin _, _, .builtin _, _, rfl, right
  | .null, _, .null, _, _, right
  | .print, _, .print, _, _, right => Rel.equal_atom rfl right

theorem RelList.equal (faithful : matching.Faithful) :
    ∀ {a b a' b' : List Value}, RelList matching a a' →
      RelList matching b b' → equalList a b = equalList a' b'
  | [], [], [], [], _, _ => rfl
  | [], _ :: _, [], _ :: _, _, _ => rfl
  | _ :: _, [], _ :: _, [], _, _ => rfl
  | _ :: _, _ :: _, _ :: _, _ :: _, left, right => by
      simp only [equalList, Rel.equal faithful left.1 right.1,
        RelList.equal faithful left.2 right.2]

theorem RelFields.equal (faithful : matching.Faithful) :
    ∀ {a b a' b' : List (String × Value)}, RelFields matching a a' →
      RelFields matching b b' → equalFields a b = equalFields a' b'
  | [], [], [], [], _, _ => rfl
  | [], _ :: _, [], _ :: _, _, _ => rfl
  | _ :: _, [], _ :: _, [], _, _ => rfl
  | (_, _) :: _, (_, _) :: _, (_, _) :: _, (_, _) :: _, ⟨rfl, left, lefts⟩,
      ⟨rfl, right, rights⟩ => by
      simp only [equalFields, Rel.equal faithful left right,
        RelFields.equal faithful lefts rights]

end

end Equal

end Value

end NetLang
