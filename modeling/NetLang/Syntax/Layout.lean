import NetLang.Syntax.Pretty

/-!
# The text of a tree

A line of the dump is the one of a child exactly if the bars of its parent
stand before it.  The text of a forest of labels without newlines therefore
tells where the forest ends, and which one it is.
-/

namespace NetLang

/-- Text up to the first occurrence of a character is unique. -/
theorem append_inj_at {c : Char} {front front' back back' : List Char}
    (absent : c ∉ front) (absent' : c ∉ front')
    (next : ∀ d ∈ back.head?, d = c) (next' : ∀ d ∈ back'.head?, d = c)
    (same : front ++ back = front' ++ back') :
    front = front' ∧ back = back' := by
  have before : ∀ {front back : List Char}, c ∉ front →
      (∀ d ∈ back.head?, d = c) →
      (front ++ back).takeWhile (fun d => d ≠ c) = front := by
    intro front back absent next
    rw [List.takeWhile_append_of_pos]
    · cases back with
      | nil => simp
      | cons d back =>
          cases next d rfl
          simp
    · intro d member
      simp only [decide_eq_true_eq]
      rintro rfl
      exact absent member
  have fronts : front = front' := by
    rw [← before absent next, same, before absent' next']
  subst fronts
  exact ⟨rfl, List.append_cancel_left same⟩

namespace Tree

/-- No label takes more than one line. -/
inductive Plain : Tree → Prop where
  | node {label : String} {children : List Tree} :
      '\n' ∉ label.toList → (∀ child ∈ children, Plain child) →
      Plain (.node label children)

/-- What a line among the nodes below others may have after the bars. -/
def marks : List Char :=
  ['└', '├', '│', ' ']

/-- The text does not go on with a node at this indentation. -/
def Outside (indent : String) (text : List Char) : Prop :=
  ∀ c ∈ marks, ¬ indent.toList ++ [c] <+: text

theorem branch_cons (last : Bool) :
    (branch last).toList =
      (if last then '└' else '├') :: ['─', '─', ' '] := by
  cases last <;> decide

theorem bar_cons (last : Bool) :
    (bar last).toList = (if last then ' ' else '│') :: [' ', ' ', ' '] := by
  cases last <;> decide

theorem writeAll_cons (indent : String) (label : String)
    (children rest : List Tree) :
    (writeAll indent (.node label children :: rest)).toList =
      indent.toList ++ ((branch rest.isEmpty).toList ++ (label.toList ++
        '\n' :: ((writeAll (indent ++ bar rest.isEmpty) children).toList ++
          (writeAll indent rest).toList))) := by
  have newline : "\n".toList = ['\n'] := by decide
  simp only [writeAll, write, String.toList_append, newline,
    List.append_assoc, List.cons_append, List.nil_append]

/-- A forest begins with a mark after its indentation. -/
theorem not_outside {indent : String} {trees : List Tree}
    {back : List Char} (filled : trees ≠ []) :
    ¬ Outside indent ((writeAll indent trees).toList ++ back) := by
  obtain ⟨⟨label, children⟩, rest, rfl⟩ := List.exists_cons_of_ne_nil filled
  intro outside
  rw [writeAll_cons, branch_cons] at outside
  cases shape : rest.isEmpty with
  | true => exact outside '└' (by decide) (by simp [shape])
  | false => exact outside '├' (by decide) (by simp [shape])

/-- After the children of a node come its siblings, or what comes after the
last one of them. -/
theorem Outside.children {indent : String} {rest : List Tree}
    {back : List Char} (outside : Outside indent back) :
    Outside (indent ++ bar rest.isEmpty)
      ((writeAll indent rest).toList ++ back) := by
  intro c member starts
  rw [String.toList_append, bar_cons] at starts
  cases rest with
  | nil =>
      refine outside ' ' (by decide) (List.IsPrefix.trans ?_ starts)
      exact ⟨[' ', ' ', ' ', c], by simp⟩
  | cons tree rest =>
      obtain ⟨label, children⟩ := tree
      rw [writeAll_cons, branch_cons] at starts
      simp only [List.isEmpty_cons, Bool.false_eq_true, if_false,
        List.append_assoc, List.prefix_append_right_inj, List.cons_append,
        List.cons_prefix_cons] at starts
      split at starts
      · exact absurd starts.1 (by decide)
      · exact absurd starts.1 (by decide)

/-- The text of a forest tells what the forest is and where it ends. -/
theorem writeAll_injective (indent : String) :
    ∀ {trees others : List Tree} {back back' : List Char},
      (∀ tree ∈ trees, tree.Plain) → (∀ tree ∈ others, tree.Plain) →
      Outside indent back → Outside indent back' →
      (writeAll indent trees).toList ++ back =
        (writeAll indent others).toList ++ back' →
      trees = others ∧ back = back'
  | [], [], _, _, _, _, _, _, same => ⟨rfl, by simpa [writeAll] using same⟩
  | [], other :: others, back, _, _, _, outside, _, same => by
      replace same : back = _ := same
      rw [same] at outside
      exact absurd outside (not_outside (List.cons_ne_nil other others))
  | tree :: trees, [], _, back', _, _, _, outside, same => by
      replace same : back' = _ := same.symm
      rw [same] at outside
      exact absurd outside (not_outside (List.cons_ne_nil tree trees))
  | .node label children :: rest, .node label' children' :: rest', back,
      back', plain, plain', outside, outside', same => by
      rw [writeAll_cons, writeAll_cons] at same
      simp only [List.append_assoc, List.append_cancel_left_eq] at same
      have lasts : rest.isEmpty = rest'.isEmpty := by
        rw [branch_cons, branch_cons] at same
        cases shape : rest.isEmpty <;> cases shape' : rest'.isEmpty <;>
          simp_all
      rw [lasts, List.append_cancel_left_eq] at same
      cases plain _ (List.mem_cons_self ..) with
      | node single inner =>
      cases plain' _ (List.mem_cons_self ..) with
      | node single' inner' =>
      obtain ⟨labels, below⟩ := append_inj_at single single'
        (by simp) (by simp) same
      rw [List.cons_append, List.cons_append] at below
      injection below with _ below
      rw [List.append_assoc, List.append_assoc] at below
      obtain ⟨childrenSame, after⟩ := writeAll_injective
        (indent ++ bar rest'.isEmpty) inner inner'
        (lasts ▸ outside.children) outside'.children below
      obtain ⟨restSame, backSame⟩ := writeAll_injective indent
        (fun tree member => plain tree (.tail _ member))
        (fun tree member => plain' tree (.tail _ member))
        outside outside' after
      exact ⟨by rw [String.toList_inj.mp labels, childrenSame, restSame],
        backSame⟩

end Tree

end NetLang
