import NetLang.Relational.Expressions

/-!
# Statements of a program and of its rewriting

Hoisting, loops, branches and bodies.  What becomes of a parallel statement
is left to the comparison at hand.
-/

namespace NetLang

open Interp

variable {simulation : Simulation effects String}
  {comparison : Comparison} {situation : Situation} {world : World}
  {env env' : Environment}

/-- What a parallel statement over an array has become. -/
def Comparison.counterpart (comparison : Comparison) (given : Evaluator)
    (point : Point) (variableName : String) (body : Stmt)
    (env : Environment) (values : List Value) : Interp Flow :=
  if comparison.serial then forLoop given point variableName body env values
  else do
    reported (.joined point)
      (iterations given point env variableName body values)
    pure .normal

/-- The iterations of a parallel statement are alike what it has become. -/
def ParallelAlike (simulation : Simulation effects String)
    (comparison : Comparison) (worker : Bool) (given given' : Evaluator) :
    Prop :=
  ∀ {situation : Situation} {world : World} {env env' : Environment}
    (point : Point) (variableName : String) (body : Stmt)
    {values values' : List Value}, situation.worker = worker →
    situation.depth = 0 →
    body.Fits comparison.serial (situation.returns && !comparison.serial) →
    EnvRel world env env' →
    Value.RelList (comparison.matching world) values values' →
    values ≠ [] →
    Alike simulation comparison situation world
      (fun _ _ flow => flow = Flow.normal)
      (reported (.joined point)
        (iterations given point env variableName body values))
      (comparison.counterpart given' point variableName
        (comparison.rewriting.stmt body) env' values')

theorem getElem?_append_ne {α : Type} {list : List α} {last : α} {i : Nat}
    (different : i ≠ list.length) : (list ++ [last])[i]? = list[i]? := by
  rcases Nat.lt_or_gt_of_ne different with below | above
  · exact List.getElem?_append_left below
  · rw [List.getElem?_eq_none (by simp; omega),
      List.getElem?_eq_none (by omega)]

section Hoisting

/-- Statements with their slots, and their rewritings with theirs. -/
def Comparison.pairs (comparison : Comparison) (world : World) :
    List (Stmt × Option Nat) → List (Stmt × Option Nat) → Prop :=
  List.Forall₂ fun pair pair' =>
    pair'.1 = comparison.rewriting.stmt pair.1 ∧
      Option.Rel world.slot pair.2 pair'.2

theorem pairs_mono {larger : World} (extends' : world.Extends larger)
    {pairs pairs' : List (Stmt × Option Nat)}
    (related : comparison.pairs world pairs pairs') :
    comparison.pairs larger pairs pairs' :=
  related.imp fun _ _ both =>
    ⟨both.1, optionRel_mono both.2 fun _ _ => extends'.slot⟩

theorem pairs_zip {list : List Stmt} {slots slots' : List (Option Nat)}
    (related : List.Forall₂ (Option.Rel world.slot) slots slots') :
    comparison.pairs world (list.zip slots)
      ((comparison.rewriting.stmtList list).zip slots') := by
  induction list generalizing slots slots' with
  | nil => exact .nil
  | cons node rest induction =>
      cases related with
      | nil => exact .nil
      | cons head tail => exact .cons ⟨rfl, head⟩ (induction tail)

theorem alike_declareIn {id id' : Nat} (environments : EnvRel world env env')
    (name : String) (slot : world.slot id id') :
    Alike simulation comparison situation world EnvRel
      (declareIn env name id) (declareIn env' name id') := by
  unfold declareIn
  obtain ⟨missing, missing'⟩ | ⟨found, found', same, same', related⟩ :=
    optionRel_cases (environments.declare name slot)
  · rw [missing, missing']
    exact alike_stop trivial
  · rw [same, same']
    exact alike_pure related

theorem alike_slotOf {slot slot' : Option Nat}
    (related : Option.Rel world.slot slot slot') :
    Alike simulation comparison situation world World.slot (slotOf slot)
      (slotOf slot') := by
  cases related with
  | none => exact alike_stop trivial
  | some holds => exact alike_pure holds

/-- The slots and the environment that a list of statements reserves. -/
def Comparison.reserved (_ : Comparison) (world : World)
    (left right : List (Option Nat) × Environment) : Prop :=
  List.Forall₂ (Option.Rel world.slot) left.1 right.1 ∧
    EnvRel world left.2 right.2

theorem alike_reserve (list : List Stmt)
    (environments : EnvRel world env env') :
    Alike simulation comparison situation world comparison.reserved
      (reserve list env)
      (reserve (comparison.rewriting.stmtList list) env') := by
  induction list generalizing world env env' with
  | nil => exact alike_pure ⟨.nil, environments⟩
  | cons node rest induction =>
      have unlocated := comparison.rewriting.stmt_unspanned node
      have skipped : Alike simulation comparison situation world
          comparison.reserved
          (do
            let later ← reserve rest env
            pure (none :: later.1, later.2))
          (do
            let later ← reserve (comparison.rewriting.stmtList rest) env'
            pure (none :: later.1, later.2)) := by
        apply (induction environments).bind
        rintro larger extends' ⟨slots, env⟩ ⟨slots', env'⟩ ⟨related, envs⟩
        exact alike_pure ⟨.cons .none related, envs⟩
      simp only [Rewriting.stmtList, reserve]
      rw [unlocated]
      cases shape : node.unspanned with
      | «let» name annotated value =>
          simp only [Rewriting.stmt]
          apply alike_annotationType.bind
          rintro second toSecond ty _ rfl
          have allocated : BindingRel comparison second ⟨ty, none, true⟩
              ⟨comparison.keep ty, none, true⟩ := ⟨rfl, rfl, .none⟩
          apply (alike_allocate allocated).bind
          intro third toThird id id' slot
          apply (induction
            (environments.mono (toSecond.trans toThird))).bind
          rintro fourth toFourth ⟨slots, env⟩ ⟨slots', env'⟩
            ⟨related, envs⟩
          exact alike_pure
            ⟨.cons (.some (toFourth.slot slot)) related, envs⟩
      | function name parameters returnAnnotated body =>
          simp only [Rewriting.stmt]
          have allocated : BindingRel comparison world ⟨none, none, false⟩
              ⟨none, none, false⟩ :=
            ⟨rfl, comparison.keep_none.symm, .none⟩
          apply (alike_allocate allocated).bind
          intro second toSecond id id' slot
          apply (alike_declareIn (environments.mono toSecond) name slot).bind
          intro third toThird declared declared' envs
          apply (induction envs).bind
          rintro fourth toFourth ⟨slots, env⟩ ⟨slots', env'⟩
            ⟨related, envs⟩
          exact alike_pure ⟨.cons
            (.some (toFourth.slot (toThird.slot slot))) related, envs⟩
      | parallel variableName iterable body =>
          by_cases serial : comparison.rewriting.parallel = true
          · simp only [Rewriting.stmt, serial, if_true]
            exact skipped
          · simp only [Rewriting.stmt, serial]
            exact skipped
      | located span inner =>
          exact absurd shape (Stmt.unspanned_ne_located node span inner)
      | _ =>
          simp only [Rewriting.stmt]
          exact skipped

theorem Ended.weaken {α β : Type} {larger : World}
    {post : World → α → β → Prop} {before middle : Interpreter}
    {left : List String × (Result α × Interpreter)}
    {right : List String × (Result β × Interpreter)}
    (ended : Ended comparison situation larger post middle left right)
    (extends' : world.Extends larger)
    (same : middle.output = before.output) :
    Ended comparison situation world post before left right := by
  obtain ⟨largest, further, states, results, shown⟩ := ended
  exact ⟨largest, extends'.trans further, states, results,
    shown.congr same.symm rfl⟩

/-- Both arenas of functions grow by related functions. -/
theorem States.define {before before' : Interpreter}
    {function function' : Function}
    (states : States comparison situation world before before')
    (related : FunctionRel comparison world function function') :
    States comparison situation
      (world.withHandle before.functions.length before'.functions.length)
      { before with functions := before.functions ++ [function] }
      { before' with functions := before'.functions ++ [function'] } := by
  have extends' := world.extends_withHandle before.functions.length
    before'.functions.length
  have matchings := comparison.matching_mono extends'
  have bounds : ∀ {a a'}, world.handle a a' →
      (a = before.functions.length ↔ a' = before'.functions.length) := by
    intro a a' handle
    cases serial : comparison.serial with
    | true =>
        have defined := states.defined serial handle
        omega
    | false =>
        have same : a = a' := (states.handle serial).mp handle
        have lengths := (states.lengths serial).2
        omega
  refine { states with
    types := states.types.mono matchings
    bindings := ?_
    functions := ?_
    faithful := ⟨?_, states.faithful.token⟩
    lengths := ?_
    handle := ?_
    defined := ?_ }
  · intro a a' slot
    obtain ⟨b, b', found, found', bindings⟩ := states.bindings slot
    exact ⟨b, b', found, found', bindings.mono extends'⟩
  · intro a a' handle
    by_cases last : a = before.functions.length
    · have last' : a' = before'.functions.length := by
        rcases handle with old | ⟨_, new⟩
        · exact (bounds old).mp last
        · exact new
      subst last last'
      simpa using related.mono extends'
    · have old : world.handle a a' := by
        rcases handle with old | ⟨new, _⟩
        · exact old
        · exact absurd new last
      have last' : a' ≠ before'.functions.length := fun same =>
        last ((bounds old).mpr same)
      have kept := optionRel_mono (states.functions old)
        fun _ _ => FunctionRel.mono extends'
      dsimp only
      rwa [getElem?_append_ne last, getElem?_append_ne last']
  · rintro a b a' b' (first | ⟨rfl, rfl⟩) (second | ⟨rfl, rfl⟩)
    · exact states.faithful.handle first second
    · exact bounds first
    · have same := bounds second
      constructor
      · intro equal
        exact (same.mp equal.symm).symm
      · intro equal
        exact (same.mpr equal.symm).symm
    · simp
  · intro parallel
    have lengths := states.lengths parallel
    exact ⟨lengths.1, by simp [lengths.2]⟩
  · intro parallel a a'
    have lengths := (states.lengths parallel).2
    have same : world.handle a a' ↔ a = a' := states.handle parallel
    constructor
    · rintro (old | ⟨rfl, rfl⟩)
      · exact same.mp old
      · exact lengths.symm
    · intro equal
      exact .inl (same.mpr equal)
  · rintro serial a a' (old | ⟨rfl, rfl⟩)
    · have defined := states.defined serial old
      simp only [List.length_append, List.length_singleton]
      omega
    · simp

theorem alike_defineFunction {function function' : Option ResolvedType → Function}
    {annotated : Option TypeAnnotation} {slot slot' : Nat}
    (related : ∀ {larger}, world.Extends larger → ∀ ty,
      FunctionRel comparison larger (function ty)
        (function' (comparison.keep ty)))
    (slots : world.slot slot slot') :
    Alike simulation comparison situation world (fun _ _ _ => True)
      (defineFunction function annotated slot)
      (defineFunction function' (comparison.rewriting.optional annotated)
        slot') := by
  unfold defineFunction
  apply alike_annotationType.bind
  rintro second toSecond ty _ rfl before before' states
  have extends' := second.extends_withHandle before.functions.length
    before'.functions.length
  have defined := states.define (related toSecond ty)
  have value : Value.Rel (comparison.matching
      (second.withHandle before.functions.length before'.functions.length))
      (.function before.functions.length)
      (.function before'.functions.length) := .inr ⟨rfl, rfl⟩
  apply Simulation.mono
    (alike_write (extends'.slot (toSecond.slot slots)) value _ _ defined)
  exact fun _ _ ended => ended.weaken extends' rfl

theorem Stmt.fits_unspanned {serial returns : Bool} :
    ∀ node : Stmt, node.Fits serial returns →
      node.unspanned.Fits serial returns
  | .located _ inner => fun fits =>
      Stmt.fits_unspanned inner (by simpa only [Stmt.Fits] using fits)
  | .type _ _ | .break | .continue | .parallel _ _ _ | .match _ _
  | .let _ _ _ | .expression _ | .block _ | .if _ _ _ | .while _ _
  | .for _ _ _ | .function _ _ _ _ | .return _ => id

theorem alike_declareFunctions (point : Point) (i : Nat)
    {pairs pairs' : List (Stmt × Option Nat)}
    (related : comparison.pairs world pairs pairs')
    (fits : ∀ pair ∈ pairs, pair.1.Fits comparison.serial situation.returns)
    (environments : EnvRel world env env') :
    Alike simulation comparison situation world (fun _ _ _ => True)
      (declareFunctions point i pairs env)
      (declareFunctions point i pairs' env') := by
  induction pairs generalizing i world env env' pairs' with
  | nil =>
      cases related
      exact alike_pure trivial
  | cons pair rest induction =>
      obtain _ | ⟨⟨same, slots⟩, tail⟩ := related
      next pair' rest' =>
      obtain ⟨node, slot⟩ := pair
      obtain ⟨node', slot'⟩ := pair'
      cases (same : node' = comparison.rewriting.stmt node)
      have unlocated := comparison.rewriting.stmt_unspanned node
      have later := fun pair member =>
        fits pair (List.mem_cons_of_mem _ member)
      have first := Stmt.fits_unspanned node (fits _ List.mem_cons_self)
      have skipped := induction (i + 1) tail later environments
      simp only [declareFunctions]
      rw [unlocated]
      cases shape : node.unspanned with
      | «let» name annotated value =>
          simp only [Rewriting.stmt]
          apply (alike_slotOf slots).bind
          intro second toSecond id id' slot
          apply (alike_declareIn (environments.mono toSecond) name slot).bind
          intro third toThird declared declared' envs
          exact induction (i + 1)
            (pairs_mono (toSecond.trans toThird) tail) later envs
      | function name parameters returnAnnotated body =>
          simp only [Rewriting.stmt]
          apply (alike_slotOf slots).bind
          intro second toSecond id id' slot
          have bodyFits : body.Fits comparison.serial true := by
            simpa only [shape, Stmt.Fits] using first
          refine (alike_defineFunction ?_ slot).bind ?_
          · intro larger extends' ty
            exact ⟨rfl, rfl, rfl, rfl, bodyFits,
              environments.mono (toSecond.trans extends'), rfl⟩
          · intro third toThird _ _ _
            have all := toSecond.trans toThird
            exact induction (i + 1) (pairs_mono all tail) later
              (environments.mono all)
      | parallel variableName iterable body =>
          by_cases serial : comparison.rewriting.parallel = true
          · simp only [Rewriting.stmt, serial, if_true]
            exact skipped
          · simp only [Rewriting.stmt, serial]
            exact skipped
      | located span inner =>
          exact absurd shape (Stmt.unspanned_ne_located node span inner)
      | _ =>
          simp only [Rewriting.stmt]
          exact skipped

end Hoisting

section

variable {worker : Bool} {given given' : Evaluator}
  (similar : Similar simulation comparison worker given given')
  (inside : situation.worker = worker)

include similar inside

/-- The expression that is tested keeps its truth value. -/
theorem alike_condition (point : Point) (node : Expr)
    (environments : EnvRel world env env') :
    Alike simulation comparison situation world (fun _ => Eq)
      (condition given point node env)
      (condition given' point (comparison.rewriting.expr node) env') := by
  unfold condition
  apply (similar.expression point node inside environments).bind
  intro larger extends' value value' values
  have converted : Alike simulation comparison situation larger (fun _ => Eq)
      (lift point value.asBoolean) (lift point value'.asBoolean) :=
    alike_lift (asBoolean_agree values)
  exact converted.relocate

variable (top : situation.depth = 0)

include top

theorem alike_scopedBody (point : Point) (body : Stmt)
    (fits : body.Fits comparison.serial situation.returns)
    (environments : EnvRel world env env') :
    Alike simulation comparison situation world
      (fun larger => FlowRel (comparison.matching larger))
      (scopedBody given point body env)
      (scopedBody given' point (comparison.rewriting.stmt body) env') := by
  unfold scopedBody
  apply (similar.body point body inside top fits
    (.cons .nil environments)).bind
  rintro larger extends' ⟨flow, _⟩ ⟨flow', _⟩ ⟨flows, _⟩
  exact alike_pure flows

theorem alike_whileLoop (point : Point) (test : Expr) (body : Stmt)
    (fits : body.Fits comparison.serial situation.returns)
    (environments : EnvRel world env env') :
    Alike simulation comparison situation world
      (fun larger => FlowRel (comparison.matching larger))
      (whileLoop given point test body env)
      (whileLoop given' point (comparison.rewriting.expr test)
        (comparison.rewriting.stmt body) env') := by
  unfold whileLoop
  apply (alike_condition similar inside (0 :: point) test environments).bind
  rintro second toSecond again _ rfl
  cases again with
  | false => exact alike_pure trivial
  | true =>
      apply (alike_scopedBody similar inside top (1 :: point) body fits
        (environments.mono toSecond)).bind
      intro third toThird flow flow' flows
      have repeated := similar.whileLoop point test body inside top fits
        (environments.mono (toSecond.trans toThird))
      match flow, flow', flows with
      | .break, .break, _ => exact alike_pure trivial
      | .return value, .return value', values => exact alike_pure values
      | .normal, .normal, _ => exact repeated
      | .continue, .continue, _ => exact repeated

theorem alike_forLoop (supports : Supports simulation comparison)
    (point : Point) (variableName : String) (body : Stmt)
    (fits : body.Fits comparison.serial situation.returns)
    {values values' : List Value} (environments : EnvRel world env env')
    (related : Value.RelList (comparison.matching world) values values') :
    Alike simulation comparison situation world
      (fun larger => FlowRel (comparison.matching larger))
      (forLoop given point variableName body env values)
      (forLoop given' point variableName (comparison.rewriting.stmt body)
        env' values') := by
  induction values generalizing world env env' values' with
  | nil =>
      cases values' with
      | nil => exact alike_pure trivial
      | cons value' rest' => exact related.elim
  | cons value rest induction =>
      cases values' with
      | nil => exact related.elim
      | cons value' rest' =>
          obtain ⟨head, tail⟩ := related
          simp only [forLoop]
          apply (alike_tick supports).bind
          intro second toSecond _ _ _
          have allocated : BindingRel comparison second
              ⟨none, some value, true⟩ ⟨none, some value', true⟩ :=
            ⟨rfl, comparison.keep_none.symm,
              .some (head.mono (comparison.matching_mono toSecond))⟩
          apply (alike_allocate allocated).bind
          intro third toThird id id' slot
          have envs := environments.mono (toSecond.trans toThird)
          have scope : ScopeRel third [(variableName, id)]
              [(variableName, id')] := .cons ⟨rfl, slot⟩ .nil
          apply (similar.body (1 :: point) body inside top fits
            (.cons scope envs)).bind
          rintro fourth toFourth ⟨flow, _⟩ ⟨flow', _⟩ ⟨flows, _⟩
          have all := (toSecond.trans toThird).trans toFourth
          have repeated := induction (environments.mono all)
            (Value.relList_iff.mpr ((Value.relList_iff.mp tail).imp
              fun _ _ => Value.Rel.mono (comparison.matching_mono all)))
          match flow, flow', flows with
          | .break, .break, _ => exact alike_pure trivial
          | .return value, .return value', values => exact alike_pure values
          | .normal, .normal, _ => exact repeated
          | .continue, .continue, _ => exact repeated

theorem alike_matchArms (point : Point) (i : Nat)
    (arms : List (Pattern × Stmt)) {value value' : Value}
    (fits : Stmt.FitsArms comparison.serial situation.returns arms)
    (environments : EnvRel world env env')
    (related : Value.Rel (comparison.matching world) value value') :
    Alike simulation comparison situation world
      (fun larger => FlowRel (comparison.matching larger))
      (matchArms given point env value i arms)
      (matchArms given' point env' value' i
        (comparison.rewriting.armList arms)) := by
  induction arms generalizing i with
  | nil => exact alike_pure trivial
  | cons arm rest induction =>
      obtain ⟨pattern, body⟩ := arm
      rw [Stmt.FitsArms] at fits
      simp only [matchArms, Rewriting.armList]
      rw [comparison.rewriting.pattern_unspanned,
        accepts_agree pattern.unspanned related]
      split
      · exact alike_scopedBody similar inside top (i :: point) body fits.1
          environments
      · exact induction (i + 1) fits.2

omit top in
theorem alike_returnValue (point : Point) (node : Option Expr)
    (environments : EnvRel world env env') :
    Alike simulation comparison situation world comparison.values
      (returnValue given point env node)
      (returnValue given' point env'
        (comparison.rewriting.exprOption node)) := by
  cases node with
  | none => exact alike_pure trivial
  | some node => exact similar.expression (0 :: point) node inside environments

omit similar inside top in
/-- Related values are related arrays, or neither of them is an array. -/
theorem rel_arrays {matching : Matching} {value value' : Value}
    (related : Value.Rel matching value value') :
    (∃ values values', value = .array values ∧ value' = .array values' ∧
      Value.RelList matching values values') ∨
      (∀ values, value ≠ .array values) ∧
        ∀ values, value' ≠ .array values := by
  cases value with
  | array values =>
      cases value' with
      | array values' => exact .inl ⟨values, values', rfl, rfl, related⟩
      | _ => exact related.elim
  | _ =>
      refine .inr ⟨fun values same => Value.noConfusion same, ?_⟩
      rintro values rfl
      exact related.elim

theorem alike_forStatement (supports : Supports simulation comparison)
    (point : Point) (variableName : String) (iterable : Expr) (body : Stmt)
    (fits : body.Fits comparison.serial situation.returns)
    (environments : EnvRel world env env') :
    Alike simulation comparison situation world
      (fun larger => FlowRel (comparison.matching larger))
      (forStatement given point env variableName iterable body)
      (forStatement given' point env' variableName
        (comparison.rewriting.expr iterable)
        (comparison.rewriting.stmt body)) := by
  unfold forStatement
  apply (similar.expression (0 :: point) iterable inside environments).bind
  intro second toSecond value value' values
  obtain ⟨elements, elements', rfl, rfl, related⟩ | ⟨neither, neither'⟩ :=
    rel_arrays values
  · exact alike_forLoop similar inside top supports point variableName body
      fits (environments.mono toSecond) related
  · split
    · exact absurd rfl (neither _)
    · exact alike_fail

/-- Before its iterations a parallel statement is a serial loop. -/
theorem alike_parallel [Formatting]
    (parallels : ParallelAlike simulation comparison worker given given')
    (point : Point) (variableName : String) (iterable : Expr) (body : Stmt)
    (fits : body.Fits comparison.serial
      (situation.returns && !comparison.serial))
    (environments : EnvRel world env env') :
    Alike simulation comparison situation world
      (fun _ _ flow => flow = Flow.normal)
      (parallel given point env variableName iterable body)
      (statement given' point
        (comparison.rewriting.stmt (.parallel variableName iterable body))
        env') := by
  have evaluated :=
    similar.expression (0 :: point) iterable inside environments
  have looped : ∀ {larger : World} {values values' : List Value},
      world.Extends larger →
      Value.RelList (comparison.matching larger) values values' →
      values ≠ [] → _ := fun extends' related nonempty =>
    parallels point variableName body inside top fits
      (environments.mono extends') related nonempty
  unfold Comparison.counterpart at looped
  cases serial : comparison.serial with
  | true =>
      have strict : comparison.strict = true := by
        by_contra lenient
        have kept := (comparison.lenient (by simpa using lenient)).2.1
        rw [show comparison.rewriting.parallel = true from serial] at kept
        cases kept
      simp only [serial, if_true] at looped
      rw [Rewriting.stmt, if_pos serial]
      apply evaluated.bind
      intro second toSecond value value' values
      obtain ⟨elements, elements', rfl, rfl, related⟩ | ⟨neither, neither'⟩ :=
        rel_arrays values
      · cases elements with
        | nil =>
            cases elements' with
            | nil => exact alike_pure rfl
            | cons head tail => exact related.elim
        | cons head tail =>
            cases elements' with
            | nil => exact related.elim
            | cons head' tail' =>
                exact looped toSecond related (List.cons_ne_nil _ _)
      · split
        · exact absurd rfl (neither [])
        · exact absurd rfl (neither _)
        · split
          · exact absurd rfl (neither' _)
          · exact alike_fail_strict strict
  | false =>
      simp only [serial, Bool.false_eq_true, if_false] at looped
      have different : ¬ comparison.rewriting.parallel = true := by
        simpa using serial
      rw [Rewriting.stmt, if_neg different]
      simp only [statement, parallel, Interp.bind_assoc]
      apply evaluated.bind
      intro second toSecond value value' values
      obtain ⟨elements, elements', rfl, rfl, related⟩ | ⟨neither, neither'⟩ :=
        rel_arrays values
      · cases elements with
        | nil =>
            cases elements' with
            | nil => exact alike_pure rfl
            | cons head tail => exact related.elim
        | cons head tail =>
            cases elements' with
            | nil => exact related.elim
            | cons head' tail' =>
                exact looped toSecond related (List.cons_ne_nil _ _)
      · split
        · exact absurd rfl (neither [])
        · exact absurd rfl (neither _)
        · split
          · exact absurd rfl (neither' [])
          · exact absurd rfl (neither' _)
          · rw [Interp.fail_bind]
            exact alike_fail

variable [Formatting]

theorem alike_statement (supports : Supports simulation comparison)
    (parallels : ParallelAlike simulation comparison worker given given')
    (environments : EnvRel world env env') (point : Point) :
    ∀ node : Stmt, node.Fits comparison.serial situation.returns →
    Alike simulation comparison situation world
      (fun larger => FlowRel (comparison.matching larger))
      (statement given point node env)
      (statement given' point (comparison.rewriting.stmt node) env')
  | .located span inner, fits => by
      have unlocated := alike_statement supports parallels environments point
        inner (by simpa only [Stmt.Fits] using fits)
      by_cases dropped : comparison.rewriting.locations = true
      · rw [Rewriting.stmt, if_pos dropped]
        exact unlocated.withSpan_left
      · rw [Rewriting.stmt, if_neg dropped]
        exact unlocated.withSpan_left.withSpan_right
  | .type _ _, _ | .break, _ | .continue, _ | .function _ _ _ _, _ => by
      rw [Rewriting.stmt]
      exact alike_pure trivial
  | .let _ _ _, _ => by
      rw [Rewriting.stmt]
      exact alike_stop trivial
  | .expression node, _ => by
      rw [Rewriting.stmt]
      apply (similar.expression (0 :: point) node inside environments).bind
      intro larger extends' value value' values
      exact alike_pure trivial
  | .block list, fits => by
      have entered := alike_scopedBody similar inside top
        (1 :: point) (.block list) fits environments
      rw [Rewriting.stmt] at entered ⊢
      exact entered
  | .return value, fits => by
      rw [Rewriting.stmt]
      simp only [Stmt.Fits] at fits
      apply alike_location.bind
      intro second toSecond _ _ _
      apply (alike_returnValue similar inside point value
        (environments.mono toSecond)).bind
      intro third toThird result result' results
      apply (alike_checkReturn fits results).relocate.bind
      intro fourth toFourth _ _ _
      exact alike_pure (results.mono (comparison.matching_mono toFourth))
  | .if test thenBranch elseBranch, fits => by
      rw [Rewriting.stmt]
      simp only [Stmt.Fits] at fits
      apply (alike_condition similar inside (0 :: point) test
        environments).bind
      rintro second toSecond chosen _ rfl
      have envs := environments.mono toSecond
      cases chosen with
      | true =>
          exact alike_scopedBody similar inside top (1 :: point) thenBranch
            fits.1 envs
      | false =>
          cases elseBranch with
          | none => exact alike_pure trivial
          | some branch =>
              have branchFits : branch.Fits comparison.serial
                  situation.returns := by
                simpa only [Stmt.FitsOption] using fits.2
              exact alike_scopedBody similar inside top (2 :: point) branch
                branchFits envs
  | .while test body, fits => by
      rw [Rewriting.stmt]
      exact similar.whileLoop point test body inside top
        (by simpa only [Stmt.Fits] using fits) environments
  | .for variableName iterable body, fits => by
      rw [Rewriting.stmt]
      exact alike_forStatement similar inside top supports point variableName
        iterable body (by simpa only [Stmt.Fits] using fits) environments
  | .match value arms, fits => by
      rw [Rewriting.stmt]
      apply (similar.expression (0 :: point) value inside environments).bind
      intro second toSecond result result' results
      exact alike_matchArms similar inside top point 1 arms
        (by simpa only [Stmt.Fits] using fits) (environments.mono toSecond)
        results
  | .parallel variableName iterable body, fits => by
      have alike := alike_parallel similar inside top parallels point
        variableName iterable body (by simpa only [Stmt.Fits] using fits)
        environments
      rw [← Interp.bind_pure (statement given' point _ env')]
      apply alike.bind
      rintro second toSecond _ _ rfl
      exact alike_pure trivial

omit top [Formatting] in
theorem alike_executeLet (point : Point) (name : String) (value : Expr)
    {slot slot' : Option Nat} (slots : Option.Rel world.slot slot slot')
    (environments : EnvRel world env env') :
    Alike simulation comparison situation world comparison.flows
      (executeLet given point name value slot env)
      (executeLet given' point name (comparison.rewriting.expr value) slot'
        env') := by
  unfold executeLet
  apply alike_location.bind
  intro first toFirst _ _ _
  apply (similar.expression (0 :: point) value inside
    (environments.mono toFirst)).bind
  intro second toSecond result result' results
  have before := toFirst.trans toSecond
  apply (alike_slotOf (optionRel_mono slots fun _ _ => before.slot)).bind
  intro third toThird id id' slot
  have kept := results.mono (comparison.matching_mono toThird)
  apply (alike_checkBinding slot kept).relocate.bind
  intro fourth toFourth _ _ _
  apply (alike_write (toFourth.slot slot)
    (kept.mono (comparison.matching_mono toFourth))).bind
  intro fifth toFifth _ _ _
  have all := ((before.trans toThird).trans toFourth).trans toFifth
  apply (alike_declareIn (environments.mono all) name
    (toFifth.slot (toFourth.slot slot))).bind
  intro sixth toSixth declared declared' envs
  exact alike_pure ⟨trivial, envs⟩

theorem alike_executeUnlocated (supports : Supports simulation comparison)
    (parallels : ParallelAlike simulation comparison worker given given')
    (point : Point) (node : Stmt)
    (bare : ∀ span inner, node ≠ .located span inner)
    (fits : node.Fits comparison.serial situation.returns)
    {slot slot' : Option Nat} (slots : Option.Rel world.slot slot slot')
    (environments : EnvRel world env env') :
    Alike simulation comparison situation world comparison.flows
      (executeUnlocated given point node slot env)
      (executeUnlocated given' point (comparison.rewriting.stmt node) slot'
        env') := by
  have executed := alike_statement similar inside top supports parallels
    environments point node fits
  cases node with
  | «let» name annotated value =>
      rw [Rewriting.stmt]
      exact alike_executeLet similar inside point name value slots
        environments
  | located span inner => exact absurd rfl (bare span inner)
  | parallel variableName iterable body =>
      by_cases serial : comparison.rewriting.parallel = true
      · rw [Rewriting.stmt, if_pos serial] at executed ⊢
        apply executed.bind
        intro second toSecond flow flow' flows
        exact alike_pure ⟨flows, environments.mono toSecond⟩
      · rw [Rewriting.stmt, if_neg serial] at executed ⊢
        apply executed.bind
        intro second toSecond flow flow' flows
        exact alike_pure ⟨flows, environments.mono toSecond⟩
  | _ =>
      rw [Rewriting.stmt] at executed ⊢
      apply executed.bind
      intro second toSecond flow flow' flows
      exact alike_pure ⟨flows, environments.mono toSecond⟩

theorem alike_execute (supports : Supports simulation comparison)
    (parallels : ParallelAlike simulation comparison worker given given')
    (point : Point) (node : Stmt)
    (fits : node.Fits comparison.serial situation.returns)
    {slot slot' : Option Nat} (slots : Option.Rel world.slot slot slot')
    (environments : EnvRel world env env') :
    Alike simulation comparison situation world comparison.flows
      (execute given point node slot env)
      (execute given' point (comparison.rewriting.stmt node) slot' env') := by
  apply Alike.withSpan_left
  apply Alike.withSpan_right
  apply alike_observed
  apply (alike_tick supports).bind
  intro second toSecond _ _ _
  rw [comparison.rewriting.stmt_unspanned]
  exact alike_executeUnlocated similar inside top supports parallels point
    node.unspanned (Stmt.unspanned_ne_located node)
    (Stmt.fits_unspanned node fits)
    (optionRel_mono slots fun _ _ => toSecond.slot)
    (environments.mono toSecond)

theorem alike_executeAll (supports : Supports simulation comparison)
    (parallels : ParallelAlike simulation comparison worker given given')
    (point : Point) (i : Nat) {pairs pairs' : List (Stmt × Option Nat)}
    (related : comparison.pairs world pairs pairs')
    (fits : ∀ pair ∈ pairs, pair.1.Fits comparison.serial situation.returns)
    (environments : EnvRel world env env') :
    Alike simulation comparison situation world comparison.flows
      (executeAll given point i pairs env)
      (executeAll given' point i pairs' env') := by
  induction pairs generalizing i world env env' pairs' with
  | nil =>
      cases related
      exact alike_pure ⟨trivial, environments⟩
  | cons pair rest induction =>
      obtain _ | ⟨⟨same, slots⟩, tail⟩ := related
      next pair' rest' =>
      obtain ⟨node, slot⟩ := pair
      obtain ⟨node', slot'⟩ := pair'
      cases (same : node' = comparison.rewriting.stmt node)
      simp only [executeAll]
      apply (alike_execute similar inside top supports parallels (i :: point)
        node (fits _ List.mem_cons_self) slots environments).bind
      rintro second toSecond ⟨flow, next⟩ ⟨flow', next'⟩ ⟨flows, envs⟩
      match flow, flow', flows with
      | .normal, .normal, _ =>
          exact induction (i + 1) (pairs_mono toSecond tail)
            (fun pair member => fits pair (List.mem_cons_of_mem _ member))
            envs
      | .break, .break, _ | .continue, .continue, _ =>
          exact alike_pure ⟨trivial, envs⟩
      | .return value, .return value', values =>
          exact alike_pure ⟨values, envs⟩

theorem alike_statements (supports : Supports simulation comparison)
    (parallels : ParallelAlike simulation comparison worker given given')
    (point : Point) (list : List Stmt)
    (fits : ∀ node ∈ list, node.Fits comparison.serial situation.returns)
    (environments : EnvRel world env env') :
    Alike simulation comparison situation world comparison.flows
      (statements given point list env)
      (statements given' point (comparison.rewriting.stmtList list)
        env') := by
  have zipped : ∀ (slots : List (Option Nat)), ∀ pair ∈ list.zip slots,
      pair.1.Fits comparison.serial situation.returns :=
    fun slots pair member => fits _ (List.of_mem_zip member).1
  unfold statements
  apply (alike_reserve list environments).bind
  rintro second toSecond ⟨slots, env⟩ ⟨slots', env'⟩ ⟨related, envs⟩
  have pairs : comparison.pairs second (list.zip slots)
    ((comparison.rewriting.stmtList list).zip slots') := pairs_zip related
  apply (alike_declareFunctions point 0 pairs (zipped slots) envs).bind
  intro third toThird _ _ _
  exact alike_executeAll similar inside top supports parallels point 0
    (pairs_mono toThird pairs) (zipped slots) (envs.mono toThird)

omit similar inside top [Formatting] in
theorem Stmt.fitsList_iff {serial returns : Bool} {list : List Stmt} :
    Stmt.FitsList serial returns list ↔
      ∀ node ∈ list, node.Fits serial returns := by
  induction list with
  | nil => simp [Stmt.FitsList]
  | cons node rest induction => simp [Stmt.FitsList, induction]

/-- A body that is no block is a list of one statement. -/
theorem alike_single (supports : Supports simulation comparison)
    (parallels : ParallelAlike simulation comparison worker given given')
    (environments : EnvRel world env env') (point : Point) (node : Stmt)
    (fits : node.Fits comparison.serial situation.returns) :
    Alike simulation comparison situation world comparison.flows
      (statements given point [node] env)
      (statements given' point [comparison.rewriting.stmt node] env') := by
  have listed := alike_statements similar inside top supports parallels point
    [node] (by simpa using fits) environments
  simpa only [Rewriting.stmtList] using listed

theorem alike_body (supports : Supports simulation comparison)
    (parallels : ParallelAlike simulation comparison worker given given')
    (environments : EnvRel world env env') (point : Point) :
    ∀ node : Stmt, node.Fits comparison.serial situation.returns →
    Alike simulation comparison situation world comparison.flows
      (body given point node env)
      (body given' point (comparison.rewriting.stmt node) env')
  | .located span inner, fits => by
      have unlocated := alike_body supports parallels environments point
        inner (by simpa only [Stmt.Fits] using fits)
      by_cases dropped : comparison.rewriting.locations = true
      · rw [Rewriting.stmt, if_pos dropped]
        exact unlocated.withSpan_left
      · rw [Rewriting.stmt, if_neg dropped]
        exact unlocated.withSpan_left.withSpan_right
  | .block list, fits => by
      rw [Rewriting.stmt]
      simp only [Stmt.Fits] at fits
      apply alike_observe.bind
      intro larger extends' _ _ _
      exact alike_statements similar inside top supports parallels point list
        (Stmt.fitsList_iff.mp fits) (environments.mono extends')
  | .parallel variableName iterable body, fits => by
      by_cases serial : comparison.rewriting.parallel = true
      · rw [Rewriting.stmt, if_pos serial]
        apply alike_observe.bind
        intro larger extends' _ _ _
        have single := alike_single similar inside top supports parallels
          (environments.mono extends') point _ fits
        rw [Rewriting.stmt, if_pos serial] at single
        exact single
      · rw [Rewriting.stmt, if_neg serial]
        apply alike_observe.bind
        intro larger extends' _ _ _
        have single := alike_single similar inside top supports parallels
          (environments.mono extends') point _ fits
        rw [Rewriting.stmt, if_neg serial] at single
        exact single
  | .type _ _, fits | .break, fits | .continue, fits | .match _ _, fits
  | .let _ _ _, fits | .expression _, fits | .if _ _ _, fits
  | .while _ _, fits | .for _ _ _, fits | .function _ _ _ _, fits
  | .return _, fits => by
      rw [Rewriting.stmt]
      apply alike_observe.bind
      intro larger extends' _ _ _
      have single := alike_single similar inside top supports parallels
        (environments.mono extends') point _ fits
      rw [Rewriting.stmt] at single
      exact single

end

section Evaluators

variable [Formatting] {worker : Bool}

/-- The next evaluators are alike if the ones they call are. -/
theorem Similar.step {given given' : Evaluator}
    (supports : Supports simulation comparison)
    (prints : PrintsAlike simulation comparison worker)
    (parallels : ParallelAlike simulation comparison worker given given')
    (similar : Similar simulation comparison worker given given') :
    Similar simulation comparison worker given.step given'.step where
  clock := congrArg (· + 1) similar.clock
  expression := fun point node inside environments =>
    alike_expression similar inside supports prints environments point node
  body := fun point node inside top fits environments =>
    alike_body similar inside top supports parallels environments point node
      fits
  whileLoop := fun point test node inside top fits environments =>
    alike_whileLoop similar inside top point test node fits environments

omit [Formatting] in
theorem similar_exhausted : Similar simulation comparison worker exhausted
    exhausted where
  clock := rfl
  expression := fun _ _ _ _ => alike_stop trivial
  body := fun _ _ _ _ _ _ => alike_stop trivial
  whileLoop := fun _ _ _ _ _ _ _ => alike_stop trivial

/-- With the same fuel, the evaluators of a program and of its rewriting are
alike, if parallel statements are alike what they have become. -/
theorem similar_evaluator (supports : Supports simulation comparison)
    (prints : PrintsAlike simulation comparison worker)
    (parallels : ∀ clock,
      Similar simulation comparison worker (evaluator clock)
        (evaluator clock) →
      ParallelAlike simulation comparison worker (evaluator clock)
        (evaluator clock)) (clock : Nat) :
    Similar simulation comparison worker (evaluator clock)
      (evaluator clock) := by
  induction clock with
  | zero => exact similar_exhausted
  | succ clock induction =>
      exact Similar.step supports prints (parallels clock induction) induction

end Evaluators

end NetLang
