import NetLang.Relational.Rules
import NetLang.Interpreter.Statement

/-!
# Expressions of a program and of its rewriting

If the evaluators of nested expressions and bodies are alike, so are the
evaluations of every expression and of its rewriting.
-/

namespace NetLang

open Interp

variable {simulation : Simulation effects String}
  {comparison : Comparison} {situation : Situation} {world : World}
  {env env' : Environment}

def FlowRel (matching : Matching) : Flow → Flow → Prop
  | .normal, .normal | .break, .break | .continue, .continue => True
  | .return value, .return value' => Value.Rel matching value value'
  | _, _ => False

/-- Related values, in the matching of a world. -/
abbrev Comparison.values (comparison : Comparison) (world : World) :
    Value → Value → Prop :=
  Value.Rel (comparison.matching world)

/-- Related flows and environments, in a world. -/
def Comparison.flows (comparison : Comparison) (world : World)
    (left right : Flow × Environment) : Prop :=
  FlowRel (comparison.matching world) left.1 right.1 ∧
    EnvRel world left.2 right.2

/-- The evaluators of a program and of its rewriting are alike, in the main
thread or in a worker. -/
structure Similar (simulation : Simulation effects String)
    (comparison : Comparison) (worker : Bool) (given given' : Evaluator) :
    Prop where
  clock : given'.clock = given.clock
  expression : ∀ {situation : Situation} {world : World}
    {env env' : Environment} (point : Point) (node : Expr),
    situation.worker = worker → EnvRel world env env' →
    Alike simulation comparison situation world comparison.values
      (given.expression point node env)
      (given'.expression point (comparison.rewriting.expr node) env')
  body : ∀ {situation : Situation} {world : World}
    {env env' : Environment} (point : Point) (node : Stmt),
    situation.worker = worker → situation.depth = 0 →
    node.Fits comparison.serial situation.returns → EnvRel world env env' →
    Alike simulation comparison situation world comparison.flows
      (given.body point node env)
      (given'.body point (comparison.rewriting.stmt node) env')
  whileLoop : ∀ {situation : Situation} {world : World}
    {env env' : Environment} (point : Point) (test : Expr) (node : Stmt),
    situation.worker = worker → situation.depth = 0 →
    node.Fits comparison.serial situation.returns → EnvRel world env env' →
    Alike simulation comparison situation world
      (fun larger => FlowRel (comparison.matching larger))
      (given.whileLoop point test node env)
      (given'.whileLoop point (comparison.rewriting.expr test)
        (comparison.rewriting.stmt node) env')

/-- Printing the same line is alike. -/
def PrintsAlike (simulation : Simulation effects String)
    (comparison : Comparison) (worker : Bool) : Prop :=
  ∀ {situation : Situation} {world : World} (point : Point) (text : String),
    situation.worker = worker →
    Alike simulation comparison situation world (fun _ _ _ => True)
      (print point text) (print point text)

section

variable {worker : Bool} {given given' : Evaluator}
  (supports : Supports simulation comparison)
  (prints : PrintsAlike simulation comparison worker)
  (similar : Similar simulation comparison worker given given')
  (inside : situation.worker = worker)

include similar inside

theorem alike_expressions (point : Point) (i : Nat) (nodes : List Expr)
    (environments : EnvRel world env env') :
    Alike simulation comparison situation world
      (fun larger => Value.RelList (comparison.matching larger))
      (expressions given point env i nodes)
      (expressions given' point env' i
        (comparison.rewriting.exprList nodes)) := by
  induction nodes generalizing i world with
  | nil => exact alike_pure trivial
  | cons node rest induction =>
      unfold expressions
      apply (similar.expression (i :: point) node inside environments).bind
      intro larger extends' value value' related
      apply (induction (i + 1) (environments.mono extends')).bind
      intro largest further values values' relateds
      exact alike_pure
        ⟨related.mono (comparison.matching_mono further), relateds⟩

theorem alike_objectFields (point : Point) (i : Nat)
    (fields : List (String × Expr)) {values values' : SortedMap Value}
    (environments : EnvRel world env env')
    (related : Value.RelFields (comparison.matching world) values values') :
    Alike simulation comparison situation world
      (fun larger => Value.RelFields (comparison.matching larger))
      (objectFields given point env i fields values)
      (objectFields given' point env' i
        (comparison.rewriting.fieldList fields) values') := by
  induction fields generalizing i world values values' with
  | nil => exact alike_pure related
  | cons field rest induction =>
      obtain ⟨key, node⟩ := field
      unfold objectFields
      apply (similar.expression (i :: point) node inside environments).bind
      intro larger extends' value value' new
      exact induction (i + 1) (environments.mono extends')
        (Value.relFields_insert
          (related.mono (comparison.matching_mono extends')) key new)

theorem alike_constructorFields (point : Point)
    (definition : List TypeField) (i : Nat)
    (fields : List (String × Expr)) {values values' : SortedMap Value}
    (environments : EnvRel world env env')
    (related : Value.RelFields (comparison.matching world) values values') :
    Alike simulation comparison situation world
      (fun larger => Value.RelFields (comparison.matching larger))
      (constructorFields given point env definition i fields values)
      (constructorFields given' point env'
        (definition.map comparison.rewriting.field) i
        (comparison.rewriting.fieldList fields) values') := by
  induction fields generalizing i world values values' with
  | nil => exact alike_pure related
  | cons field rest induction =>
      obtain ⟨key, node⟩ := field
      unfold constructorFields
      apply (similar.expression (i :: point) node inside environments).bind
      intro second toSecond value value' new
      apply alike_types.bind
      rintro third toThird types types' ⟨agree, _⟩
      have declared : ((definition.map comparison.rewriting.field).find?
          fun field => field.name == key) = (definition.find? fun field =>
            field.name == key).map comparison.rewriting.field :=
        List.find?_map
      have expected : (((definition.map comparison.rewriting.field).find?
          fun field => field.name == key).bind fun field =>
            types'.resolve field.annotated.name) =
          (definition.find? fun field => field.name == key).bind
            fun field => types.resolve field.annotated.name := by
        rw [declared]
        cases definition.find? fun field => field.name == key with
        | none => rfl
        | some field =>
            simp only [Option.map_some, Option.bind_some, Rewriting.field,
              Rewriting.typeAnnotated_name, agree.resolve]
      dsimp only
      rw [expected]
      have kept := new.mono (comparison.matching_mono toThird)
      apply (alike_checkSame kept).relocate.bind
      intro fourth toFourth _ _ _
      have all := (toSecond.trans toThird).trans toFourth
      exact induction (i + 1) (environments.mono all)
        (Value.relFields_insert
          (related.mono (comparison.matching_mono all)) key
          (kept.mono (comparison.matching_mono toFourth)))

theorem alike_construct (point : Point) (name : String)
    (fields : List (String × Expr)) (environments : EnvRel world env env') :
    Alike simulation comparison situation world comparison.values
      (construct given point env name fields)
      (construct given' point env' name
        (comparison.rewriting.fieldList fields)) := by
  unfold construct
  apply alike_types.bind
  rintro second toSecond types types' ⟨agree, _⟩
  rw [agree.resolve]
  split
  · next id _ =>
      have read : Agree (fun definition definition' =>
          definition' = definition.map comparison.rewriting.field)
          (types.fields id).get (types'.fields id).get := by
        rw [agree.fields]
        obtain ⟨definition, failed⟩ := types.fields id
        cases failed <;> rfl
      have reads : Alike simulation comparison situation second
          (fun _ definition definition' =>
            definition' = definition.map comparison.rewriting.field)
          (attempt point (types.fields id).get)
          (attempt point (types'.fields id).get) := alike_attempt read
      apply reads.bind
      rintro third toThird definition _ rfl
      have all := toSecond.trans toThird
      apply (alike_constructorFields similar inside point definition 0 fields
        (environments.mono all) Value.relFields_nil).bind
      intro fourth toFourth values values' related
      exact alike_pure ⟨(agree.mono (comparison.matching_mono
        (toThird.trans toFourth))).identity, rfl, rfl, related⟩
  · exact alike_fail

theorem alike_sendDestination (point : Point) (destination : Option Expr)
    (environments : EnvRel world env env') :
    Alike simulation comparison situation world (fun _ => Eq)
      (sendDestination given point env destination)
      (sendDestination given' point env'
        (comparison.rewriting.exprOption destination)) := by
  cases destination with
  | none => exact alike_pure rfl
  | some node =>
      unfold sendDestination
      apply (similar.expression (2 :: point) node inside environments).bind
      intro larger extends' value value' related
      rcases related.structured with ⟨rfl, _⟩ | ⟨left, right⟩
      · split
        · exact alike_pure rfl
        · exact alike_fail
      · cases value <;> cases left <;> cases value' <;> cases right <;>
          exact alike_fail

omit similar inside in
theorem alike_identifier (point : Point) (name : String)
    (environments : EnvRel world env env') :
    Alike simulation comparison situation world comparison.values
      (identifier point env name) (identifier point env' name) := by
  unfold identifier
  apply (alike_resolve environments name).bind
  intro larger extends' id id' slot
  exact alike_read slot

theorem alike_logical (point : Point) (op : BinaryOp) (node : Expr)
    {value value' : Value} (environments : EnvRel world env env')
    (related : Value.Rel (comparison.matching world) value value') :
    Alike simulation comparison situation world comparison.values
      (logical given point env op node value)
      (logical given' point env' op (comparison.rewriting.expr node)
        value') := by
  unfold logical
  have converted : Alike simulation comparison situation world (fun _ => Eq)
      (lift point value.asBoolean) (lift point value'.asBoolean) :=
    alike_lift (asBoolean_agree related)
  apply converted.bind
  rintro second toSecond left _ rfl
  split
  · exact alike_pure rfl
  · apply (similar.expression (1 :: point) node inside
      (environments.mono toSecond)).bind
    intro third toThird right right' rights
    have converted : Alike simulation comparison situation third (fun _ => Eq)
        (lift point right.asBoolean) (lift point right'.asBoolean) :=
      alike_lift (asBoolean_agree rights)
    apply converted.bind
    rintro fourth toFourth result _ rfl
    exact alike_pure rfl

theorem alike_request (point : Point) (method : HttpMethod)
    (config : Option Expr) {url url' : Value}
    (supports : Supports simulation comparison)
    (environments : EnvRel world env env')
    (related : Value.Rel (comparison.matching world) url url') :
    Alike simulation comparison situation world comparison.values
      (request given point env method config url)
      (request given' point env' method
        (comparison.rewriting.exprOption config) url') := by
  have sent : ∀ {larger : World} (text : String) {value value' : Value},
      Value.Rel (comparison.matching larger) value value' →
      Alike simulation comparison situation larger comparison.values
        (call point (.request method text value))
        (call point (.request method text value')) := by
    intro larger text value value' values
    exact alike_call supports (.request method text value)
      (.request method text value') rfl ⟨rfl, rfl, values⟩
      fun _ _ answers => answers
  rcases related.structured with ⟨rfl, _⟩ | ⟨left, right⟩
  · cases url with
    | string text =>
        cases config with
        | none =>
            have empty : Value.Rel (comparison.matching world) (.object [])
                (.object []) := trivial
            exact (alike_pure empty).bind fun _ _ _ _ values =>
              sent text values
        | some node =>
            apply (similar.expression (1 :: point) node inside
              environments).bind
            intro larger extends' value value' values
            exact sent text values
    | _ => exact alike_fail
  · cases url <;> cases left <;> cases url' <;> cases right <;>
      exact alike_fail

omit similar inside in
theorem alike_openConfigured (supports : Supports simulation comparison)
    (point : Point) (transport : Transport) (address : String) :
    Alike simulation comparison situation world comparison.values
      (openConfigured point transport address)
      (openConfigured point transport address) := by
  cases transport
  · exact alike_call supports (.listenTcp address) (.listenTcp address) rfl
      rfl fun _ _ answers => answers
  · exact alike_call supports (.bindUdp address) (.bindUdp address) rfl rfl
      fun _ _ answers => answers

omit similar inside in
theorem alike_connect (supports : Supports simulation comparison)
    (point : Point) (transport : Transport) (protocol : Option String)
    {value value' : Value}
    (related : Value.Rel (comparison.matching world) value value') :
    Alike simulation comparison situation world comparison.values
      (connect point transport protocol value)
      (connect point transport protocol value') := by
  match value, value', related with
  | .object fields, .object fields', fieldsRelated =>
      have configured : Alike simulation comparison situation world
          (fun _ => Eq) (lift point (configuredAddress transport fields))
          (lift point (configuredAddress transport fields')) :=
        alike_lift (configuredAddress_agree transport fieldsRelated)
      simp only [connect]
      split
      · exact alike_fail
      · apply configured.bind
        rintro larger extends' address _ rfl
        exact alike_openConfigured supports point transport address
  | .string address, .string _, rfl =>
      exact alike_call supports (.connect transport address protocol)
        (.connect transport address protocol) rfl ⟨rfl, rfl, rfl⟩
        fun _ _ answers => answers
  | .record _ _ _ _, .record _ _ _ _, _ | .integer _, .integer _, _
  | .float _, .float _, _ | .bytes _, .bytes _, _
  | .connection _, .connection _, _ | .boolean _, .boolean _, _
  | .duration _, .duration _, _ | .builtin _, .builtin _, _
  | .function _, .function _, _ | .null, .null, _ | .print, .print, _
  | .array _, .array _, _ => exact alike_fail

/-- The slots and selectors of related targets. -/
def Comparison.targets (comparison : Comparison) (world : World)
    (left right : Nat × List Selector) : Prop :=
  world.slot left.1 right.1 ∧
    List.Forall₂ (Selector.Rel (comparison.matching world)) left.2 right.2

theorem alike_target (supports : Supports simulation comparison) :
    ∀ {world : World}, EnvRel world env env' →
    ∀ (point : Point) (node : Expr),
    Alike simulation comparison situation world comparison.targets
      (target given env point node)
      (target given' env' point (comparison.rewriting.expr node))
  | _, environments, point, .located span inner => by
      have unlocated := alike_target supports environments point inner
      by_cases dropped : comparison.rewriting.locations = true
      · rw [Rewriting.expr, if_pos dropped]
        exact unlocated.withSpan_left
      · rw [Rewriting.expr, if_neg dropped]
        exact unlocated.withSpan_left.withSpan_right
  | _, environments, point, .identifier name => by
      apply (alike_tick supports).bind
      intro second toSecond _ _ _
      apply (alike_resolve (environments.mono toSecond) name).bind
      intro third toThird id id' slot
      exact alike_pure ⟨slot, .nil⟩
  | _, environments, point, .property object name => by
      apply (alike_tick supports).bind
      intro second toSecond _ _ _
      have objects := alike_target supports (environments.mono toSecond)
        (0 :: point) object
      apply objects.bind
      rintro third toThird ⟨root, selectors⟩ ⟨root', selectors'⟩
        ⟨slot, paths⟩
      exact alike_pure ⟨slot, List.rel_append paths (.cons rfl .nil)⟩
  | _, environments, point, .index object index => by
      apply (alike_tick supports).bind
      intro second toSecond _ _ _
      have objects := alike_target supports (environments.mono toSecond)
        (0 :: point) object
      apply objects.bind
      rintro third toThird ⟨root, selectors⟩ ⟨root', selectors'⟩
        ⟨slot, paths⟩
      apply (similar.expression (1 :: point) index inside
        (environments.mono (toSecond.trans toThird))).bind
      intro fourth toFourth value value' values
      exact alike_pure ⟨toFourth.slot slot, List.rel_append
        (paths.imp fun _ _ =>
          Selector.Rel.mono (comparison.matching_mono toFourth))
        (.cons values .nil)⟩
  | _, _, point, .construct _ _ | _, _, point, .connection _ _ _
  | _, _, point, .send _ _ _ | _, _, point, .receive _ | _, _, point, .request _ _ _
  | _, _, point, .integer _ | _, _, point, .float _ | _, _, point, .string _
  | _, _, point, .boolean _ | _, _, point, .null | _, _, point, .duration _
  | _, _, point, .array _ | _, _, point, .object _ | _, _, point, .unary _ _
  | _, _, point, .binary _ _ _ | _, _, point, .assignment _ _
  | _, _, point, .call _ _ => by
      apply (alike_tick supports).bind
      intro second toSecond _ _ _
      exact alike_fail

omit similar inside in
theorem alike_store (point : Point) {id id' : Nat}
    {selectors selectors' : List Selector} {value value' : Value}
    (targets : comparison.targets world (id, selectors) (id', selectors'))
    (related : Value.Rel (comparison.matching world) value value') :
    Alike simulation comparison situation world (fun _ _ _ => True)
      (store point id selectors value)
      (store point id' selectors' value') := by
  obtain ⟨slot, paths⟩ := targets
  have empty : selectors'.isEmpty = selectors.isEmpty := by
    cases paths <;> rfl
  have written : ∀ {larger : World} {root root' : Value},
      world.Extends larger →
      Value.Rel (comparison.matching larger) root root' →
      Alike simulation comparison situation larger (fun _ _ _ => True)
        (do
          checkBinding point id root
          write id root)
        (do
          checkBinding point id' root'
          write id' root') := by
    intro larger root root' extends' roots
    apply (alike_checkBinding (extends'.slot slot) roots).bind
    intro next further _ _ _
    exact alike_write (further.slot (extends'.slot slot))
      (roots.mono (comparison.matching_mono further))
  unfold store
  rw [empty]
  cases selectors.isEmpty with
  | true => exact written (.refl world) related
  | false =>
      apply (alike_read slot).bind
      intro second toSecond root root' roots
      apply alike_types.bind
      rintro third toThird types types' ⟨agree, faithful⟩
      have all := toSecond.trans toThird
      have updated := set_agree faithful agree
        (paths.imp fun _ _ =>
          Selector.Rel.mono (comparison.matching_mono all))
        (roots.mono (comparison.matching_mono toThird))
        (related.mono (comparison.matching_mono all))
      have changes : Alike simulation comparison situation third
          comparison.values (attempt point (root.set types selectors value))
          (attempt point (root'.set types' selectors' value')) :=
        alike_attempt updated
      apply changes.bind
      intro fourth toFourth root root' roots
      exact written (all.trans toFourth) roots

theorem alike_assign (point : Point) (left value : Expr) {id id' : Nat}
    {selectors selectors' : List Selector}
    (environments : EnvRel world env env')
    (targets : comparison.targets world (id, selectors) (id', selectors')) :
    Alike simulation comparison situation world comparison.values
      (assign given point env left value id selectors)
      (assign given' point env' (comparison.rewriting.expr left)
        (comparison.rewriting.expr value) id' selectors') := by
  apply alike_reported
  apply (alike_checkAssignable targets.1).bind
  intro second toSecond _ _ _
  apply (similar.expression (1 :: point) value inside
    (environments.mono toSecond)).bind
  intro third toThird result result' related
  have all := toSecond.trans toThird
  have moved : comparison.targets third (id, selectors) (id', selectors') :=
    ⟨all.slot targets.1, targets.2.imp fun _ _ =>
      Selector.Rel.mono (comparison.matching_mono all)⟩
  apply alike_observe.bind
  intro fourth toFourth _ _ _
  have later : comparison.targets fourth (id, selectors) (id', selectors') :=
    ⟨toFourth.slot moved.1, moved.2.imp fun _ _ =>
      Selector.Rel.mono (comparison.matching_mono toFourth)⟩
  have stored := related.mono (comparison.matching_mono toFourth)
  apply (alike_store point later stored).bind
  intro fifth toFifth _ _ _
  exact alike_pure (stored.mono (comparison.matching_mono toFifth))

omit similar inside in
theorem alike_setTimeout (supports : Supports simulation comparison)
    (point : Point) {argument argument' : Value} {rest rest' : List Value}
    (value : Value.Rel (comparison.matching world) argument argument')
    (values : Value.RelList (comparison.matching world) rest rest') :
    Alike simulation comparison situation world comparison.values
      (setTimeout point argument rest) (setTimeout point argument' rest') := by
  match rest, rest', values with
  | [], [], _ => exact alike_fail
  | [time], [time'], ⟨times, _⟩ =>
      rcases times.structured with ⟨rfl, _⟩ | ⟨left, right⟩
      · cases time with
        | duration milliseconds =>
            have asked : Alike simulation comparison situation world
                (fun _ _ _ => True)
                (call point (.setTimeout argument milliseconds))
                (call point (.setTimeout argument' milliseconds)) :=
              alike_call supports (.setTimeout argument milliseconds)
                (.setTimeout argument' milliseconds) rfl ⟨value, rfl⟩
                fun _ _ _ => trivial
            simp only [setTimeout]
            split
            · exact asked.bind fun _ _ _ _ _ => alike_pure trivial
            · exact alike_fail
        | _ => exact alike_fail
      · cases time <;> cases left <;> cases time' <;> cases right <;>
          exact alike_fail
  | time :: _ :: _, time' :: _ :: _, ⟨times, _⟩ =>
      rcases times.structured with ⟨rfl, _⟩ | ⟨left, right⟩
      · cases time <;> exact alike_fail
      · cases time <;> cases left <;> cases time' <;> cases right <;>
          exact alike_fail

omit similar inside in
theorem alike_callBuiltin (supports : Supports simulation comparison)
    (point : Point) (builtin : Builtin) {arguments arguments' : List Value}
    (related : Value.RelList (comparison.matching world) arguments
      arguments') :
    Alike simulation comparison situation world comparison.values
      (callBuiltin point builtin arguments)
      (callBuiltin point builtin arguments') := by
  unfold callBuiltin
  rw [← Value.relList_length related]
  split
  · exact alike_fail
  · match arguments, arguments', related with
    | [], [], _ => exact alike_stop trivial
    | argument :: rest, argument' :: rest', ⟨value, values⟩ =>
        have lifted : Alike simulation comparison situation world
            comparison.values (lift point (pureBuiltin builtin argument))
            (lift point (pureBuiltin builtin argument')) :=
          alike_lift (pureBuiltin_agree builtin value)
        cases builtin with
        | bytes => exact lifted
        | encodeUtf8 => exact lifted
        | decodeUtf8 => exact lifted
        | byteLen => exact lifted
        | accept =>
            exact alike_call supports (.accept argument) (.accept argument')
              rfl value fun _ _ answers => answers
        | close =>
            have closed : Alike simulation comparison situation world
                (fun _ _ _ => True) (call point (.close argument))
                (call point (.close argument')) :=
              alike_call supports (.close argument) (.close argument') rfl
                value fun _ _ _ => trivial
            exact closed.bind fun _ _ _ _ _ => alike_pure trivial
        | localAddress =>
            have asked : Alike simulation comparison situation world
                (fun _ => Eq) (call point (.localAddress argument))
                (call point (.localAddress argument')) :=
              alike_call supports (.localAddress argument)
                (.localAddress argument') rfl value fun _ _ same => same
            apply asked.bind
            rintro larger extends' address _ rfl
            exact alike_pure rfl
        | setTimeout => exact alike_setTimeout supports point value values

omit similar inside in
theorem alike_bindParameters (point : Point) (parameters : List Parameter)
    {arguments arguments' : List Value} {bound bound' : NameMap Nat}
    (related : Value.RelList (comparison.matching world) arguments arguments')
    (scopes : ScopeRel world bound bound') :
    Alike simulation comparison situation world ScopeRel
      (bindParameters point parameters arguments bound)
      (bindParameters point
        (parameters.map comparison.rewriting.parameter) arguments'
        bound') := by
  induction parameters generalizing world arguments arguments' bound
      bound' with
  | nil => exact alike_pure scopes
  | cons parameter parameters induction =>
      match arguments, arguments', related with
      | [], [], _ => exact alike_pure scopes
      | argument :: rest, argument' :: rest', ⟨value, values⟩ =>
          apply alike_annotationType.bind
          rintro second toSecond ty _ rfl
          have kept := value.mono (comparison.matching_mono toSecond)
          apply (alike_check kept).bind
          intro third toThird _ _ _
          have allocated : BindingRel comparison third
              ⟨ty, some argument, true⟩
              ⟨comparison.keep ty, some argument', true⟩ :=
            ⟨rfl, rfl, .some
              (kept.mono (comparison.matching_mono toThird))⟩
          apply (alike_allocate allocated).bind
          intro fourth toFourth id id' slot
          have all := (toSecond.trans toThird).trans toFourth
          have later := Value.relList_iff.mpr
            ((Value.relList_iff.mp values).imp fun _ _ =>
              Value.Rel.mono (comparison.matching_mono all))
          exact induction later
            ((scopes.mono all).insert parameter.name slot)

omit similar inside in
theorem alike_finishCall (point : Point) {function function' : Function}
    (functions : FunctionRel comparison world function function')
    {flow flow' : Flow}
    (flows : FlowRel (comparison.matching world) flow flow') :
    Alike simulation comparison situation world comparison.values
      (finishCall point function flow) (finishCall point function' flow') := by
  match flow, flow', flows with
  | .normal, .normal, _ =>
      unfold finishCall
      rw [functions.returnType]
      have checked : Alike simulation comparison situation world
          (fun _ _ _ => True) (check point function.returnType .null)
          (check point (comparison.keep function.returnType) .null) :=
        alike_check (show Value.Rel (comparison.matching world) .null .null
          from trivial)
      exact checked.relocate.bind fun _ _ _ _ _ => alike_pure trivial
  | .break, .break, _ => exact alike_fail
  | .continue, .continue, _ => exact alike_fail
  | .return value, .return value', values => exact alike_pure values

theorem alike_enterFunction (point : Point) {function function' : Function}
    {parameters parameters' : NameMap Nat}
    (functions : FunctionRel comparison world function function')
    (scopes : ScopeRel world parameters parameters') :
    Alike simulation comparison situation world comparison.values
      (enterFunction given point function parameters)
      (enterFunction given' point function' parameters') := by
  apply alike_reported
  rw [functions.name]
  apply Alike.framed functions.returnType
  rw [functions.body, functions.point]
  have bodies : Alike simulation comparison
      { situation with depth := 0, returns := true } world comparison.flows
      (given.body (0 :: function.point) function.body
        (parameters :: function.closure))
      (given'.body (0 :: function.point)
        (comparison.rewriting.stmt function.body)
        (parameters' :: function'.closure)) :=
    similar.body _ _ inside rfl functions.fits (.cons scopes functions.closure)
  apply bodies.bind
  rintro larger extends' ⟨flow, _⟩ ⟨flow', _⟩ ⟨flows, _⟩
  exact alike_finishCall point (functions.mono extends') flows

theorem alike_callFunction (point : Point) {id id' : Nat}
    {arguments arguments' : List Value} (handle : world.handle id id')
    (related : Value.RelList (comparison.matching world) arguments
      arguments') :
    Alike simulation comparison situation world comparison.values
      (callFunction given point id arguments)
      (callFunction given' point id' arguments') := by
  unfold callFunction
  rw [← Value.relList_length related]
  apply (alike_function handle).bind
  intro second toSecond function function' functions
  have later := Value.relList_iff.mpr
    ((Value.relList_iff.mp related).imp fun _ _ =>
      Value.Rel.mono (comparison.matching_mono toSecond))
  rw [functions.parameters]
  apply (alike_bindParameters point function.parameters later .nil).bind
  intro third toThird parameters parameters' scopes
  exact alike_enterFunction similar inside point (functions.mono toThird)
    scopes

variable [Formatting]

theorem alike_callValue (point : Point) {callee callee' : Value}
    {arguments arguments' : List Value}
    (supports : Supports simulation comparison)
    (prints : PrintsAlike simulation comparison worker)
    (callees : Value.Rel (comparison.matching world) callee callee')
    (related : Value.RelList (comparison.matching world) arguments
      arguments') :
    Alike simulation comparison situation world comparison.values
      (callValue given point callee arguments)
      (callValue given' point callee' arguments') := by
  match callee, callee', callees with
  | .builtin builtin, .builtin _, rfl =>
      exact alike_callBuiltin supports point builtin related
  | .print, .print, _ =>
      have texts : arguments'.map Value.display =
          arguments.map Value.display :=
        (Value.RelList.map_display related).symm
      simp only [callValue, texts]
      exact (prints point _ inside).bind fun _ _ _ _ _ => alike_pure trivial
  | .function id, .function id', handle =>
      exact alike_callFunction similar inside point handle related
  | .record _ _ _ _, .record _ _ _ _, ⟨_, _, rfl, _⟩ => exact alike_fail
  | .integer _, .integer _, _ | .float _, .float _, _
  | .string _, .string _, _ | .bytes _, .bytes _, _
  | .connection _, .connection _, _ | .boolean _, .boolean _, _
  | .duration _, .duration _, _ | .null, .null, _
  | .array _, .array _, _ | .object _, .object _, _ => exact alike_fail

theorem alike_expressionInner (supports : Supports simulation comparison)
    (prints : PrintsAlike simulation comparison worker) (point : Point)
    (node : Expr) (bare : ∀ span inner, node ≠ .located span inner)
    (environments : EnvRel world env env') :
    Alike simulation comparison situation world comparison.values
      (expressionInner given point env node)
      (expressionInner given' point env' (comparison.rewriting.expr node)) := by
  have first : ∀ node, Alike simulation comparison situation world
      comparison.values (given.expression (0 :: point) node env)
      (given'.expression (0 :: point) (comparison.rewriting.expr node) env') :=
    fun node => similar.expression (0 :: point) node inside environments
  cases node with
  | construct name fields =>
      rw [Rewriting.expr]
      exact alike_construct similar inside point name fields environments
  | located span inner => exact absurd rfl (bare span inner)
  | connection transport address protocol =>
      rw [Rewriting.expr]
      apply (first address).bind
      intro larger extends' value value' values
      exact alike_connect supports point transport protocol values
  | send connection data destination =>
      rw [Rewriting.expr]
      apply (first connection).bind
      intro second toSecond channel channel' channels
      apply (similar.expression (1 :: point) data inside
        (environments.mono toSecond)).bind
      intro third toThird content content' contents
      apply (alike_sendDestination similar inside point destination
        (environments.mono (toSecond.trans toThird))).bind
      rintro fourth toFourth target _ rfl
      exact alike_call supports (.send channel content target)
        (.send channel' content' target) rfl
        ⟨channels.mono
            (comparison.matching_mono (toThird.trans toFourth)),
          contents.mono (comparison.matching_mono toFourth), rfl⟩
        fun _ _ answers => answers
  | receive connection =>
      rw [Rewriting.expr]
      apply (first connection).bind
      intro second toSecond channel channel' channels
      exact alike_call supports (.receive channel) (.receive channel') rfl
        channels fun _ _ answers => answers
  | request method url config =>
      rw [Rewriting.expr]
      apply (first url).bind
      intro second toSecond address address' addresses
      exact alike_request similar inside point method config supports
        (environments.mono toSecond) addresses
  | integer value | float value | string value | boolean value
  | duration value => exact alike_pure rfl
  | null => exact alike_pure trivial
  | identifier name => exact alike_identifier point name environments
  | array nodes =>
      rw [Rewriting.expr]
      apply (alike_expressions similar inside point 0 nodes
        environments).bind
      intro second toSecond values values' related
      exact alike_pure related
  | object fields =>
      rw [Rewriting.expr]
      apply (alike_objectFields similar inside point 0 fields environments
        Value.relFields_nil).bind
      intro second toSecond values values' related
      exact alike_pure related
  | unary operator operand =>
      rw [Rewriting.expr]
      apply (first operand).bind
      intro second toSecond value value' values
      exact alike_lift (unary_agree operator values)
  | binary left op right =>
      rw [Rewriting.expr]
      apply (first left).bind
      intro second toSecond value value' values
      by_cases lazy : op = .and ∨ op = .or
      · rw [if_pos lazy, if_pos lazy]
        exact alike_logical similar inside point op right
          (environments.mono toSecond) values
      · rw [if_neg lazy, if_neg lazy]
        apply (similar.expression (1 :: point) right inside
          (environments.mono toSecond)).bind
        intro third toThird other other' others before before' states
        exact alike_attempt (binary_agree states.faithful op
          (values.mono (comparison.matching_mono toThird)) others) _ _ states
  | call callee arguments =>
      rw [Rewriting.expr]
      apply (first callee).bind
      intro second toSecond value value' values
      apply (alike_expressions similar inside point 1 arguments
        (environments.mono toSecond)).bind
      intro third toThird given given' related
      exact alike_callValue similar inside point supports prints
        (values.mono (comparison.matching_mono toThird)) related
  | property object name =>
      rw [Rewriting.expr]
      apply (first object).bind
      intro second toSecond value value' values
      have same : Selector.Rel (comparison.matching second) (.property name)
          (.property name) := rfl
      exact alike_lift (get_agree values same)
  | index object subscript =>
      rw [Rewriting.expr]
      apply (first object).bind
      intro second toSecond value value' values
      apply (similar.expression (1 :: point) subscript inside
        (environments.mono toSecond)).bind
      intro third toThird position position' positions
      exact alike_lift (index_agree
        (values.mono (comparison.matching_mono toThird)) positions)
  | assignment left value =>
      rw [Rewriting.expr]
      apply (alike_target similar inside supports environments (0 :: point)
        left).bind
      rintro second toSecond ⟨id, selectors⟩ ⟨id', selectors'⟩ targets
      exact alike_assign similar inside point left value
        (environments.mono toSecond) targets

omit similar inside [Formatting] in
/-- Without a location wrapper, the rewriting has none either. -/
theorem Rewriting.expr_bare (rewriting : Rewriting) {node : Expr}
    (bare : ∀ span inner, node ≠ .located span inner) (span : Span)
    (inner : Expr) : rewriting.expr node ≠ .located span inner := by
  cases node with
  | located span inner => exact absurd rfl (bare span inner)
  | _ =>
      rw [Rewriting.expr]
      intro same
      cases same

omit similar inside in
theorem expression_bare (point : Point) {node : Expr}
    (bare : ∀ span inner, node ≠ .located span inner) (env : Environment) :
    expression given point node env = expressionNode given point env node := by
  cases node with
  | located span inner => exact absurd rfl (bare span inner)
  | _ => rfl

theorem alike_expressionNode (supports : Supports simulation comparison)
    (prints : PrintsAlike simulation comparison worker)
    (environments : EnvRel world env env') (point : Point) (node : Expr)
    (bare : ∀ span inner, node ≠ .located span inner) :
    Alike simulation comparison situation world comparison.values
      (expression given point node env)
      (expression given' point (comparison.rewriting.expr node) env') := by
  rw [expression_bare point bare env,
    expression_bare point (comparison.rewriting.expr_bare bare) env']
  have deeper : ({ situation with depth := situation.depth + 1 } :
      Situation).worker = worker := inside
  apply alike_observed
  apply (alike_tick supports).bind
  intro second toSecond _ _ _
  apply Alike.nested
  exact alike_expressionInner similar deeper supports prints point _ bare
    (environments.mono toSecond)

theorem alike_expression (supports : Supports simulation comparison)
    (prints : PrintsAlike simulation comparison worker)
    (environments : EnvRel world env env') (point : Point) :
    ∀ node : Expr, Alike simulation comparison situation world
      comparison.values (expression given point node env)
      (expression given' point (comparison.rewriting.expr node) env')
  | .located span inner => by
      have unlocated := alike_expression supports prints environments point
        inner
      by_cases dropped : comparison.rewriting.locations = true
      · rw [Rewriting.expr, if_pos dropped]
        exact unlocated.withSpan_left
      · rw [Rewriting.expr, if_neg dropped]
        exact unlocated.withSpan_left.withSpan_right
  | .construct _ _ | .connection _ _ _ | .send _ _ _
  | .receive _ | .request _ _ _ | .integer _ | .float _ | .string _
  | .boolean _ | .null | .duration _ | .identifier _ | .array _ | .object _
  | .unary _ _ | .binary _ _ _ | .assignment _ _ | .call _ _
  | .property _ _ | .index _ _ => by
      apply alike_expressionNode similar inside supports prints environments
      intro span inner same
      cases same

end

end NetLang
