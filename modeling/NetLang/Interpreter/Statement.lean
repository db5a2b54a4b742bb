import NetLang.Interpreter.Parallel

/-!
# Execution of statements
-/

namespace NetLang

open Interp

variable [Formatting]

/-- Insert into the innermost scope; a missing scope is a panic. -/
def declareIn (env : Environment) (name : String) (id : Nat) :
    Interp Environment :=
  match env.declare name id with
  | some env => pure env
  | none => stop .panic

/-- Reserve binding slots without exposing future variables.  All functions
are visible immediately. -/
def reserve :
    List Stmt → Environment → Interp (List (Option Nat) × Environment)
  | [], env => pure ([], env)
  | statement :: rest, env =>
      match statement.unspanned with
      | .let _ annotated _ => do
          let annotated ← annotationType annotated
          let id ← allocate ⟨annotated, none, true⟩
          let (slots, env) ← reserve rest env
          pure (some id :: slots, env)
      | .function name _ _ _ => do
          let id ← allocate ⟨none, none, false⟩
          let env ← declareIn env name id
          let (slots, env) ← reserve rest env
          pure (some id :: slots, env)
      | _ => do
          let (slots, env) ← reserve rest env
          pure (none :: slots, env)

def slotOf : Option Nat → Interp Nat
  | some id => pure id
  | none => stop .panic

/-- A new entry of the function arena. -/
def defineFunction (function : Option ResolvedType → Function)
    (returnAnnotated : Option TypeAnnotation) (slot : Nat) :
    Interp Unit := do
  let returnType ← annotationType returnAnnotated
  let state ← get
  modify fun state => { state with
    functions := state.functions ++ [function returnType] }
  write slot (.function state.functions.length)

/-- Each function captures the names that are visible at its declaration. -/
def declareFunctions (point : Point) :
    Nat → List (Stmt × Option Nat) → Environment → Interp Unit
  | _, [], _ => pure ()
  | i, (statement, slot) :: rest, env =>
      match statement.unspanned with
      | .let name _ _ => do
          let id ← slotOf slot
          let env ← declareIn env name id
          declareFunctions point (i + 1) rest env
      | .function name parameters returnAnnotated body => do
          let id ← slotOf slot
          let returnSpan :=
            (returnAnnotated.bind TypeAnnotation.span).or statement.span
          defineFunction
            (fun returnType => ⟨name, parameters, returnType, returnSpan,
              body, env, i :: point⟩) returnAnnotated id
          declareFunctions point (i + 1) rest env
      | _ => declareFunctions point (i + 1) rest env

def condition (self : Evaluator) (point : Point) (expression : Expr)
    (env : Environment) : Interp Bool := do
  let value ← self.expression point expression env
  relocate (expression.span.or ·) (lift point value.asBoolean)

def scopedBody (self : Evaluator) (point : Point) (body : Stmt)
    (env : Environment) : Interp Flow := do
  let (flow, _) ← self.body point body ([] :: env)
  pure flow

def whileLoop (self : Evaluator) (point : Point) (test : Expr)
    (body : Stmt) (env : Environment) : Interp Flow := do
  let again ← condition self (0 :: point) test env
  if again then do
    let flow ← scopedBody self (1 :: point) body env
    match flow with
    | .break => pure .normal
    | .return value => pure (.return value)
    | _ => self.whileLoop point test body env
  else pure .normal

def forLoop (self : Evaluator) (point : Point) (variableName : String)
    (body : Stmt) (env : Environment) : List Value → Interp Flow
  | [] => pure .normal
  | value :: rest => do
      tick point
      let id ← allocate ⟨none, some value, true⟩
      let (flow, _) ←
        self.body (1 :: point) body ([(variableName, id)] :: env)
      match flow with
      | .break => pure .normal
      | .return value => pure (.return value)
      | _ => forLoop self point variableName body env rest

def forStatement (self : Evaluator) (point : Point) (env : Environment)
    (variableName : String) (iterable : Expr) (body : Stmt) :
    Interp Flow := do
  let values ← self.expression (0 :: point) iterable env
  match values with
  | .array values => forLoop self point variableName body env values
  | _ => fail point .forArray

def Pattern.accepts : Pattern → Value → Bool
  | .wildcard, _ => true
  | .null, .null => true
  | .integer a, .integer b => a == b
  | .string a, .string b => a == b
  | .boolean a, .boolean b => a == b
  | _, _ => false

/-- The first arm that accepts the value runs. -/
def matchArms (self : Evaluator) (point : Point) (env : Environment)
    (value : Value) : Nat → List (Pattern × Stmt) → Interp Flow
  | _, [] => pure .normal
  | i, (pattern, body) :: rest =>
      if pattern.unspanned.accepts value then
        scopedBody self (i :: point) body env
      else matchArms self point env value (i + 1) rest

def returnValue (self : Evaluator) (point : Point) (env : Environment) :
    Option Expr → Interp Value
  | some value => self.expression (0 :: point) value env
  | none => pure .null

def statement (self : Evaluator) (point : Point) :
    Stmt → Environment → Interp Flow
  | .type _ _, _ => pure .normal
  | .break, _ => pure .break
  | .continue, _ => pure .continue
  | .located span inner, env =>
      withSpan (some span) (statement self point inner env)
  | .let _ _ _, _ => stop .panic
  | .function _ _ _ _, _ => pure .normal
  | .expression expression, env => do
      let _ ← self.expression (0 :: point) expression env
      pure .normal
  | .block statements, env =>
      scopedBody self (1 :: point) (.block statements) env
  | .return value, env => do
      let location ← location
      let span := (value.bind Expr.span).or location
      let value ← returnValue self point env value
      relocate (fun _ => span) (checkReturn point value)
      pure (.return value)
  | .if test thenBranch elseBranch, env => do
      let chosen ← condition self (0 :: point) test env
      if chosen then scopedBody self (1 :: point) thenBranch env
      else
        match elseBranch with
        | some branch => scopedBody self (2 :: point) branch env
        | none => pure .normal
  | .while test body, env => self.whileLoop point test body env
  | .for variableName iterable body, env =>
      forStatement self point env variableName iterable body
  | .match expression arms, env => do
      let value ← self.expression (0 :: point) expression env
      matchArms self point env value 1 arms
  | .parallel variableName iterable body, env => do
      parallel self point env variableName iterable body
      pure .normal

/-- A let statement uses its reserved slot. -/
def executeLet (self : Evaluator) (point : Point) (name : String)
    (value : Expr) (slot : Option Nat) (env : Environment) :
    Interp (Flow × Environment) := do
  let location ← location
  let span := value.span.or location
  let value ← self.expression (0 :: point) value env
  let id ← slotOf slot
  relocate (fun _ => span) (checkBinding point id value)
  write id value
  let env ← declareIn env name id
  pure (.normal, env)

def executeUnlocated (self : Evaluator) (point : Point) (node : Stmt)
    (slot : Option Nat) (env : Environment) : Interp (Flow × Environment) :=
  match node with
  | .let name _ value => executeLet self point name value slot env
  | node => do
      let flow ← statement self point node env
      pure (flow, env)

/-- One statement of a list, which costs one step. -/
def execute (self : Evaluator) (point : Point) (node : Stmt)
    (slot : Option Nat) (env : Environment) : Interp (Flow × Environment) :=
  withSpan node.span <|
    observed (.executing point node.unspanned env)
        (.executed point node.unspanned env) do
      tick point
      executeUnlocated self point node.unspanned slot env

def executeAll (self : Evaluator) (point : Point) :
    Nat → List (Stmt × Option Nat) → Environment →
      Interp (Flow × Environment)
  | _, [], env => pure (.normal, env)
  | i, (node, slot) :: rest, env => do
      let (flow, env) ← execute self (i :: point) node slot env
      match flow with
      | .normal => executeAll self point (i + 1) rest env
      | flow => pure (flow, env)

def statements (self : Evaluator) (point : Point) (list : List Stmt)
    (env : Environment) : Interp (Flow × Environment) := do
  let (slots, env) ← reserve list env
  declareFunctions point 0 (list.zip slots) env
  executeAll self point 0 (list.zip slots) env

def body (self : Evaluator) (point : Point) :
    Stmt → Environment → Interp (Flow × Environment)
  | .located span inner, env =>
      withSpan (some span) (body self point inner env)
  | .block list, env => do
      observe (.entering point (.block list))
      statements self point list env
  | node, env => do
      observe (.entering point node)
      statements self point [node] env

end NetLang
