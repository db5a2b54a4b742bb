import NetLang.Theory.Updates

/-!
# Where jumps go

Lists, bodies, branches and arms pass the jump of a part on as it is.  Loops
take `break` and `continue`, an iteration of a parallel statement takes
`continue`, and a call takes `return`.
-/

namespace NetLang

open Interp

namespace Interp

variable {α : Type} {comp : Interp α} {state after : Interpreter}
  {events : List (Event effects)} {result : Result α}

end Interp

variable [Formatting]

section For

variable (self : Evaluator) (point : Point) (variableName : String)
  (body : Stmt) (env : Environment)

end For

section Paths

variable {self : Evaluator} {point : Point} {env : Environment}
  {state after : Interpreter} {events : List (Event effects)} {flow : Flow}

end Paths

end NetLang
