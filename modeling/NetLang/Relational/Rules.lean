import NetLang.Relational.Comparison

/-!
# Rules of the comparison

Two computations are alike when from related states they end in related
states with related results, in a larger world.  There is one rule for every
way to build a computation.
-/

namespace NetLang

open Interp

namespace HostCall

/-- The answer of a call as a value. -/
def valueOf : (call : HostCall) → call.Answer → Value
  | .listenTcp _, value | .accept _, value | .bindUdp _, value
  | .connect _ _ _, value | .send _ _ _, value | .receive _, value
  | .request _ _ _, value => value
  | .localAddress _, text => .string text
  | .setTimeout _ _, _ | .print _, _ | .close _, _ | .fork, _ => .null

def isPrint : HostCall → Bool
  | .print _ => true
  | _ => false

/-- The same operation on related values. -/
def Rel (matching : Matching) : HostCall → HostCall → Prop
  | .listenTcp a, .listenTcp b | .bindUdp a, .bindUdp b
  | .print a, .print b => a = b
  | .accept a, .accept b | .localAddress a, .localAddress b
  | .close a, .close b | .receive a, .receive b => Value.Rel matching a b
  | .setTimeout a t, .setTimeout b u => Value.Rel matching a b ∧ t = u
  | .fork, .fork => True
  | .connect t a p, .connect t' a' p' => t = t' ∧ a = a' ∧ p = p'
  | .send c d t, .send c' d' t' =>
      Value.Rel matching c c' ∧ Value.Rel matching d d' ∧ t = t'
  | .request m u c, .request m' u' c' =>
      m = m' ∧ u = u' ∧ Value.Rel matching c c'
  | _, _ => False

/-- Both calls failed with the same message, or were answered alike. -/
def ReplyRel (matching : Matching) (call call' : HostCall)
    (reply : Except String call.Answer)
    (reply' : Except String call'.Answer) : Prop :=
  Agree (Value.Rel matching) (reply.map call.valueOf)
    (reply'.map call'.valueOf)

end HostCall

/-- Stops with the same message and call stack. -/
def StopRel : Stop → Stop → Prop
  | .error left, .error right =>
      right.kind = left.kind ∧ right.callStack = left.callStack
  | .panic, .panic | .outOfFuel, .outOfFuel => True
  | _, _ => False

variable {α β γ δ : Type}

def ResultRel (post : α → β → Prop) : Result α → Result β → Prop
  | .ok a, .ok b => post a b
  | .error reason, .error reason' => StopRel reason reason'
  | _, _ => False

/-- A strict comparison gives up on a left execution that has failed. -/
def Failed (comparison : Comparison) (ending : Result α × Interpreter) :
    Prop :=
  comparison.strict = true ∧ ∃ reason, ending.1 = .error reason

/-- What was printed on the right: what a worker has buffered on the left
when the right execution is serial, and the same lines otherwise. -/
def Shown (comparison : Comparison) (worker : Bool)
    (before after : Interpreter) (lines lines' : List String) : Prop :=
  if comparison.serial && worker then
    lines = [] ∧ after.output = before.output ++ lines'
  else lines' = lines

def Ended (comparison : Comparison) (situation : Situation) (world : World)
    (post : World → α → β → Prop) (before : Interpreter)
    (left : List String × (Result α × Interpreter))
    (right : List String × (Result β × Interpreter)) : Prop :=
  ∃ larger, world.Extends larger ∧
    States comparison situation larger left.2.2 right.2.2 ∧
    ResultRel (post larger) left.2.1 right.2.1 ∧
    Shown comparison situation.worker before left.2.2 left.1 right.1

/-- A simulation that relates the replies to related calls as the comparison
asks. -/
structure Supports (simulation : Simulation effects String)
    (comparison : Comparison) : Prop where
  strict : comparison.strict = true ↔ simulation.strict
  calls : ∀ {world : World} {host host' : HostId} {call call' : HostCall},
    (comparison.serial = false →
      host' = host ∧ comparison.matching world = ⟨Eq, comparison.token⟩) →
    call.isPrint = false → call.Rel (comparison.matching world) call' →
    simulation.calls (host, call) (host', call')
  replies : ∀ {world : World} {host host' : HostId} {call call' : HostCall}
    {reply : Except String call.Answer} {reply' : Except String call'.Answer},
    (comparison.serial = false →
      host' = host ∧ comparison.matching world = ⟨Eq, comparison.token⟩) →
    call.isPrint = false → call.Rel (comparison.matching world) call' →
    simulation.replies (host, call) (host', call') reply reply' →
    call.ReplyRel (comparison.matching world) call' reply reply'

section

variable (simulation : Simulation effects String) (comparison : Comparison)

/-- From related states, both computations end alike. -/
def Alike (situation : Situation) (world : World)
    (post : World → α → β → Prop) (left : Interp α) (right : Interp β) :
    Prop :=
  ∀ before before' : Interpreter,
    States comparison situation world before before' →
    simulation.Holds (Failed comparison)
      (Ended comparison situation world post before) (left before)
      (right before')

end

section Shown

variable {comparison : Comparison} {worker : Bool}
  {first second third : Interpreter} {lines lines' more more' : List String}

theorem shown_same (same : second.output = first.output) :
    Shown comparison worker first second [] [] := by
  unfold Shown
  split
  · exact ⟨rfl, by simpa using same⟩
  · rfl

theorem Shown.trans (left : Shown comparison worker first second lines lines')
    (right : Shown comparison worker second third more more') :
    Shown comparison worker first third (lines ++ more)
      (lines' ++ more') := by
  unfold Shown at left right ⊢
  split at left
  · next serial =>
      rw [if_pos serial] at right ⊢
      obtain ⟨rfl, one⟩ := left
      obtain ⟨rfl, two⟩ := right
      exact ⟨rfl, by rw [two, one, List.append_assoc]⟩
  · next parallel =>
      rw [if_neg parallel] at right ⊢
      rw [left, right]

theorem Shown.congr {first' second' : Interpreter}
    (shown : Shown comparison worker first second lines lines')
    (before : first'.output = first.output)
    (after : second'.output = second.output) :
    Shown comparison worker first' second' lines lines' := by
  unfold Shown at shown ⊢
  rwa [before, after]

end Shown

section Rules

variable {simulation : Simulation effects String} {comparison : Comparison}
  {situation inner : Situation} {world : World}
  {post : World → α → β → Prop} {before before' : Interpreter}

theorem States.matching_eq
    (states : States comparison situation world before before')
    (parallel : comparison.serial = false) :
    comparison.matching world = ⟨Eq, comparison.token⟩ := by
  unfold Comparison.matching
  congr 1
  funext a a'
  have same : world.handle a a' ↔ a = a' := states.handle parallel
  exact propext same

/-- Both sides return at once, in states that are still related. -/
theorem holds_ret {larger : World} {after after' : Interpreter}
    {result : Result α} {result' : Result β}
    (extends' : world.Extends larger)
    (states : States comparison situation larger after after')
    (results : ResultRel (post larger) result result')
    (same : after.output = before.output) :
    simulation.Holds (Failed comparison)
      (Ended comparison situation world post before)
      (.ret (result, after)) (.ret (result', after')) :=
  simulation.ret ⟨larger, extends', states, results, shown_same same⟩

theorem alike_pure {a : α} {b : β} (holds : post world a b) :
    Alike simulation comparison situation world post (pure a) (pure b) :=
  fun _ _ states => holds_ret (.refl world) states holds rfl

theorem Alike.bind {after : World → γ → δ → Prop} {left : Interp α}
    {right : Interp β} {f : α → Interp γ} {g : β → Interp δ}
    (alike : Alike simulation comparison situation world post left right)
    (next : ∀ larger, world.Extends larger → ∀ a b, post larger a b →
      Alike simulation comparison situation larger after (f a) (g b)) :
    Alike simulation comparison situation world after (left >>= f)
      (right >>= g) := by
  intro before before' states
  apply simulation.bind (alike _ _ states)
  · rintro ⟨result, final⟩ ⟨strict, reason, rfl⟩
    exact ⟨strict, reason, rfl⟩
  · rintro lines ⟨result, middle⟩ lines' ⟨result', middle'⟩
      ⟨larger, extends', middles, results, shown⟩
    cases result with
    | error reason =>
        cases result' with
        | ok value => exact results.elim
        | error reason' =>
            apply simulation.ret
            exact ⟨larger, extends', middles, results, by simpa using shown⟩
    | ok a =>
        cases result' with
        | error reason => exact results.elim
        | ok b =>
            apply Simulation.mono (next larger extends' a b results _ _ middles)
            rintro x y ⟨largest, further, finals, outcomes, rest⟩
            exact ⟨largest, extends'.trans further, finals, outcomes,
              shown.trans rest⟩

theorem Alike.mono {weaker : World → α → β → Prop} {left : Interp α}
    {right : Interp β}
    (alike : Alike simulation comparison situation world post left right)
    (implies : ∀ larger, world.Extends larger → ∀ a b, post larger a b →
      weaker larger a b) :
    Alike simulation comparison situation world weaker left right := by
  intro before before' states
  apply Simulation.mono (alike _ _ states)
  rintro ⟨lines, result, after⟩ ⟨lines', result', after'⟩
    ⟨larger, extends', states, results, shown⟩
  refine ⟨larger, extends', states, ?_, shown⟩
  cases result <;> cases result'
  · exact results
  · exact results
  · exact results
  · exact implies larger extends' _ _ results

theorem failure_rel
    (states : States comparison situation world before before')
    (point point' : Point) (kind : ErrorKind) :
    StopRel (.error (failure point kind before))
      (.error (failure point' kind before')) :=
  ⟨rfl, states.callStack⟩

theorem alike_fail {point point' : Point} {kind : ErrorKind} :
    Alike simulation comparison situation world post (fail point kind)
      (fail point' kind) :=
  fun _ _ states => holds_ret (.refl world) states
    (failure_rel states point point' kind) rfl

theorem alike_stop {reason reason' : Stop} (same : StopRel reason reason') :
    Alike simulation comparison situation world post (stop reason)
      (stop reason') :=
  fun _ _ states => holds_ret (.refl world) states same rfl

/-- Under a strict comparison a failure on the left is enough. -/
theorem holds_failed {reason : Stop} {final : Interpreter}
    {right : Comp effects (Result β × Interpreter)}
    (strict : comparison.strict = true) :
    simulation.Holds (Failed comparison)
      (Ended comparison situation world post before)
      (.ret ((.error reason : Result α), final)) right :=
  simulation.doomed ⟨strict, reason, rfl⟩

theorem alike_tick (supports : Supports simulation comparison)
    {point point' : Point} :
    Alike simulation comparison situation world (fun _ _ _ => True)
      (tick point) (tick point') := by
  intro before before' states
  have attempted : States comparison situation world
      { before with attempts := before.attempts + 1 }
      { before' with attempts := before'.attempts + 1 } :=
    { states with }
  apply simulation.tick
  · intro granted
    cases granted with
    | true => exact holds_ret (.refl world) attempted trivial rfl
    | false =>
        simp only [Bool.false_eq_true, if_false]
        exact holds_ret (.refl world) attempted
          (failure_rel attempted point point' .stepLimit) rfl
  · intro strict
    exact ⟨supports.strict.mpr strict, _, rfl⟩

theorem alike_call (supports : Supports simulation comparison)
    {point point' : Point} (call call' : HostCall)
    {post : World → call.Answer → call'.Answer → Prop}
    (notPrint : call.isPrint = false)
    (related : call.Rel (comparison.matching world) call')
    (answered : ∀ answer answer', Value.Rel (comparison.matching world)
      (call.valueOf answer) (call'.valueOf answer') →
      post world answer answer') :
    Alike simulation comparison situation world post
      (Interp.call point call) (Interp.call point' call') := by
  intro before before' states
  have aligned : comparison.serial = false →
      before'.runtime.host = before.runtime.host ∧
        comparison.matching world = ⟨Eq, comparison.token⟩ := by
    intro parallel
    have runtime := states.runtime
    rw [RuntimeRel, parallel] at runtime
    exact ⟨runtime.1, states.matching_eq parallel⟩
  apply simulation.call (supports.calls aligned notPrint related)
  intro reply reply' heard
  have replies := supports.replies aligned notPrint related heard
  cases reply with
  | error message =>
      cases reply' with
      | error message' =>
          cases (replies : message = message')
          exact holds_ret (.refl world) states
            (failure_rel states point point' (.host message)) rfl
      | ok answer => exact replies.elim
  | ok answer =>
      cases reply' with
      | error message => exact replies.elim
      | ok answer' =>
          exact holds_ret (.refl world) states (answered _ _ replies) rfl

theorem alike_observed {left : Interp α} {right : Interp β}
    {shown shown' : Interpreter → Observation}
    {ended : Interpreter → Result α → Interpreter → Observation}
    {ended' : Interpreter → Result β → Interpreter → Observation}
    (alike : Alike simulation comparison situation world post left right) :
    Alike simulation comparison situation world post
      (observed shown ended left) (observed shown' ended' right) := by
  intro before before' states
  apply simulation.observe
  apply simulation.bind (alike _ _ states)
  · rintro ⟨result, final⟩ failed
    exact fun _ => failed
  · rintro lines ⟨result, after⟩ lines' ⟨result', after'⟩ held
    apply simulation.observe
    apply simulation.ret
    simpa using held

theorem alike_reported {left : Interp α} {right : Interp β}
    {ended : Interpreter → Result α → Interpreter → Observation}
    {ended' : Interpreter → Result β → Interpreter → Observation}
    (alike : Alike simulation comparison situation world post left right) :
    Alike simulation comparison situation world post
      (reported ended left) (reported ended' right) := by
  intro before before' states
  apply simulation.bind (alike _ _ states)
  · rintro ⟨result, final⟩ failed
    exact fun _ => failed
  · rintro lines ⟨result, after⟩ lines' ⟨result', after'⟩ held
    apply simulation.observe
    apply simulation.ret
    simpa using held

/-- Both sides enter and leave a part of the state. -/
theorem Alike.around {left : Interp α} {right : Interp β}
    {enter enter' : Interpreter → Interpreter}
    {leave leave' : Interpreter → Interpreter → Interpreter}
    (alike : Alike simulation comparison inner world post left right)
    (entered : ∀ {before before'},
      States comparison situation world before before' →
      States comparison inner world (enter before) (enter' before') ∧
        (enter before).output = before.output)
    (left' : ∀ {larger before before' after after'},
      States comparison situation world before before' →
      States comparison inner larger after after' →
      States comparison situation larger (leave before after)
        (leave' before' after') ∧
      (leave before after).output = after.output)
    (same : inner.worker = situation.worker) :
    Alike simulation comparison situation world post
      (Interp.around enter leave left) (Interp.around enter' leave' right) := by
  intro before before' states
  obtain ⟨inside, unchanged⟩ := entered states
  apply simulation.bind (alike _ _ inside)
  · rintro ⟨result, final⟩ failed
    exact failed
  · rintro lines ⟨result, after⟩ lines' ⟨result', after'⟩
      ⟨larger, extends', ends, results, shown⟩
    obtain ⟨outside, kept⟩ := left' states ends
    apply simulation.ret
    refine ⟨larger, extends', outside, results, ?_⟩
    rw [same] at shown
    simpa using shown.congr unchanged.symm kept

theorem around_self (comp : Interp α) :
    Interp.around id (fun _ after => after) comp = comp := by
  funext state
  exact Comp.bind_ret _

/-- Locations are of no importance. -/
theorem Alike.withSpan_left {left : Interp α} {right : Interp β}
    {span : Option Span}
    (alike : Alike simulation comparison situation world post left right) :
    Alike simulation comparison situation world post (withSpan span left)
      right := by
  rw [← around_self right]
  refine alike.around ?_ ?_ rfl
  · intro before before' states
    exact ⟨{ states with }, rfl⟩
  · intro larger before before' after after' states ends
    exact ⟨{ ends with }, rfl⟩

theorem Alike.withSpan_right {left : Interp α} {right : Interp β}
    {span : Option Span}
    (alike : Alike simulation comparison situation world post left right) :
    Alike simulation comparison situation world post left
      (withSpan span right) := by
  rw [← around_self left]
  refine alike.around ?_ ?_ rfl
  · intro before before' states
    exact ⟨{ states with }, rfl⟩
  · intro larger before before' after after' states ends
    exact ⟨{ ends with }, rfl⟩

theorem Alike.relocate {left : Interp α} {right : Interp β}
    {locate locate' : Option Span → Option Span}
    (alike : Alike simulation comparison situation world post left right) :
    Alike simulation comparison situation world post
      (relocate locate left) (relocate locate' right) := by
  intro before before' states
  apply simulation.bind (alike _ _ states)
  · rintro ⟨result, final⟩ ⟨strict, reason, same⟩
    cases (same : result = _)
    cases reason <;> exact ⟨strict, _, rfl⟩
  · rintro lines ⟨result, after⟩ lines' ⟨result', after'⟩
      ⟨larger, extends', ends, results, shown⟩
    have moved : Shown comparison situation.worker before after
        (lines ++ []) (lines' ++ []) := by simpa using shown
    cases result with
    | ok a =>
        cases result' with
        | ok b => exact simulation.ret ⟨larger, extends', ends, results, moved⟩
        | error reason => exact results.elim
    | error reason =>
        cases result' with
        | ok b => exact results.elim
        | error reason' =>
            cases reason <;> cases reason' <;> first
              | exact results.elim
              | exact simulation.ret ⟨larger, extends', ends, results, moved⟩

theorem Alike.deeper {left : Interp α} {right : Interp β}
    (alike : Alike simulation comparison
      { situation with depth := situation.depth + 1 } world post left right) :
    Alike simulation comparison situation world post
      (Interp.around
        (fun state => { state with
          expressionDepth := state.expressionDepth + 1 })
        (fun _ after => { after with
          expressionDepth := after.expressionDepth - 1 }) left)
      (Interp.around
        (fun state => { state with
          expressionDepth := state.expressionDepth + 1 })
        (fun _ after => { after with
          expressionDepth := after.expressionDepth - 1 }) right) := by
  refine alike.around ?_ ?_ rfl
  · intro before before' states
    exact ⟨{ states with
      depth := congrArg (· + 1) states.depth
      depth' := congrArg (· + 1) states.depth' }, rfl⟩
  · intro larger before before' after after' states ends
    exact ⟨{ ends with
      depth := congrArg (· - 1) ends.depth
      depth' := congrArg (· - 1) ends.depth' }, rfl⟩

theorem Alike.nested {left : Interp α} {right : Interp β}
    {point point' : Point}
    (alike : Alike simulation comparison
      { situation with depth := situation.depth + 1 } world post left right) :
    Alike simulation comparison situation world post (nested point left)
      (nested point' right) := by
  intro before before' states
  unfold Interp.nested
  rw [states.depth, states.depth']
  by_cases deep : before.limits.expressionDepth ≤ situation.depth
  · rw [if_pos deep]
    cases strict : comparison.strict with
    | true => exact holds_failed strict
    | false =>
        have same := states.limits.equal (comparison.lenient strict).2.2
        rw [same, if_pos deep]
        exact holds_ret (.refl world) states
          (failure_rel states point point' .expressionDepth) rfl
  · have deep' : ¬ before'.limits.expressionDepth ≤ situation.depth := by
      have room := states.limits.expressionDepth
      omega
    rw [if_neg deep, if_neg deep']
    exact alike.deeper before before' states

theorem Alike.framed {left : Interp α} {right : Interp β} {name : String}
    {returnType returnType' : Option ResolvedType}
    (returns : returnType' = comparison.keep returnType)
    (alike : Alike simulation comparison
      { situation with depth := 0, returns := true } world post left right) :
    Alike simulation comparison situation world post
      (framed name returnType left) (framed name returnType' right) := by
  refine alike.around ?_ ?_ rfl
  · intro before before' states
    exact ⟨{ states with
      callStack := congrArg (· ++ [name]) states.callStack
      depth := rfl
      depth' := rfl
      returnType := fun _ => returns }, rfl⟩
  · intro larger before before' after after' states ends
    exact ⟨{ ends with
      callStack := congrArg List.dropLast ends.callStack
      depth := states.depth
      depth' := states.depth'
      returnType := states.returnType }, rfl⟩

theorem alike_types :
    Alike simulation comparison situation world
      (fun larger types types' =>
        TypesAgree comparison.rewriting (comparison.matching larger) types
          types' ∧ (comparison.matching larger).Faithful) types types :=
  fun _ _ states =>
    holds_ret (.refl world) states ⟨states.types, states.faithful⟩ rfl

theorem alike_location :
    Alike simulation comparison situation world (fun _ _ _ => True)
      location location :=
  fun _ _ states => holds_ret (.refl world) states trivial rfl

theorem alike_lift {point point' : Point} {left : Except ErrorKind α}
    {right : Except ErrorKind β} (agree : Agree (post world) left right) :
    Alike simulation comparison situation world post (lift point left)
      (lift point' right) := by
  cases left with
  | ok a =>
      cases right with
      | ok b => exact alike_pure agree
      | error kind => exact agree.elim
  | error kind =>
      cases right with
      | ok b => exact agree.elim
      | error kind' =>
          cases (agree : kind = kind')
          exact alike_fail

theorem alike_attempt {point point' : Point} {left : Except Fault α}
    {right : Except Fault β} (agree : Agree (post world) left right) :
    Alike simulation comparison situation world post (attempt point left)
      (attempt point' right) := by
  cases left with
  | ok a =>
      cases right with
      | ok b => exact alike_pure agree
      | error fault => exact agree.elim
  | error fault =>
      cases right with
      | ok b => exact agree.elim
      | error fault' =>
          cases (agree : fault = fault')
          cases fault with
          | kind kind => exact alike_fail
          | panic => exact alike_stop trivial

/-- The same check on related values. -/
theorem alike_checkSame {point point' : Point}
    {expected : Option ResolvedType} {a a' : Value}
    (related : Value.Rel (comparison.matching world) a a') :
    Alike simulation comparison situation world (fun _ _ _ => True)
      (check point expected a) (check point' expected a') := by
  intro before before' states
  unfold check
  rw [states.types.checkValueType states.faithful expected related]
  exact alike_attempt (agree_refl (fun _ => trivial) _) _ _ states

/-- An annotation that is gone on the right checks nothing there. -/
theorem alike_check {point point' : Point} {expected : Option ResolvedType}
    {a a' : Value} (related : Value.Rel (comparison.matching world) a a') :
    Alike simulation comparison situation world (fun _ _ _ => True)
      (check point expected a)
      (check point' (comparison.keep expected) a') := by
  intro before before' states
  unfold check
  have checked := states.types.checkValueType states.faithful
    (comparison.keep expected) related
  rw [checked]
  unfold Comparison.keep
  by_cases erased : comparison.rewriting.annotations = true
  · have strict : comparison.strict = true := by
      by_contra lenient
      have kept := (comparison.lenient (by simpa using lenient)).1
      rw [kept] at erased
      cases erased
    rw [if_pos erased]
    rcases before.types.checkValueType expected a with
      ((kind | _) | checked)
    · exact holds_failed strict
    · exact holds_failed strict
    · exact holds_ret (.refl world) states trivial rfl
  · rw [if_neg erased]
    exact alike_attempt (agree_refl (fun _ => trivial) _) _ _ states

/-- Under a strict comparison only a left side that succeeds matters. -/
theorem alike_fail_strict {point : Point} {kind : ErrorKind}
    {right : Interp β} (strict : comparison.strict = true) :
    Alike simulation comparison situation world post (fail point kind)
      right :=
  fun _ _ _ => holds_failed strict

theorem alike_checkReturn {point point' : Point} {a a' : Value}
    (returns : situation.returns = true)
    (related : Value.Rel (comparison.matching world) a a') :
    Alike simulation comparison situation world (fun _ _ _ => True)
      (checkReturn point a) (checkReturn point' a') := by
  intro before before' states
  unfold checkReturn
  rw [states.returnType returns]
  exact alike_check related _ _ states

theorem alike_annotationType {annotated : Option TypeAnnotation} :
    Alike simulation comparison situation world
      (fun _ ty ty' => ty' = comparison.keep ty)
      (annotationType annotated)
      (annotationType (comparison.rewriting.optional annotated)) := by
  intro before before' states
  refine holds_ret (.refl world) states ?_ rfl
  unfold Comparison.keep Rewriting.optional
  split
  · rfl
  · cases annotated with
    | none => rfl
    | some annotated =>
        simp only [Option.map_some, Option.bind_some,
          Rewriting.typeAnnotated_name]
        exact states.types.resolve annotated.name

theorem alike_resolve {point point' : Point} {env env' : Environment}
    (environments : EnvRel world env env') (name : String) :
    Alike simulation comparison situation world World.slot
      (Interp.resolve point env name) (Interp.resolve point' env' name) := by
  unfold Interp.resolve
  obtain ⟨missing, missing'⟩ | ⟨id, id', found, found', slot⟩ :=
    optionRel_cases (environments.resolve name)
  · rw [missing, missing']
    exact alike_fail
  · rw [found, found']
    exact alike_pure slot

theorem alike_binding {id id' : Nat} (slot : world.slot id id') :
    Alike simulation comparison situation world
      (fun larger => BindingRel comparison larger) (binding id)
      (binding id') := by
  intro before before' states
  obtain ⟨b, b', found, found', related⟩ := states.bindings slot
  unfold binding
  rw [found, found']
  exact holds_ret (.refl world) states related rfl

theorem alike_read {point point' : Point} {id id' : Nat}
    (slot : world.slot id id') :
    Alike simulation comparison situation world
      (fun larger => Value.Rel (comparison.matching larger))
      (Interp.read point id) (Interp.read point' id') := by
  unfold Interp.read
  apply (alike_binding slot).bind
  intro larger extends' b b' related
  obtain ⟨missing, missing'⟩ | ⟨value, value', found, found', values⟩ :=
    optionRel_cases related.value
  · rw [missing, missing']
    exact alike_fail
  · rw [found, found']
    exact alike_pure values

theorem alike_checkBinding {point point' : Point} {id id' : Nat}
    {a a' : Value} (slot : world.slot id id')
    (related : Value.Rel (comparison.matching world) a a') :
    Alike simulation comparison situation world (fun _ _ _ => True)
      (checkBinding point id a) (checkBinding point' id' a') := by
  unfold checkBinding
  apply (alike_binding slot).bind
  intro larger extends' b b' bindings
  rw [bindings.annotated]
  exact alike_check (related.mono (comparison.matching_mono extends'))

theorem alike_notCaptured {point point' : Point} {id id' : Nat}
    (slot : world.slot id id') :
    Alike simulation comparison situation world (fun _ _ _ => True)
      (fun state : Interpreter =>
        if id < state.capturedBindings then
          fail point .capturedAssignment state
        else .ret (.ok (), state))
      (fun state : Interpreter =>
        if id' < state.capturedBindings then
          fail point' .capturedAssignment state
        else .ret (.ok (), state)) := by
  intro before before' states
  have captured := states.captured
  beta_reduce
  cases serial : comparison.serial with
  | true =>
      have strict : comparison.strict = true := by
        by_contra lenient
        have kept := (comparison.lenient (by simpa using lenient)).2.1
        rw [show comparison.rewriting.parallel = true from serial] at kept
        cases kept
      rw [serial, if_pos rfl] at captured
      rw [captured]
      split
      · exact holds_failed strict
      · exact holds_ret (.refl world) states trivial rfl
  | false =>
      rw [serial, if_neg Bool.false_ne_true] at captured
      rw [captured, ← states.slot serial slot]
      split
      · exact holds_ret (.refl world) states
          (failure_rel states point point' .capturedAssignment) rfl
      · exact holds_ret (.refl world) states trivial rfl

theorem alike_checkAssignable {point point' : Point} {id id' : Nat}
    (slot : world.slot id id') :
    Alike simulation comparison situation world (fun _ _ _ => True)
      (checkAssignable point id) (checkAssignable point' id') := by
  unfold checkAssignable
  apply (alike_binding slot).bind
  intro larger extends' b b' bindings
  rw [bindings.mutable]
  cases b.mutable with
  | false => exact alike_fail
  | true => exact alike_notCaptured (extends'.slot slot)

/-- A write changes corresponding slots only. -/
theorem alike_write {id id' : Nat} {a a' : Value}
    (slot : world.slot id id')
    (related : Value.Rel (comparison.matching world) a a') :
    Alike simulation comparison situation world (fun _ _ _ => True)
      (write id a) (write id' a') := by
  intro before before' states
  obtain ⟨_, _, inside, inside', _⟩ := states.bindings slot
  have bound := (List.getElem?_eq_some_iff.mp inside).1
  have bound' := (List.getElem?_eq_some_iff.mp inside').1
  unfold write
  rw [if_pos bound, if_pos bound']
  refine holds_ret (.refl world) { states with
    bindings := ?_
    lengths := ?_ } trivial rfl
  · intro other other' others
    obtain ⟨b, b', found, found', bindings⟩ := states.bindings others
    rw [List.getElem?_modify, List.getElem?_modify, found, found']
    have together := states.slots slot others
    by_cases same : id = other
    · refine ⟨_, _, rfl, rfl, ?_⟩
      simp only [if_pos same, if_pos (together.mp same)]
      exact ⟨bindings.mutable, bindings.annotated, .some related⟩
    · have different : id' ≠ other' := fun equal =>
        same (together.mpr equal)
      refine ⟨_, _, rfl, rfl, ?_⟩
      simp only [if_neg same, if_neg different]
      exact bindings
  · intro parallel
    simpa using states.lengths parallel

/-- What is shown does not matter. -/
theorem alike_observe {shown shown' : Interpreter → Observation} :
    Alike simulation comparison situation world (fun _ _ _ => True)
      (observe shown) (observe shown') := by
  intro before before' states
  apply simulation.observe
  exact holds_ret (.refl world) states trivial rfl

/-- Both arenas of bindings grow by corresponding slots. -/
theorem alike_allocate {b b' : Binding}
    (related : BindingRel comparison world b b') :
    Alike simulation comparison situation world World.slot
      (allocate b) (allocate b') := by
  intro before before' states
  have extends' := world.extends_withSlot before.bindings.length
    before'.bindings.length
  have inRange : ∀ {a a'}, world.slot a a' →
      a < before.bindings.length ∧ a' < before'.bindings.length := by
    intro a a' slot
    obtain ⟨b, b', found, found', _⟩ := states.bindings slot
    exact ⟨(List.getElem?_eq_some_iff.mp found).1,
      (List.getElem?_eq_some_iff.mp found').1⟩
  have matching : comparison.matching (world.withSlot before.bindings.length
      before'.bindings.length) = comparison.matching world := rfl
  refine holds_ret extends' { states with
    types := states.types
    bindings := ?_
    functions := ?_
    slots := ?_
    lengths := ?_
    slot := ?_ } (.inr ⟨rfl, rfl⟩) rfl
  · rintro a a' (slot | ⟨rfl, rfl⟩)
    · obtain ⟨c, c', found, found', bindings⟩ := states.bindings slot
      obtain ⟨bound, bound'⟩ := inRange slot
      refine ⟨c, c', ?_, ?_, bindings.mono extends'⟩
      · rwa [List.getElem?_append_left bound]
      · rwa [List.getElem?_append_left bound']
    · refine ⟨b, b', ?_, ?_, related.mono extends'⟩
      · simp
      · simp
  · intro a a' handle
    exact optionRel_mono (states.functions handle)
      fun _ _ => FunctionRel.mono extends'
  · rintro a c a' c' (first | ⟨rfl, rfl⟩) (second | ⟨rfl, rfl⟩)
    · exact states.slots first second
    · have bounds := inRange first
      omega
    · have bounds := inRange second
      omega
    · simp
  · intro parallel
    have lengths := states.lengths parallel
    exact ⟨by simp [lengths.1], lengths.2⟩
  · rintro parallel a a' (slot | ⟨rfl, rfl⟩)
    · exact states.slot parallel slot
    · exact (states.lengths parallel).1.symm

/-- The function of related handles, for a call. -/
theorem alike_function {point point' : Point} {id id' given : Nat}
    (handle : world.handle id id') :
    Alike simulation comparison situation world
      (fun larger => FunctionRel comparison larger)
      (Interp.function point id given)
      (Interp.function point' id' given) := by
  intro before before' states
  unfold Interp.function
  rw [states.callStack]
  by_cases deep : before.limits.callDepth ≤ before.callStack.length
  · rw [if_pos deep]
    cases strict : comparison.strict with
    | true => exact holds_failed strict
    | false =>
        have same := states.limits.equal (comparison.lenient strict).2.2
        rw [same, if_pos deep]
        exact holds_ret (.refl world) states
          (failure_rel states point point' .callDepth) rfl
  · have deep' : ¬ before'.limits.callDepth ≤ before.callStack.length := by
      have room := states.limits.callDepth
      omega
    rw [if_neg deep, if_neg deep']
    obtain ⟨missing, missing'⟩ | ⟨f, f', found, found', related⟩ :=
      optionRel_cases (states.functions handle)
    · rw [missing, missing']
      exact holds_ret (.refl world) states
        (failure_rel states point point' .invalidFunctionHandle) rfl
    · rw [found, found']
      have count : f'.parameters.length = f.parameters.length := by
        rw [related.parameters, List.length_map]
      simp only [count, related.name]
      split
      · exact holds_ret (.refl world) states
          (failure_rel states point point' _) rfl
      · exact holds_ret (.refl world) states related rfl

end Rules

end NetLang
