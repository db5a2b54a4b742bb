import NetLang.Library.Comp

/-!
# Simulations of computations

A simulation relates two computations that are to end alike.  What it asks of
their actions is left open: it may make them act in step, or compare only
what each of them does when nothing is refused.  A strict simulation ignores
the right side as soon as the left can only end badly.

The lists beside the returned values are the lines that were put out on the
way.
-/

namespace NetLang

variable {σ : Signature} {α β γ δ : Type}

namespace Comp

/-- Whatever the replies, only bad values are returned. -/
def Doomed (bad : α → Prop) : Comp σ α → Prop
  | .ret value => bad value
  | .act _ next => ∀ reply, (next reply).Doomed bad

theorem Doomed.mono {bad worse : α → Prop} {comp : Comp σ α}
    (doomed : comp.Doomed bad) (implies : ∀ value, bad value → worse value) :
    comp.Doomed worse := by
  induction comp with
  | ret value => exact implies value doomed
  | act action next induction =>
      exact fun reply => induction reply (doomed reply)

theorem Doomed.bind {bad : α → Prop} {worse : β → Prop} {comp : Comp σ α}
    {f : α → Comp σ β} (doomed : comp.Doomed bad)
    (next : ∀ value, bad value → (f value).Doomed worse) :
    (comp.bind f).Doomed worse := by
  induction comp with
  | ret value => exact next value doomed
  | act action rest induction =>
      exact fun reply => induction reply (doomed reply)

theorem Doomed.bind_of_all {worse : β → Prop} {comp : Comp σ α}
    {f : α → Comp σ β} (next : ∀ value, (f value).Doomed worse) :
    (comp.bind f).Doomed worse := by
  induction comp with
  | ret value => exact next value
  | act action rest induction => exact fun reply => induction reply

end Comp

/-- A relation between computations that is closed under the ways to build
them. -/
structure Simulation (σ : Signature) (Line : Type) where
  strict : Prop
  calls : σ.Call → σ.Call → Prop
  replies : (call call' : σ.Call) → σ.Reply call → σ.Reply call' → Prop
  Holds : {α β : Type} → (bad : α → Prop) →
    (post : List Line × α → List Line × β → Prop) →
    Comp σ α → Comp σ β → Prop
  doomed : ∀ {α β : Type} {bad : α → Prop}
    {post : List Line × α → List Line × β → Prop}
    {left : Comp σ α} {right : Comp σ β},
    left.Doomed bad → Holds bad post left right
  ret : ∀ {α β : Type} {bad : α → Prop}
    {post : List Line × α → List Line × β → Prop} {a : α} {b : β},
    post ([], a) ([], b) → Holds bad post (.ret a) (.ret b)
  bind : ∀ {α β γ δ : Type} {bad : α → Prop} {worse : γ → Prop}
    {post : List Line × α → List Line × β → Prop}
    {after : List Line × γ → List Line × δ → Prop}
    {left : Comp σ α} {right : Comp σ β} {f : α → Comp σ γ}
    {g : β → Comp σ δ}, Holds bad post left right →
    (∀ a, bad a → (f a).Doomed worse) →
    (∀ lines a lines' b, post (lines, a) (lines', b) →
      Holds worse (fun x y => after (lines ++ x.1, x.2) (lines' ++ y.1, y.2))
        (f a) (g b)) →
    Holds worse after (left.bind f) (right.bind g)
  tick : ∀ {α β : Type} {bad : α → Prop}
    {post : List Line × α → List Line × β → Prop}
    {next : Bool → Comp σ α} {next' : Bool → Comp σ β},
    (∀ granted, Holds bad post (next granted) (next' granted)) →
    (strict → (next false).Doomed bad) →
    Holds bad post (.act .tick next) (.act .tick next')
  call : ∀ {α β : Type} {bad : α → Prop}
    {post : List Line × α → List Line × β → Prop} {call call' : σ.Call}
    {next : σ.Reply call → Comp σ α} {next' : σ.Reply call' → Comp σ β},
    calls call call' →
    (∀ reply reply', replies call call' reply reply' →
      Holds bad post (next reply) (next' reply')) →
    Holds bad post (.act (.call call) next) (.act (.call call') next')
  observe : ∀ {α β : Type} {bad : α → Prop}
    {post : List Line × α → List Line × β → Prop} {note note' : σ.Note}
    {next : Unit → Comp σ α} {next' : Unit → Comp σ β},
    Holds bad post (next ()) (next' ()) →
    Holds bad post (.act (.observe note) next) (.act (.observe note') next')

namespace Simulation

variable {Line : Type} {simulation : Simulation σ Line} {bad : α → Prop}
  {worse : α → Prop} {post weaker : List Line × α → List Line × β → Prop}
  {left : Comp σ α} {right : Comp σ β}

theorem weaken (holds : simulation.Holds bad post left right)
    (dooms : ∀ a, bad a → worse a)
    (implies : ∀ x y, post x y → weaker x y) :
    simulation.Holds worse weaker left right := by
  rw [← Comp.bind_ret left, ← Comp.bind_ret right]
  apply simulation.bind (f := .ret) (g := .ret) holds dooms
  intro lines a lines' b held
  apply simulation.ret
  simpa using implies _ _ held

theorem mono (holds : simulation.Holds bad post left right)
    (implies : ∀ x y, post x y → weaker x y) :
    simulation.Holds bad weaker left right :=
  weaken holds (fun _ isBad => isBad) implies

end Simulation

end NetLang
