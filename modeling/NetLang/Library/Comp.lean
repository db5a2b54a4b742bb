import Mathlib

/-!
# Computations with effects as data

A computation is a tree: it returns a value, or performs an action and
continues with the reply.  Four actions are enough for a program that shares
one budget between its threads: asking for a unit of the budget, calling the
host, running a batch of jobs on threads of their own, and showing an
observation, which has no effect.
-/

namespace NetLang

/-- What computations can do.  The reply to a batch has one end for each job
that was started and the reason, if any, for which the next one was not. -/
structure Signature where
  Call : Type
  Reply : Call → Type
  Job : Type
  End : Type
  Refusal : Type
  Note : Type

variable {σ : Signature}

inductive Action (σ : Signature) where
  | tick
  | call (operation : σ.Call)
  | spawn (jobs : List σ.Job)
  | observe (note : σ.Note)

abbrev Action.Reply : Action σ → Type
  | .tick => Bool
  | .call operation => σ.Reply operation
  | .spawn _ => List σ.End × Option σ.Refusal
  | .observe _ => Unit

inductive Comp (σ : Signature) (α : Type) where
  | ret (value : α)
  | act (action : Action σ) (next : action.Reply → Comp σ α)

namespace Comp

variable {α β γ : Type}

def bind : Comp σ α → (α → Comp σ β) → Comp σ β
  | .ret value, f => f value
  | .act action next, f => .act action fun reply => (next reply).bind f

def map (f : α → β) (comp : Comp σ α) : Comp σ β :=
  comp.bind fun value => .ret (f value)

def perform (action : Action σ) : Comp σ action.Reply :=
  .act action .ret

instance : Monad (Comp σ) where
  pure := .ret
  bind := bind

@[simp] theorem ret_bind (value : α) (f : α → Comp σ β) :
    (Comp.ret value).bind f = f value :=
  rfl

@[simp] theorem act_bind (action : Action σ)
    (next : action.Reply → Comp σ α) (f : α → Comp σ β) :
    (Comp.act action next).bind f =
      .act action fun reply => (next reply).bind f :=
  rfl

@[simp] theorem bind_ret (comp : Comp σ α) : comp.bind .ret = comp := by
  induction comp with
  | ret value => rfl
  | act action next induction =>
      exact congrArg (Comp.act action) (funext induction)

theorem bind_assoc (comp : Comp σ α) (f : α → Comp σ β)
    (g : β → Comp σ γ) :
    (comp.bind f).bind g = comp.bind fun value => (f value).bind g := by
  induction comp with
  | ret value => rfl
  | act action next induction =>
      exact congrArg (Comp.act action) (funext induction)

end Comp

end NetLang
