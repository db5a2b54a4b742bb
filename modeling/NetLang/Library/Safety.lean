import NetLang.Library.Comp

/-!
# Safety of computations

A contract says what a computation may offer to its surroundings and what it
may rely on in return.  Safety under a contract composes along `bind`, so a
program is proved safe piece by piece.
-/

namespace NetLang

variable {σ : Signature}

/-- Guarantees of a computation about its actions, and its assumptions about
the replies. -/
structure Contract (σ : Signature) where
  call : σ.Call → Prop
  reply : (call : σ.Call) → σ.Reply call → Prop
  job : σ.Job → Prop
  done : σ.Job → σ.End → Prop
  note : σ.Note → Prop

/-- The ends of the started jobs of a batch; a batch that was not started as
a whole has a refusal. -/
structure Joined (done : σ.Job → σ.End → Prop) (jobs : List σ.Job)
    (reply : List σ.End × Option σ.Refusal) : Prop where
  length : reply.1.length ≤ jobs.length
  ends : List.Forall₂ done (jobs.take reply.1.length) reply.1
  refusal : reply.2 = none ↔ reply.1.length = jobs.length

theorem Joined.mono {done weaker : σ.Job → σ.End → Prop}
    {jobs : List σ.Job} {reply : List σ.End × Option σ.Refusal}
    (joined : Joined done jobs reply)
    (implies : ∀ job value, done job value → weaker job value) :
    Joined weaker jobs reply :=
  ⟨joined.length, joined.ends.imp implies, joined.refusal⟩

namespace Contract

variable (contract : Contract σ)

def offers : Action σ → Prop
  | .tick => True
  | .call operation => contract.call operation
  | .spawn jobs => ∀ job ∈ jobs, contract.job job
  | .observe note => contract.note note

def accepts : (action : Action σ) → action.Reply → Prop
  | .tick, _ => True
  | .call operation, reply => contract.reply operation reply
  | .spawn jobs, reply => Joined contract.done jobs reply
  | .observe _, _ => True

end Contract

namespace Comp

variable {α β : Type} {contract : Contract σ} {post : α → Prop}

/-- As long as the replies are as assumed, every action and the returned
value are as guaranteed. -/
def Safe (contract : Contract σ) (post : α → Prop) : Comp σ α → Prop
  | .ret value => post value
  | .act action next => contract.offers action ∧
      ∀ reply, contract.accepts action reply → (next reply).Safe contract post

@[simp] theorem safe_ret {value : α} :
    (Comp.ret value : Comp σ α).Safe contract post ↔ post value :=
  Iff.rfl

@[simp] theorem safe_act {action : Action σ}
    {next : action.Reply → Comp σ α} :
    (Comp.act action next).Safe contract post ↔ contract.offers action ∧
      ∀ reply, contract.accepts action reply →
        (next reply).Safe contract post :=
  Iff.rfl

theorem Safe.mono {weaker : α → Prop} {comp : Comp σ α}
    (safe : comp.Safe contract post)
    (implies : ∀ value, post value → weaker value) :
    comp.Safe contract weaker := by
  induction comp with
  | ret value => exact implies value safe
  | act action next induction =>
      exact ⟨safe.1, fun reply accepted =>
        induction reply (safe.2 reply accepted)⟩

theorem safe_bind {comp : Comp σ α} {f : α → Comp σ β}
    {post : β → Prop} :
    (comp.bind f).Safe contract post ↔
      comp.Safe contract fun value => (f value).Safe contract post := by
  induction comp with
  | ret value => exact Iff.rfl
  | act action next induction =>
      simp only [act_bind, safe_act, induction]

theorem Safe.bind {comp : Comp σ α} {f : α → Comp σ β}
    {after : β → Prop} (safe : comp.Safe contract post)
    (next : ∀ value, post value → (f value).Safe contract after) :
    (comp.bind f).Safe contract after :=
  safe_bind.mpr (safe.mono next)

/-- A second safety argument may be made under a contract of its own, as long
as it assumes no more of the replies. -/
theorem Safe.with {weak : Contract σ} {other : α → Prop} {comp : Comp σ α}
    (first : comp.Safe contract post) (second : comp.Safe weak other)
    (accepts : ∀ action reply, contract.accepts action reply →
      weak.accepts action reply) :
    comp.Safe contract fun value => post value ∧ other value := by
  induction comp with
  | ret value => exact ⟨first, second⟩
  | act action next induction =>
      exact ⟨first.1, fun reply accepted =>
        induction reply (first.2 reply accepted)
          (second.2 reply (accepts action reply accepted))⟩

end Comp

end NetLang
