import NetLang.Library.Comp

/-!
# Paths of computations

A path of a computation is what it does under some replies, up to the value
that it returns.
-/

namespace NetLang

variable {σ : Signature} {α β : Type}

/-- An action and its reply. -/
abbrev Event (σ : Signature) := (action : Action σ) × action.Reply

namespace Comp

inductive Path : Comp σ α → List (Event σ) → α → Prop where
  | ret (value : α) : Path (.ret value) [] value
  | act {action : Action σ} {next : action.Reply → Comp σ α}
      {reply : action.Reply} {events : List (Event σ)} {value : α} :
      Path (next reply) events value →
      Path (.act action next) (⟨action, reply⟩ :: events) value

@[simp] theorem path_ret {value result : α} {events : List (Event σ)} :
    Path (.ret value) events result ↔ events = [] ∧ result = value := by
  constructor
  · intro path
    cases path
    exact ⟨rfl, rfl⟩
  · rintro ⟨rfl, rfl⟩
    exact .ret result

theorem path_act {action : Action σ} {next : action.Reply → Comp σ α}
    {result : α} {events : List (Event σ)} :
    Path (.act action next) events result ↔
      ∃ reply rest, events = ⟨action, reply⟩ :: rest ∧
        Path (next reply) rest result := by
  constructor
  · intro path
    cases path with
    | act rest => exact ⟨_, _, rfl, rest⟩
  · rintro ⟨reply, rest, rfl, path⟩
    exact .act path

theorem Path.bind {comp : Comp σ α} {f : α → Comp σ β} {value : α}
    {result : β} {front back : List (Event σ)}
    (first : comp.Path front value) (rest : (f value).Path back result) :
    (comp.bind f).Path (front ++ back) result := by
  induction first with
  | ret value => exact rest
  | act _ induction => exact .act (induction rest)

/-- A path of a sequence is a path of its first part and one of the rest. -/
theorem path_bind {comp : Comp σ α} {f : α → Comp σ β} {result : β}
    {events : List (Event σ)} :
    (comp.bind f).Path events result ↔
      ∃ front back value, events = front ++ back ∧ comp.Path front value ∧
        (f value).Path back result := by
  constructor
  · intro path
    induction comp generalizing events with
    | ret value => exact ⟨[], events, value, rfl, .ret value, path⟩
    | act action next induction =>
        obtain ⟨reply, rest, rfl, later⟩ := path_act.mp path
        obtain ⟨front, back, value, rfl, first, second⟩ :=
          induction reply later
        exact ⟨⟨action, reply⟩ :: front, back, value, rfl, .act first, second⟩
  · rintro ⟨front, back, value, rfl, first, second⟩
    exact first.bind second

end Comp

end NetLang
