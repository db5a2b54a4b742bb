import NetLang.Library.Threads

/-!
# What threads earn and spend

Some of the observations of a computation earn a unit of credit, and others
cost one.  If every thread spends no more than it has earned, then so do all
of them together, at every moment of every run.
-/

namespace NetLang

variable {σ : Signature} {α β : Type}

/-- The observations that earn a unit of credit and those that cost one. -/
structure Prices (σ : Signature) where
  earns : σ.Note → Bool
  costs : σ.Note → Bool

namespace Comp

variable {prices : Prices σ} {post : α → Nat → Prop}

/-- From the given credit nothing is spent that has not been earned, and what
is left satisfies the postcondition. -/
def Affords (prices : Prices σ) (post : α → Nat → Prop) :
    Comp σ α → Nat → Prop
  | .ret value, credit => post value credit
  | .act (.observe note) next, credit =>
      ∃ left, left + (prices.costs note).toNat =
          credit + (prices.earns note).toNat ∧
        (next ()).Affords prices post left
  | .act .tick next, credit =>
      ∀ reply, (next reply).Affords prices post credit
  | .act (.call _) next, credit =>
      ∀ reply, (next reply).Affords prices post credit
  | .act (.spawn _) next, credit =>
      ∀ reply, (next reply).Affords prices post credit

theorem Affords.mono {weaker : α → Nat → Prop} {comp : Comp σ α}
    {credit : Nat} (affords : comp.Affords prices post credit)
    (implies : ∀ value left, post value left → weaker value left) :
    comp.Affords prices weaker credit := by
  induction comp generalizing credit with
  | ret value => exact implies value credit affords
  | act action next induction =>
      cases action with
      | tick => exact fun reply => induction reply (affords reply)
      | call operation => exact fun reply => induction reply (affords reply)
      | spawn jobs => exact fun reply => induction reply (affords reply)
      | observe note =>
          obtain ⟨left, paid, rest⟩ := affords
          exact ⟨left, paid, induction () rest⟩

theorem Affords.bind {post : β → Nat → Prop} {comp : Comp σ α}
    {f : α → Comp σ β} {credit : Nat}
    (affords : comp.Affords prices
      (fun value left => (f value).Affords prices post left) credit) :
    (comp.bind f).Affords prices post credit := by
  induction comp generalizing credit with
  | ret value => exact affords
  | act action next induction =>
      cases action with
      | tick => exact fun reply => induction reply (affords reply)
      | call operation => exact fun reply => induction reply (affords reply)
      | spawn jobs => exact fun reply => induction reply (affords reply)
      | observe note =>
          obtain ⟨left, paid, rest⟩ := affords
          exact ⟨left, paid, induction () rest⟩

end Comp

/-- Threads and the credits that they have, as a sum. -/
inductive Credits (prices : Prices σ) : List (Comp σ α) → Nat → Prop where
  | nil : Credits prices [] 0
  | cons {thread : Comp σ α} {threads : List (Comp σ α)} {credit rest : Nat}
      (affords : thread.Affords prices (fun _ _ => True) credit)
      (others : Credits prices threads rest) :
      Credits prices (thread :: threads) (credit + rest)

theorem Credits.map {γ : Type} {prices : Prices σ} {f : γ → Comp σ α}
    (affords : ∀ item, (f item).Affords prices (fun _ _ => True) 0)
    (list : List γ) : Credits prices (list.map f) 0 := by
  induction list with
  | nil => exact .nil
  | cons item rest induction => exact .cons (affords item) induction

/-- One of the threads may be replaced, with its credit. -/
theorem Credits.split {prices : Prices σ} {threads : List (Comp σ α)}
    {total : Nat} (credits : Credits prices threads total) {i : Nat}
    {thread : Comp σ α} (found : threads[i]? = some thread) :
    ∃ credit rest, credit + rest = total ∧
      thread.Affords prices (fun _ _ => True) credit ∧
      ∀ other left, other.Affords prices (fun _ _ => True) left →
        Credits prices (threads.set i other) (left + rest) := by
  induction credits generalizing i with
  | nil => cases found
  | @cons first others credit rest affords credits induction =>
      cases i with
      | zero =>
          cases found
          exact ⟨credit, rest, rfl, affords, fun other left holds =>
            .cons holds credits⟩
      | succ i =>
          obtain ⟨own, more, sum, holds, replace⟩ := induction found
          refine ⟨own, credit + more, by omega, holds,
            fun other left holds => ?_⟩
          have replaced := Credits.cons affords (replace other left holds)
          rw [show left + (credit + more) = credit + (left + more) by omega]
          exact replaced

/-- The main thread and the threads of a batch have the given credit. -/
def Control.Affords (prices : Prices σ) : Control σ α → Nat → Prop
  | .running main, credit => main.Affords prices (fun _ _ => True) credit
  | .joining _ threads _ next, credit => ∃ own rest, own + rest = credit ∧
      (∀ reply, (next reply).Affords prices (fun _ _ => True) own) ∧
      Credits prices threads rest
  | .crashed, _ => True

/-- What has been spent and the credit that is left have been earned, or were
there at the start. -/
def Machine.Solvent (prices : Prices σ) (start : Nat)
    (machine : Machine σ α) : Prop :=
  ∃ credit, machine.control.Affords prices credit ∧
    machine.shared.notes.countP prices.costs + credit ≤
      machine.shared.notes.countP prices.earns + start

section Steps

variable {prices : Prices σ} {start : Nat} {setup : Setup σ}

theorem countP_note (test : σ.Note → Bool) (note : σ.Note)
    (notes : List σ.Note) :
    (note :: notes).countP test = notes.countP test + (test note).toNat := by
  rw [List.countP_cons]
  cases test note <;> rfl

/-- One action of a thread. -/
theorem Shared.perform_affords {host : Host σ} {shared after : Shared σ}
    {action : Action σ} {reply : action.Reply}
    {next : action.Reply → Comp σ α} {credit rest : Nat}
    (affords : (Comp.act action next).Affords prices (fun _ _ => True) credit)
    (performed : shared.perform host action = some (after, reply))
    (solvent : shared.notes.countP prices.costs + (credit + rest) ≤
      shared.notes.countP prices.earns + start) :
    ∃ left, (next reply).Affords prices (fun _ _ => True) left ∧
      after.notes.countP prices.costs + (left + rest) ≤
        after.notes.countP prices.earns + start := by
  cases action with
  | tick =>
      simp only [Shared.perform] at performed
      split at performed
      · cases performed
        exact ⟨credit, affords false, solvent⟩
      · cases performed
        exact ⟨credit, affords true, solvent⟩
  | call operation =>
      simp only [Shared.perform] at performed
      split at performed
      · cases performed
      · cases performed
        exact ⟨credit, affords _, solvent⟩
  | spawn jobs => cases performed
  | observe note =>
      cases performed
      obtain ⟨left, paid, holds⟩ := affords
      refine ⟨left, holds, ?_⟩
      rw [countP_note, countP_note]
      omega

theorem Machine.Solvent.act {shared : Shared σ} {action : Action σ}
    {next : action.Reply → Comp σ α} {credit : Nat}
    (affords : (Comp.act action next).Affords prices (fun _ _ => True) credit)
    (solvent : shared.notes.countP prices.costs + credit ≤
      shared.notes.countP prices.earns + start) :
    (Machine.act setup shared action next).Solvent prices start := by
  unfold Machine.act
  split
  · next after reply performed =>
      have alone : shared.notes.countP prices.costs + (credit + 0) ≤
          shared.notes.countP prices.earns + start := solvent
      obtain ⟨left, holds, kept⟩ :=
        Shared.perform_affords affords performed alone
      exact ⟨left, holds, kept⟩
  · exact ⟨credit, trivial, solvent⟩

theorem Machine.Solvent.step {machine : Machine σ α}
    (jobs : ∀ job, (setup.job job).Affords prices (fun _ _ => True) 0)
    (solvent : machine.Solvent prices start) (choice : Nat) :
    (machine.step setup choice).Solvent prices start := by
  obtain ⟨credit, affords, holds⟩ := solvent
  obtain ⟨shared, control⟩ := machine
  dsimp only at affords holds
  cases control with
  | crashed => exact ⟨credit, affords, holds⟩
  | running main =>
      cases main with
      | ret value => exact ⟨credit, affords, holds⟩
      | act action next =>
          cases action with
          | spawn list =>
              exact ⟨credit, ⟨credit, 0, rfl, affords, .map jobs _⟩, holds⟩
          | tick => exact Machine.Solvent.act affords holds
          | call operation => exact Machine.Solvent.act affords holds
          | observe note => exact Machine.Solvent.act affords holds
  | joining list threads refusal next =>
      obtain ⟨own, rest, rfl, continues, credits⟩ := affords
      have waiting : ∀ shared' : Shared σ, ∀ threads' : List _, ∀ rest' : Nat,
          Credits prices threads' rest' →
          shared'.notes.countP prices.costs + (own + rest') ≤
            shared'.notes.countP prices.earns + start →
          Machine.Solvent prices start
            ⟨shared', .joining list threads' refusal next⟩ :=
        fun _ _ rest' credits' kept =>
          ⟨own + rest', ⟨own, rest', rfl, continues, credits'⟩, kept⟩
      simp only [Machine.step, Machine.stepJoining]
      split
      · have less : shared.notes.countP prices.costs + own ≤
            shared.notes.countP prices.earns + start := by omega
        exact ⟨own, continues _, less⟩
      · split
        · exact waiting shared threads rest credits holds
        · next i _ thread found =>
            obtain ⟨part, more, rfl, alone, replace⟩ := credits.split found
            cases thread with
            | ret value =>
                exact waiting shared _ _ (replace _ part alone) holds
            | act action next =>
                simp only [stepThread]
                split
                · next after reply performed =>
                    have apart : shared.notes.countP prices.costs +
                        (part + (own + more)) ≤
                          shared.notes.countP prices.earns + start := by
                      omega
                    obtain ⟨left, lasts, kept⟩ :=
                      Shared.perform_affords alone performed apart
                    exact waiting after _ _ (replace _ left lasts) (by omega)
                · exact waiting shared _ (0 + more)
                    (replace (.ret setup.panicked) 0 trivial) (by omega)

/-- No more is spent in a run than has been earned. -/
theorem Machine.run_solvent
    (jobs : ∀ job, (setup.job job).Affords prices (fun _ _ => True) 0)
    (choices : List Nat) {machine : Machine σ α}
    (solvent : machine.Solvent prices start) :
    (machine.run setup choices).Solvent prices start := by
  induction choices generalizing machine with
  | nil => exact solvent
  | cons choice rest induction => exact induction (solvent.step jobs choice)

theorem Machine.start_solvent {main : Comp σ α} (budget : Nat)
    (affords : main.Affords prices (fun _ _ => True) start) :
    (Machine.start budget main).Solvent prices start :=
  ⟨start, affords, by simp [Machine.start]⟩

theorem Machine.Solvent.count {machine : Machine σ α}
    (solvent : machine.Solvent prices start) :
    machine.shared.notes.countP prices.costs ≤
      machine.shared.notes.countP prices.earns + start := by
  obtain ⟨credit, _, holds⟩ := solvent
  omega

end Steps

end NetLang
