import NetLang.Library.Budget
import Mathlib.Logic.Hydra

/-!
# Termination of runs

A computation is a tree all of whose branches end.  So is a batch of
computations that take turns, in whichever order they take them.  Every unit
that is granted is taken from the shared budget.
-/

namespace NetLang

variable {σ : Signature} {α : Type}

/-- A computation after one of its actions, or after a panic. -/
inductive Comp.Below : Comp σ α → Comp σ α → Prop where
  | replied (action : Action σ) (next : action.Reply → Comp σ α)
      (reply : action.Reply) : Below (next reply) (.act action next)
  | ended (action : Action σ) (next : action.Reply → Comp σ α) (value : α) :
      Below (.ret value) (.act action next)

theorem Comp.acc_ret (value : α) : Acc (Comp.Below (σ := σ)) (.ret value) :=
  Acc.intro _ fun _ below => nomatch below

theorem Comp.below_wellFounded :
    WellFounded (Comp.Below (σ := σ) (α := α)) := by
  constructor
  intro comp
  induction comp with
  | ret value => exact Comp.acc_ret value
  | act action next induction =>
      constructor
      intro lower below
      cases below with
      | replied _ _ reply => exact induction reply
      | ended _ _ value => exact Comp.acc_ret value

/-- The threads of a batch after one of them has taken a turn. -/
def BatchBelow (after before : List (Comp σ σ.End)) : Prop :=
  ∃ i, ∃ bound : i < before.length, ∃ thread,
    thread.Below before[i] ∧ after = before.set i thread

theorem batchBelow_wellFounded : WellFounded (BatchBelow (σ := σ)) := by
  have irreflexive := (Comp.below_wellFounded (σ := σ) (α := σ.End)).irrefl
  refine Subrelation.wf ?_ (InvImage.wf
    (fun threads : List (Comp σ σ.End) =>
      (threads : Multiset (Comp σ σ.End)))
    Comp.below_wellFounded.cutExpand)
  intro after before below
  obtain ⟨i, bound, thread, lower, rfl⟩ := below
  have picked : ∀ item, ((before.take i ++ item :: before.drop (i + 1) :
      List _) : Multiset (Comp σ σ.End)) =
      (before.take i ++ before.drop (i + 1) : List _) + {item} := by
    intro item
    rw [Multiset.add_comm, Multiset.singleton_add, Multiset.cons_coe]
    exact Multiset.coe_eq_coe.mpr List.perm_middle
  have whole : (before : Multiset (Comp σ σ.End)) =
      (before.take i ++ before.drop (i + 1) : List _) + {before[i]} := by
    rw [← picked]
    simp
  have changed : (before.set i thread : Multiset (Comp σ σ.End)) =
      (before.take i ++ before.drop (i + 1) : List _) + {thread} := by
    rw [← picked, List.set_eq_take_append_cons_drop, if_pos bound]
  simp only [InvImage]
  rw [whole, changed]
  exact Relation.cutExpand_add_single _ lower

/-- The chosen thread of a batch has not ended. -/
theorem mem_unfinished {threads : List (Comp σ σ.End)} {i : Nat}
    (member : i ∈ unfinished threads) :
    ∃ action next, threads[i]? = some (Comp.act action next) := by
  obtain ⟨ranged, waiting⟩ := List.mem_filter.mp member
  have bound := List.mem_range.mp ranged
  rw [List.getElem?_eq_getElem bound] at waiting ⊢
  cases same : threads[i] with
  | ret value => simp [same, Comp.value?] at waiting
  | act action next => exact ⟨action, next, rfl⟩

theorem stepThread_below (setup : Setup σ) (shared : Shared σ)
    (action : Action σ) (next : action.Reply → Comp σ σ.End) :
    (stepThread setup shared (.act action next)).2.Below
      (.act action next) := by
  simp only [stepThread]
  split
  · next after reply performed => exact .replied action next reply
  · exact .ended action next _

namespace Machine

/-- A machine in which nothing more happens. -/
def Ended (machine : Machine σ α) : Prop :=
  machine.control = .crashed ∨ machine.result?.isSome

/-- A turn of a machine that has not ended. -/
def Turn (setup : Setup σ) (after before : Machine σ α) : Prop :=
  ¬ before.Ended ∧ ∃ choice, after = before.step setup choice

theorem joining_acc {setup : Setup σ} {jobs : List σ.Job}
    {refusal : Option σ.Refusal}
    {next : List σ.End × Option σ.Refusal → Comp σ α}
    (continues : ∀ shared reply,
      Acc (Turn setup) (⟨shared, .running (next reply)⟩ : Machine σ α))
    (shared : Shared σ) (threads : List (Comp σ σ.End)) :
    Acc (Turn setup)
      (⟨shared, .joining jobs threads refusal next⟩ : Machine σ α) := by
  induction threads using batchBelow_wellFounded.induction
    generalizing shared with
  | _ threads induction =>
      constructor
      rintro after ⟨-, choice, rfl⟩
      simp only [step, stepJoining]
      split
      · exact continues _ _
      · next i chosen =>
          obtain ⟨action, rest, found⟩ :=
            mem_unfinished (List.mem_of_getElem? chosen)
          obtain ⟨bound, same⟩ := List.getElem?_eq_some_iff.mp found
          rw [found]
          refine induction _ ⟨i, bound, _, ?_, rfl⟩ _
          rw [same]
          exact stepThread_below setup shared action rest

theorem running_acc (setup : Setup σ) (shared : Shared σ)
    (main : Comp σ α) :
    Acc (Turn setup) (⟨shared, .running main⟩ : Machine σ α) := by
  induction main generalizing shared with
  | ret value =>
      exact Acc.intro _ fun after turn => absurd (.inr rfl) turn.1
  | act action next induction =>
      constructor
      rintro after ⟨-, choice, rfl⟩
      have acts : Acc (Turn setup) (act setup shared action next) := by
        unfold act
        split
        · next after reply performed => exact induction reply after
        · exact Acc.intro _ fun after turn => absurd (.inl rfl) turn.1
      cases action with
      | spawn jobs =>
          exact joining_acc (fun shared reply => induction reply shared) _ _
      | tick => exact acts
      | call operation => exact acts
      | observe note => exact acts

/-- Whichever threads take their turns, a run ends. -/
theorem turn_wellFounded (setup : Setup σ) :
    WellFounded (Turn setup (α := α)) := by
  constructor
  rintro ⟨shared, control⟩
  cases control with
  | running main => exact running_acc setup shared main
  | joining jobs threads refusal next =>
      exact joining_acc (fun shared reply =>
        running_acc setup shared (next reply)) shared threads
  | crashed => exact Acc.intro _ fun after turn => absurd (.inl rfl) turn.1

theorem schedule_ends (setup : Setup σ) (schedule : Nat → Nat)
    (machine : Machine σ α) :
    ∃ turns, (machine.run setup
      ((List.range turns).map schedule)).Ended := by
  induction machine using (turn_wellFounded setup).induction
    generalizing schedule with
  | _ machine induction =>
      by_cases ended : machine.Ended
      · exact ⟨0, ended⟩
      · obtain ⟨turns, ends⟩ := induction _ ⟨ended, schedule 0, rfl⟩
          (fun turn => schedule (turn + 1))
        refine ⟨turns + 1, ?_⟩
        simpa [List.range_succ_eq_map, run, Function.comp_def] using ends

end Machine

def Comp.action? : Comp σ α → Option (Action σ)
  | .ret _ => none
  | .act action _ => some action

/-- Whether a thread that is about to perform an action is granted a unit. -/
def Shared.grants (host : Host σ) (shared : Shared σ) :
    Option (Action σ) → Bool
  | some .tick => ((shared.perform host .tick).map Prod.snd).getD false
  | _ => false

namespace Machine

/-- The action of the thread that takes the next turn. -/
def action? (choice : Nat) (machine : Machine σ α) : Option (Action σ) :=
  match machine.control with
  | .running main => main.action?
  | .joining _ threads _ _ =>
      let waiting := unfinished threads
      (waiting[choice % waiting.length]?.bind (threads[·]?)).bind
        Comp.action?
  | .crashed => none

/-- The units that are granted in a run, to whichever thread. -/
def granted (setup : Setup σ) : List Nat → Machine σ α → Nat
  | [], _ => 0
  | choice :: rest, machine =>
      (machine.shared.grants setup.host (machine.action? choice)).toNat +
        granted setup rest (machine.step setup choice)

end Machine

/-- An action takes a unit from the budget exactly if it is granted one. -/
theorem Shared.perform_budget {host : Host σ} {shared after : Shared σ}
    {action : Action σ} {reply : action.Reply}
    (performed : shared.perform host action = some (after, reply)) :
    (shared.grants host (some action)).toNat + after.budget =
      shared.budget := by
  cases action with
  | tick =>
      simp only [Shared.grants, performed, Option.map_some, Option.getD_some]
      simp only [Shared.perform] at performed
      split at performed
      · cases performed
        simp
      · next left =>
          cases performed
          simp only [Bool.toNat_true]
          omega
  | call operation =>
      simp only [Shared.perform] at performed
      split at performed
      · cases performed
      · cases performed
        simp [Shared.grants]
  | spawn jobs => cases performed
  | observe note =>
      cases performed
      simp [Shared.grants]

/-- An action that fails is not granted a unit. -/
theorem Shared.perform_grants_none {host : Host σ} {shared : Shared σ}
    {action : Action σ} (missing : shared.perform host action = none) :
    shared.grants host (some action) = false := by
  cases action with
  | tick => simp [Shared.grants, missing]
  | call operation => rfl
  | spawn jobs => rfl
  | observe note => rfl

theorem stepThread_budget (setup : Setup σ) (shared : Shared σ)
    (thread : Comp σ σ.End) :
    (shared.grants setup.host thread.action?).toNat +
      (stepThread setup shared thread).1.budget = shared.budget := by
  cases thread with
  | ret value => simp [stepThread, Comp.action?, Shared.grants]
  | act action next =>
      simp only [stepThread, Comp.action?]
      split
      · next performed => exact Shared.perform_budget performed
      · next missing => simp [Shared.perform_grants_none missing]

namespace Machine

theorem step_budget (setup : Setup σ) (choice : Nat)
    (machine : Machine σ α) :
    (machine.shared.grants setup.host (machine.action? choice)).toNat +
      (machine.step setup choice).shared.budget = machine.shared.budget := by
  obtain ⟨shared, control⟩ := machine
  cases control with
  | running main =>
      cases main with
      | ret value =>
          simp [step, stepMain, action?, Comp.action?, Shared.grants]
      | act action next =>
          have acts : (shared.grants setup.host (some action)).toNat +
              (act setup shared action next).shared.budget =
                shared.budget := by
            unfold act
            split
            · next performed => exact Shared.perform_budget performed
            · next missing => simp [Shared.perform_grants_none missing]
          cases action with
          | spawn jobs =>
              simp [step, stepMain, spawn, action?, Comp.action?,
                Shared.grants]
          | tick => exact acts
          | call operation => exact acts
          | observe note => exact acts
  | joining jobs threads refusal next =>
      simp only [step, stepJoining, action?]
      split
      · next missing => simp [missing, Shared.grants]
      · next i chosen =>
          simp only [chosen, Option.bind_some]
          split
          · next missing => simp [missing, Shared.grants]
          · next thread found =>
              rw [found]
              exact stepThread_budget setup shared thread
  | crashed => simp [step, action?, Shared.grants]

/-- What has been granted is gone from the budget, and nothing else is. -/
theorem run_budget (setup : Setup σ) (choices : List Nat)
    (machine : Machine σ α) :
    machine.granted setup choices +
      (machine.run setup choices).shared.budget = machine.shared.budget := by
  induction choices generalizing machine with
  | nil => exact Nat.zero_add _
  | cons choice rest induction =>
      have rested := induction (machine.step setup choice)
      have stepped := step_budget setup choice machine
      simp only [granted, run]
      omega

end Machine

end NetLang
