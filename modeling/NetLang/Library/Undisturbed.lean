import NetLang.Library.Lockstep

/-!
# Computations that are left alone

A computation is left alone when every unit it asks for is granted, every call
is answered as it should be, and every batch ends as it should.  What it then
does is given by a number of units, the lines it shows, and a value; it does
not depend on any other thread.
-/

namespace NetLang

variable {σ : Signature} {Line : Type} {α β γ δ : Type}

/-- How calls should be answered, which lines they show, which calls and which
jobs are expected, and how batches should end, after how many units. -/
structure Manners (σ : Signature) (Line : Type) where
  grants : (call : σ.Call) → σ.Reply call → Prop
  shown : σ.Call → List Line
  permits : σ.Call → Prop
  jobs : σ.Job → Prop
  batch : List σ.Job → List σ.End → Nat → Prop
  failed : σ.End → Prop

/-- What a computation does when it is left alone. -/
inductive LeftAlone (manners : Manners σ Line) :
    Comp σ α → Nat → List Line → α → Prop where
  | ret (value : α) : LeftAlone manners (.ret value) 0 [] value
  | tick {next : Bool → Comp σ α} {units : Nat} {lines : List Line}
      {value : α} :
      LeftAlone manners (next true) units lines value →
      LeftAlone manners (.act .tick next) (units + 1) lines value
  | call {operation : σ.Call} {next : σ.Reply operation → Comp σ α}
      {reply : σ.Reply operation} {units : Nat} {lines : List Line}
      {value : α} :
      manners.grants operation reply →
      LeftAlone manners (next reply) units lines value →
      LeftAlone manners (.act (.call operation) next) units
        (manners.shown operation ++ lines) value
  | spawn {jobs : List σ.Job}
      {next : List σ.End × Option σ.Refusal → Comp σ α} {ends : List σ.End}
      {spent units : Nat} {lines : List Line} {value : α} :
      manners.batch jobs ends spent →
      LeftAlone manners (next (ends, none)) units lines value →
      LeftAlone manners (.act (.spawn jobs) next) (spent + units) lines
        value
  | observe {note : σ.Note} {next : Unit → Comp σ α} {units : Nat}
      {lines : List Line} {value : α} :
      LeftAlone manners (next ()) units lines value →
      LeftAlone manners (.act (.observe note) next) units lines value

namespace LeftAlone

variable {manners : Manners σ Line} {comp : Comp σ α} {f : α → Comp σ β}
  {value : α} {units rest : Nat} {lines more : List Line}

theorem bind {result : β} (first : LeftAlone manners comp units lines value)
    (next : LeftAlone manners (f value) rest more result) :
    LeftAlone manners (comp.bind f) (units + rest) (lines ++ more)
      result := by
  induction first with
  | ret value => simpa using next
  | tick _ induction =>
      rw [Nat.add_right_comm]
      exact .tick (induction next)
  | call granted _ induction =>
      rw [List.append_assoc]
      exact .call granted (induction next)
  | spawn ended _ induction =>
      rw [Nat.add_assoc]
      exact .spawn ended (induction next)
  | observe _ induction => exact .observe (induction next)

theorem of_bind {result : β}
    (undisturbed : LeftAlone manners (comp.bind f) units lines result) :
    ∃ first front value second back, units = first + second ∧
      lines = front ++ back ∧ LeftAlone manners comp first front value ∧
      LeftAlone manners (f value) second back result := by
  induction comp generalizing units lines with
  | ret value =>
      exact ⟨0, [], value, units, lines, by simp, rfl, .ret _, undisturbed⟩
  | act action next induction =>
      cases undisturbed with
      | tick rest =>
          obtain ⟨first, front, value, second, back, rfl, rfl, one, two⟩ :=
            induction _ rest
          exact ⟨first + 1, front, value, second, back,
            Nat.add_right_comm _ _ _, rfl, .tick one, two⟩
      | call granted rest =>
          obtain ⟨first, front, value, second, back, rfl, rfl, one, two⟩ :=
            induction _ rest
          exact ⟨first, _, value, second, back, rfl,
            (List.append_assoc _ _ _).symm, .call granted one, two⟩
      | spawn ended rest =>
          obtain ⟨first, front, value, second, back, rfl, rfl, one, two⟩ :=
            induction _ rest
          exact ⟨_, front, value, second, back,
            (Nat.add_assoc _ _ _).symm, rfl, .spawn ended one, two⟩
      | observe rest =>
          obtain ⟨first, front, value, second, back, rfl, rfl, one, two⟩ :=
            induction _ rest
          exact ⟨first, front, value, second, back, rfl, rfl, .observe one,
            two⟩

/-- A computation that can only end badly does not end well. -/
theorem bad_of_doomed {bad : α → Prop}
    (undisturbed : LeftAlone manners comp units lines value)
    (doomed : comp.Doomed bad) : bad value := by
  induction undisturbed with
  | ret value => exact doomed
  | tick _ induction => exact induction (doomed true)
  | call _ _ induction => exact induction (doomed _)
  | spawn _ _ induction => exact induction (doomed _)
  | observe _ induction => exact induction (doomed ())

/-- What is guaranteed of a returned value holds in particular when the
computation is left alone. -/
theorem of_safe {contract : Contract σ} {post : α → Prop}
    (undisturbed : LeftAlone manners comp units lines value)
    (safe : comp.Safe contract post)
    (replies : ∀ operation reply, manners.grants operation reply →
      contract.reply operation reply)
    (batches : ∀ jobs ends spent, manners.batch jobs ends spent →
      Joined contract.done jobs (ends, none)) : post value := by
  induction undisturbed with
  | ret value => exact safe
  | tick _ induction => exact induction (safe.2 true trivial)
  | call granted _ induction =>
      exact induction (safe.2 _ (replies _ _ granted))
  | spawn ended _ induction =>
      exact induction (safe.2 _ (batches _ _ _ ended))
  | observe _ induction => exact induction (safe.2 () trivial)

end LeftAlone

/-- Whenever it is not left alone, the computation can only end badly. -/
def Comp.Fragile (manners : Manners σ Line) (bad : α → Prop) :
    Comp σ α → Prop
  | .ret _ => True
  | .act .tick next =>
      (next true).Fragile manners bad ∧ (next false).Doomed bad
  | .act (.call operation) next => (∀ reply, (next reply).Doomed bad) ∨
      manners.permits operation ∧
        ∀ reply, manners.grants operation reply →
          (next reply).Fragile manners bad
  | .act (.spawn jobs) next => (∀ reply, (next reply).Doomed bad) ∨
      (∀ job ∈ jobs, manners.jobs job) ∧
        Hopeless manners.failed bad jobs next ∧
        ∀ ends spent, manners.batch jobs ends spent →
          (next (ends, none)).Fragile manners bad
  | .act (.observe _) next => (next ()).Fragile manners bad

section Fragile

variable {manners : Manners σ Line} {bad : α → Prop} {worse : β → Prop}
  {comp : Comp σ α} {f : α → Comp σ β}

theorem Comp.Fragile.bind (fragile : comp.Fragile manners bad)
    (dooms : ∀ a, bad a → (f a).Doomed worse)
    (next : ∀ units lines a, LeftAlone manners comp units lines a →
      (f a).Fragile manners worse) :
    (comp.bind f).Fragile manners worse := by
  induction comp with
  | ret value => exact next 0 [] value (.ret value)
  | act action rest induction =>
      cases action with
      | tick =>
          exact ⟨induction true fragile.1 fun _ _ a undisturbed =>
            next _ _ a (.tick undisturbed), fragile.2.bind dooms⟩
      | call operation =>
          obtain doomed | ⟨permitted, fragile⟩ := fragile
          · exact .inl fun reply => (doomed reply).bind dooms
          · refine .inr ⟨permitted, fun reply granted => ?_⟩
            apply induction reply (fragile reply granted)
            exact fun _ _ a undisturbed =>
              next _ _ a (.call granted undisturbed)
      | spawn jobs =>
          obtain doomed | ⟨expected, hopeless, fragile⟩ := fragile
          · exact .inl fun reply => (doomed reply).bind dooms
          · refine .inr ⟨expected, fun ends refusal short failed =>
              (hopeless ends refusal short failed).bind dooms,
              fun ends spent ended => ?_⟩
            apply induction (ends, none) (fragile ends spent ended)
            exact fun _ _ a undisturbed =>
              next _ _ a (.spawn ended undisturbed)
      | observe note =>
          exact induction () fragile fun _ _ a undisturbed =>
            next _ _ a (.observe undisturbed)

theorem Comp.Doomed.fragile (doomed : comp.Doomed bad) :
    comp.Fragile manners bad := by
  induction comp with
  | ret value => trivial
  | act action next induction =>
      cases action with
      | tick => exact ⟨induction true (doomed true), doomed false⟩
      | call operation => exact .inl doomed
      | spawn jobs => exact .inl doomed
      | observe note => exact induction () (doomed ())

end Fragile

/-- A computation that is strictly in step with another one is fragile. -/
theorem Lockstep.fragile {manners : Manners σ Line} {mirror : Mirror σ}
    {bad : α → Prop} {post : α → β → Prop} {left : Comp σ α}
    {right : Comp σ β} (lockstep : Lockstep mirror bad post left right)
    (strict : mirror.strict)
    (permits : ∀ operation, manners.permits operation)
    (expected : ∀ job job', mirror.jobs job job' → manners.jobs job)
    (failed : ∀ value, manners.failed value → mirror.failed value)
    (replies : ∀ {operation operation' reply},
      mirror.calls operation operation' → manners.grants operation reply →
      ∃ reply', mirror.replies operation operation' reply reply')
    (ends : ∀ {jobs jobs' ends spent}, List.Forall₂ mirror.jobs jobs jobs' →
      manners.batch jobs ends spent →
      ∃ ends', List.Forall₂ mirror.ends ends ends') :
    left.Fragile manners bad := by
  induction lockstep with
  | doomed fails => exact fails.fragile
  | ret holds => trivial
  | tick _ denied induction => exact ⟨induction true, denied strict⟩
  | call related _ induction =>
      refine .inr ⟨permits _, fun reply granted => ?_⟩
      obtain ⟨reply', heard⟩ := replies related granted
      exact induction reply reply' heard
  | spawn related _ hopeless induction =>
      refine .inr ⟨?_, ?_, ?_⟩
      · intro job member
        obtain ⟨i, bound, rfl⟩ := List.getElem_of_mem member
        have pairs := (List.forall₂_iff_get.mp related).2 i bound
          (related.length_eq ▸ bound)
        exact expected _ _ pairs
      · rintro values refusal short ⟨value, member, fails⟩
        exact hopeless values refusal short ⟨value, member, failed _ fails⟩
      · intro values spent ended
        obtain ⟨values', pairs⟩ := ends related ended
        exact induction values values' none pairs
  | observe _ induction => exact induction

/-- What the left side does when it is left alone, the right side does as
well, and takes as many units.  Optionally the left side is fragile. -/
def Manners.Follows (manners manners' : Manners σ Line) (fragile : Prop)
    (bad : α → Prop) (post : List Line × α → List Line × β → Prop)
    (left : Comp σ α) (right : Comp σ β) : Prop :=
  (fragile → left.Fragile manners bad) ∧
    ∀ units lines a, LeftAlone manners left units lines a → ¬ bad a →
      ∃ lines' b, LeftAlone manners' right units lines' b ∧
        post (lines, a) (lines', b)

section Follows

variable {manners manners' : Manners σ Line} {fragile : Prop} {bad : α → Prop}
  {post : List Line × α → List Line × β → Prop}

theorem Manners.Follows.ret {a : α} {b : β} (holds : post ([], a) ([], b)) :
    manners.Follows manners' fragile bad post (.ret a) (.ret b) := by
  refine ⟨fun _ => trivial, fun units lines value undisturbed _ => ?_⟩
  cases undisturbed
  exact ⟨[], b, .ret b, holds⟩

theorem Manners.Follows.bind {left : Comp σ α} {right : Comp σ β}
    {worse : γ → Prop} {after : List Line × γ → List Line × δ → Prop}
    {f : α → Comp σ γ} {g : β → Comp σ δ}
    (follows : manners.Follows manners' fragile bad post left right)
    (dooms : ∀ a, bad a → (f a).Doomed worse)
    (next : ∀ lines a lines' b, post (lines, a) (lines', b) →
      manners.Follows manners' fragile worse
        (fun x y => after (lines ++ x.1, x.2) (lines' ++ y.1, y.2))
        (f a) (g b)) :
    manners.Follows manners' fragile worse after (left.bind f)
      (right.bind g) := by
  constructor
  · intro isFragile
    apply (follows.1 isFragile).bind dooms
    intro units lines a undisturbed
    by_cases isBad : bad a
    · exact (dooms a isBad).fragile
    · obtain ⟨lines', b, _, held⟩ :=
        follows.2 units lines a undisturbed isBad
      exact (next lines a lines' b held).1 isFragile
  · intro units lines c undisturbed good
    obtain ⟨first, front, a, second, back, rfl, rfl, one, two⟩ :=
      undisturbed.of_bind
    have fine : ¬ bad a := fun isBad => good (two.bad_of_doomed (dooms a isBad))
    obtain ⟨front', b, one', held⟩ := follows.2 first front a one fine
    obtain ⟨back', d, two', ended⟩ :=
      (next front a front' b held).2 second back c two good
    exact ⟨front' ++ back', d, one'.bind two', ended⟩

/-- Calls that are answered on the right if they are answered on the left. -/
theorem Manners.Follows.call {operation operation' : σ.Call}
    {next : σ.Reply operation → Comp σ α}
    {next' : σ.Reply operation' → Comp σ β}
    (permitted : manners.permits operation)
    (answers : ∀ reply, manners.grants operation reply →
      ∃ reply', manners'.grants operation' reply' ∧
        manners.Follows manners' fragile bad (fun x y =>
          post (manners.shown operation ++ x.1, x.2)
            (manners'.shown operation' ++ y.1, y.2))
          (next reply) (next' reply')) :
    manners.Follows manners' fragile bad post (.act (.call operation) next)
      (.act (.call operation') next') := by
  constructor
  · intro isFragile
    refine .inr ⟨permitted, fun reply granted => ?_⟩
    obtain ⟨reply', _, follows⟩ := answers reply granted
    exact follows.1 isFragile
  · intro units lines a undisturbed good
    cases undisturbed with
    | @call _ _ reply _ lines _ granted rest =>
        obtain ⟨reply', granted', follows⟩ := answers reply granted
        obtain ⟨lines', b, again, held⟩ := follows.2 _ _ _ rest good
        exact ⟨_, b, .call granted' again, held⟩

/-- Following is a simulation, in which calls that show nothing are answered
on the right if they are answered on the left. -/
def Manners.simulation (manners manners' : Manners σ Line) (fragile : Prop) :
    Simulation σ Line where
  strict := True
  calls operation operation' := manners.permits operation ∧
    manners.shown operation = [] ∧ manners'.shown operation' = [] ∧
      ∀ reply, manners.grants operation reply →
        ∃ reply', manners'.grants operation' reply'
  replies operation operation' reply reply' :=
    manners.grants operation reply ∧ manners'.grants operation' reply'
  Holds bad post left right :=
    manners.Follows manners' fragile bad post left right
  doomed doomed := ⟨fun _ => doomed.fragile, fun _ _ _ undisturbed good =>
    absurd (undisturbed.bad_of_doomed doomed) good⟩
  ret := .ret
  bind := .bind
  tick continues denied := by
    refine ⟨fun isFragile => ⟨(continues true).1 isFragile, denied trivial⟩,
      fun units lines a undisturbed good => ?_⟩
    cases undisturbed with
    | tick rest =>
        obtain ⟨lines', b, again, held⟩ := (continues true).2 _ _ _ rest good
        exact ⟨lines', b, .tick again, held⟩
  call := by
    rintro _ _ _ _ operation operation' next next'
      ⟨permitted, silent, silent', answers⟩ continues
    refine Manners.Follows.call permitted fun reply granted => ?_
    obtain ⟨reply', granted'⟩ := answers reply granted
    refine ⟨reply', granted', ?_⟩
    simp only [silent, silent', List.nil_append]
    exact continues reply reply' ⟨granted, granted'⟩
  observe continues := by
    refine ⟨continues.1, fun units lines a undisturbed good => ?_⟩
    cases undisturbed with
    | observe rest =>
        obtain ⟨lines', b, again, held⟩ := continues.2 _ _ _ rest good
        exact ⟨lines', b, .observe again, held⟩

end Follows

end NetLang
