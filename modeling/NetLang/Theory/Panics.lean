import NetLang.Theory.ControlFlow

/-!
# Panics in whole runs
-/

namespace NetLang

open Interp Guard

/-- A host hands back only what it has seen: every record of the execution in
a reply has the type of a record that the host was given. -/
def HandsBack (host : Host effects) (identity : Nat) : Prop :=
  ∀ history call reply, host.answer history call = some reply →
    ∀ value ∈ call.2.answered reply, ∀ id ∈ value.typeIds identity,
      ∃ argument, (argument ∈ call.2.arguments ∨
        ∃ entry ∈ history, argument ∈ entry.1.2.arguments) ∧
        id ∈ argument.typeIds identity

/-- Every record of the execution has a type of its registry. -/
def Guard.honestHost (types : TypeRegistry) (host : Host effects) : Guard where
  types := types
  constructs := fun _ _ => True
  records := ⟨types.identity, fun id _ => id < types.definitions.length⟩
  batches := True
  crashes := ∃ history operation, host.answer history operation = none
  short := True
  careful := False
  identity := rfl
  declared := fun _ _ _ _ _ resolved _ => TypeRegistry.lt_of_resolve resolved
  updates := fun bound _ _ => bound
  foreign := fun other => absurd (fun _ _ bound => bound) other

theorem HandsBack.known {host : Host effects} {identity : Nat}
    {program : Program} (handsBack : HandsBack host identity)
    (history : History effects) (call : effects.Call)
    (reply : effects.Reply call)
    (kept : (Guard.honestHost (.new identity program) host).ledger.Kept history)
    (offered : (Guard.honestHost (.new identity program) host).ledger.call
      call)
    (answered : host.answer history call = some reply) :
    (Guard.honestHost (.new identity program) host).ledger.reply call
      reply := by
  intro value member record inside
  obtain ⟨argument, given, found⟩ := handsBack history call reply answered
    value member record.1 (by
      rw [Value.typeIds_eq]
      exact List.mem_map_of_mem inside)
  rw [Value.typeIds_eq] at found
  obtain ⟨other, inArgument, same⟩ := List.mem_map.mp found
  have bounded : other.1 < (TypeRegistry.new identity
      program).definitions.length := by
    rcases given with now | ⟨entry, earlier, given⟩
    · exact offered argument now other inArgument
    · exact (kept entry earlier).1 argument given other inArgument
  rw [same] at bounded
  exact bounded

variable [Formatting]

/-- No run of an accepted program panics, under a host that hands back only
values it has seen, in this execution or in others: neither in anything that
is evaluated, nor as the result of the run.  Unless the host itself panics, no
thread panics and the run does not crash, so every failure is an error. -/
theorem run_never_panics (host : Host effects) (clock identity : Nat)
    (limits : Limits) (program : Program) (choices : List Nat)
    (accepted : analyze program = []) (handsBack : HandsBack host identity) :
    let machine := runOf host clock identity limits program choices
    (∀ note ∈ machine.shared.notes, note.stopped ≠ some .panic) ∧
    (∀ state, machine.result? ≠ some (.error .panic, state)) ∧
    ((∀ history call, host.answer history call ≠ none) →
      machine.control ≠ .crashed ∧
      (∀ note ∈ machine.shared.notes, ∀ error,
        note.stopped = some (.error error) → error.kind.panicked = false) ∧
      ∀ error state, machine.result? = some (.error (.error error), state) →
        error.kind.panicked = false) := by
  intro machine
  have honors : (setup host).Honors
      (Guard.honestHost (.new identity program) host).ledger :=
    setup_honors handsBack.known fun history call missing =>
      ⟨history, call, missing⟩
  have within : machine.Within _ _ :=
    runOf_within (analyze_tame accepted) rfl trivial (.inl trivial) honors
      choices fun note _ => ⟨False.elim, note.constructs⟩
  have notes := within.shared.notes
  have never : (∀ history call, host.answer history call ≠ none) →
      ¬ ∃ history call, host.answer history call = none :=
    fun answers ⟨history, call, missing⟩ => answers history call missing
  refine ⟨?_, ?_, fun answers => ⟨?_, ?_, ?_⟩⟩
  · intro note member stopped
    exact (notes note member).1.stops stopped fun _ _ bound => bound
  · intro state ended
    exact within.result ended _ rfl fun _ _ bound => bound
  · exact Machine.run_running choices answers nofun
  · intro note member error stopped
    have stops := (notes note member).1.stops stopped
    exact ErrorKind.Ordinary.panicked stops (never answers)
  · intro error state ended
    have stops := within.result ended _ rfl
    exact ErrorKind.Ordinary.panicked stops (never answers)

omit [Formatting]

/-- A program that updates a record after the host has seen it. -/
def recordProgram : Program := ⟨[
  .type "Pair" [⟨"left", { name := "int" }⟩],
  .let "pair" none (.construct "Pair" [("left", .integer 1)]),
  .expression (.send .null (.identifier "pair") none),
  .expression (.assignment (.property (.identifier "pair") "left")
    (.integer 2))]⟩

theorem storingHost_handsBack (identity : Nat) :
    HandsBack (storingHost .null) identity := by
  intro history call reply answered value member id inside
  obtain ⟨host, operation⟩ := call
  have empty : value = .null := by
    cases operation <;> cases answered <;>
      simp [HostCall.answered] at member <;> exact member
  subst empty
  cases inside

theorem run_never_panics_record :
    let _formatting : Formatting := plainFormatting
    analyze recordProgram = [] ∧ HandsBack (storingHost .null) 1 ∧
      ∀ state, (runOf (storingHost .null) 9 1 {} recordProgram
        (List.replicate 30 0)).result? ≠ some (.error .panic, state) := by
  intro _formatting
  have accepted : analyze recordProgram = [] := by decide +kernel
  exact ⟨accepted, storingHost_handsBack 1, (run_never_panics
    (storingHost .null) 9 1 {} recordProgram (List.replicate 30 0) accepted
    (storingHost_handsBack 1)).2.1⟩

end NetLang
