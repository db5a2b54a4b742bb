import NetLang.Theory.Triples

/-!
# The output of workers

A worker buffers what it prints.  The counter of its buffer is the number of
bytes of the buffered lines, each with its newline, and stays within the
limit; a print that would exceed it changes nothing.
-/

namespace NetLang

open Interp

/-- The bytes of some lines, each with its newline. -/
def bufferedBytes (lines : List String) : Nat :=
  (lines.map fun line => line.utf8ByteSize + 1).sum

@[simp] theorem bufferedBytes_append (first second : List String) :
    bufferedBytes (first ++ second) =
      bufferedBytes first + bufferedBytes second := by
  simp [bufferedBytes]

@[simp] theorem bufferedBytes_singleton (line : String) :
    bufferedBytes [line] = line.utf8ByteSize + 1 := by
  simp [bufferedBytes]

namespace WorkerBuffer

structure Accounted (buffer : WorkerBuffer) : Prop where
  bytes : buffer.outputBytes = bufferedBytes buffer.output
  limit : buffer.outputBytes ≤ buffer.outputLimit

theorem accounted_empty (limit : Nat) : Accounted ⟨[], 0, limit⟩ :=
  ⟨rfl, Nat.zero_le _⟩

/-- A line is accepted when all sums are sizes and the last is within the
limit. -/
theorem push_eq_some_iff {buffer next : WorkerBuffer} {text : String} :
    buffer.push text = some next ↔
      next = ⟨buffer.output ++ [text],
        buffer.outputBytes + (text.utf8ByteSize + 1), buffer.outputLimit⟩ ∧
      buffer.outputBytes + (text.utf8ByteSize + 1) ≤ buffer.outputLimit ∧
      buffer.outputBytes + (text.utf8ByteSize + 1) < 2 ^ 64 := by
  unfold push checkedSize
  by_cases small : buffer.outputBytes + (text.utf8ByteSize + 1) < 2 ^ 64
  · have line : text.utf8ByteSize + 1 < 2 ^ 64 := by omega
    simp only [if_pos line, Option.bind_some, if_pos small]
    split
    · next within =>
        constructor
        · intro same
          cases same
          exact ⟨rfl, within, small⟩
        · rintro ⟨rfl, _, _⟩
          rfl
    · next beyond =>
        constructor
        · intro same
          cases same
        · rintro ⟨_, within, _⟩
          exact absurd within beyond
  · have refused : ((if text.utf8ByteSize + 1 < 2 ^ 64 then
        some (text.utf8ByteSize + 1) else none).bind fun size =>
          if buffer.outputBytes + size < 2 ^ 64 then
            some (buffer.outputBytes + size) else none) = none := by
      split
      · exact if_neg small
      · rfl
    rw [refused]
    constructor
    · intro same
      cases same
    · rintro ⟨_, _, sized⟩
      exact absurd sized small

theorem Accounted.push {buffer next : WorkerBuffer} {text : String}
    (accounted : buffer.Accounted) (pushed : buffer.push text = some next) :
    next.Accounted := by
  obtain ⟨rfl, within, _⟩ := push_eq_some_iff.mp pushed
  refine ⟨?_, within⟩
  simp only [bufferedBytes_append, bufferedBytes_singleton, accounted.bytes]

/-- Within the range of sizes, only the limit matters. -/
theorem push_isSome_iff {buffer : WorkerBuffer} {text : String}
    (accounted : buffer.Accounted) (sized : buffer.outputLimit < 2 ^ 64) :
    (buffer.push text).isSome ↔
      bufferedBytes (buffer.output ++ [text]) ≤ buffer.outputLimit := by
  rw [Option.isSome_iff_exists, bufferedBytes_append,
    bufferedBytes_singleton, ← accounted.bytes]
  constructor
  · rintro ⟨next, pushed⟩
    exact (push_eq_some_iff.mp pushed).2.1
  · intro within
    exact ⟨_, push_eq_some_iff.mpr ⟨rfl, within, by omega⟩⟩

/-- A print that may be refused. -/
def attempt (buffer : WorkerBuffer) (text : String) : WorkerBuffer :=
  (buffer.push text).getD buffer

theorem Accounted.attempt {buffer : WorkerBuffer} (text : String)
    (accounted : buffer.Accounted) :
    (buffer.attempt text).Accounted ∧
      (buffer.attempt text).outputLimit = buffer.outputLimit := by
  unfold WorkerBuffer.attempt
  cases pushed : buffer.push text with
  | none => exact ⟨accounted, rfl⟩
  | some next =>
      refine ⟨accounted.push pushed, ?_⟩
      obtain ⟨rfl, _⟩ := push_eq_some_iff.mp pushed
      rfl

/-- Any sequence of prints, refused ones included. -/
theorem Accounted.attempts {buffer : WorkerBuffer} (lines : List String)
    (accounted : buffer.Accounted) :
    (lines.foldl WorkerBuffer.attempt buffer).Accounted ∧
      (lines.foldl WorkerBuffer.attempt buffer).outputLimit =
        buffer.outputLimit := by
  induction lines generalizing buffer with
  | nil => exact ⟨accounted, rfl⟩
  | cons line rest induction =>
      obtain ⟨next, limit⟩ := accounted.attempt line
      obtain ⟨last, same⟩ := induction next
      exact ⟨last, same.trans limit⟩

/-- The replay of the lines of an inner worker, up to the first that is
refused, and the lines that were accepted. -/
def replay : WorkerBuffer → List String → WorkerBuffer × List String
  | buffer, [] => (buffer, [])
  | buffer, line :: rest =>
      match buffer.push line with
      | none => (buffer, [])
      | some next =>
          let (last, accepted) := replay next rest
          (last, line :: accepted)

/-- A replay is a sequence of accepted prints. -/
theorem replay_spec (lines : List String) (buffer : WorkerBuffer) :
    (buffer.replay lines).2 <+: lines ∧
      (buffer.replay lines).1 =
        (buffer.replay lines).2.foldl WorkerBuffer.attempt buffer ∧
      (buffer.replay lines).1.output =
        buffer.output ++ (buffer.replay lines).2 := by
  induction lines generalizing buffer with
  | nil => simp [replay]
  | cons line rest induction =>
      cases pushed : buffer.push line with
      | none => simp [replay, pushed]
      | some next =>
          obtain ⟨front, folded, output⟩ := induction next
          obtain ⟨same, _⟩ := push_eq_some_iff.mp pushed
          simp only [replay, pushed]
          refine ⟨?_, ?_, ?_⟩
          · exact List.cons_prefix_cons.mpr ⟨rfl, front⟩
          · rw [List.foldl_cons, WorkerBuffer.attempt, pushed]
            exact folded
          · rw [output, same]
            simp

/-- A line is refused for its size alone: the lines accepted before it and
the line itself exceed the limit. -/
theorem replay_cut {buffer : WorkerBuffer} (accounted : buffer.Accounted)
    (sized : buffer.outputLimit < 2 ^ 64) (lines : List String)
    (cut : (buffer.replay lines).2 ≠ lines) :
    ∃ line rest, lines = (buffer.replay lines).2 ++ line :: rest ∧
      buffer.outputLimit <
        bufferedBytes (buffer.output ++ (buffer.replay lines).2 ++ [line]) := by
  induction lines generalizing buffer with
  | nil => exact absurd rfl cut
  | cons line rest induction =>
      cases pushed : buffer.push line with
      | none =>
          have beyond : ¬bufferedBytes (buffer.output ++ [line]) ≤
              buffer.outputLimit := by
            rw [← push_isSome_iff accounted sized, pushed]
            simp
          refine ⟨line, rest, ?_, ?_⟩
          · simp [replay, pushed]
          · simp only [replay, pushed, List.append_nil]
            exact Nat.lt_of_not_le beyond
      | some next =>
          obtain ⟨same, _⟩ := push_eq_some_iff.mp pushed
          have limit : next.outputLimit = buffer.outputLimit := by rw [same]
          have output : next.output = buffer.output ++ [line] := by rw [same]
          simp only [replay, pushed] at cut ⊢
          obtain ⟨refused, later, whole, beyond⟩ :=
            induction (accounted.push pushed) (limit ▸ sized)
              fun complete => cut (by rw [complete])
          refine ⟨refused, later, ?_, ?_⟩
          · rw [List.cons_append, ← whole]
          · rw [limit, output] at beyond
            simpa using beyond

end WorkerBuffer

section Printing

variable {state : Interpreter} {buffer : WorkerBuffer}

def Interpreter.withBuffer (state : Interpreter) (buffer : WorkerBuffer) :
    Interpreter :=
  { state with runtime := { state.runtime with buffer := some buffer } }

theorem Interpreter.withBuffer_self
    (buffered : state.runtime.buffer = some buffer) :
    state.withBuffer buffer = state := by
  simp [Interpreter.withBuffer, ← buffered]

/-- A print of a worker is one attempt, and fails when it is refused. -/
theorem print_buffered (point : Point) (text : String)
    (buffered : state.runtime.buffer = some buffer) :
    ∃ result, print point text state =
        .ret (result, state.withBuffer (buffer.attempt text)) ∧
      (result = .ok () ↔ (buffer.push text).isSome) := by
  unfold print
  rw [buffered]
  dsimp only
  cases pushed : buffer.push text with
  | none =>
      refine ⟨.error (.error (failure point .outputLimit state)), ?_,
        by simp⟩
      rw [WorkerBuffer.attempt, pushed, Option.getD_none,
        Interpreter.withBuffer_self buffered]
      rfl
  | some next =>
      refine ⟨.ok (), ?_, by simp⟩
      rw [WorkerBuffer.attempt, pushed]
      rfl

/-- Delivering lines to a worker is their replay into its buffer. -/
theorem deliverLines_buffered (point : Point) (lines : List String)
    (buffered : state.runtime.buffer = some buffer) :
    ∃ lost, deliverLines point lines state =
        .ret (.ok lost, state.withBuffer (buffer.replay lines).1) ∧
      (lost = none ↔ (buffer.replay lines).2 = lines) := by
  induction lines generalizing state buffer with
  | nil =>
      refine ⟨none, ?_, by simp [WorkerBuffer.replay]⟩
      rw [WorkerBuffer.replay, Interpreter.withBuffer_self buffered]
      rfl
  | cons line rest induction =>
      unfold deliverLines
      cases pushed : buffer.push line with
      | none =>
          have failed : print point line state =
              fail point .outputLimit state := by
            simp [print, buffered, pushed]
          refine ⟨some (failure point .outputLimit state), ?_, ?_⟩
          · rw [failed, WorkerBuffer.replay, pushed,
              Interpreter.withBuffer_self buffered]
            rfl
          · simp [WorkerBuffer.replay, pushed]
      | some next =>
          have done : print point line state =
              .ret (.ok (), state.withBuffer next) := by
            simp [print, buffered, pushed, Interpreter.withBuffer]
          obtain ⟨lost, delivered, complete⟩ :=
            @induction (state.withBuffer next) next rfl
          refine ⟨lost, ?_, ?_⟩
          · rw [done, WorkerBuffer.replay, pushed]
            exact delivered
          · simp only [WorkerBuffer.replay, pushed, List.cons.injEq,
              true_and]
            exact complete

end Printing

end NetLang
