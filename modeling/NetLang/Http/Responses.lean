import NetLang.Http.Options

/-!
# Responses

The headers of a response become an object of the language.  A repeated
header becomes an array, so that no value is lost.
-/

namespace NetLang

/-- The body of a response: the bytes that can be read, and the error after
them, if there is one. -/
structure Body where
  bytes : List UInt8
  error : Option String

/-- A response; the value of a header may not be text. -/
structure Response where
  status : UInt16
  headers : List (String × Option String)
  body : Body

/-- Add a value to those of a name. -/
def addHeader (headers : SortedMap Value) (name text : String) :
    SortedMap Value :=
  match SortedMap.get? headers name with
  | none => SortedMap.insert headers name (.string text)
  | some (.array values) =>
      SortedMap.insert headers name (.array (values ++ [.string text]))
  | some previous =>
      SortedMap.insert headers name (.array [previous, .string text])

def collectHeaders :
    List (String × Option String) → SortedMap Value →
      Except String (SortedMap Value)
  | [], headers => .ok headers
  | (name, some text) :: rest, headers =>
      collectHeaders rest (addHeader headers name text)
  | (_, none) :: _, _ => .error "response header is not text"

def maxBodyBytes : Nat :=
  8 * 1024 * 1024

namespace Body

/-- Read at most one byte more than is allowed. -/
def read (body : Body) : Except String (List UInt8) :=
  if maxBodyBytes + 1 ≤ body.bytes.length then
    .ok (body.bytes.take (maxBodyBytes + 1))
  else
    match body.error with
    | some error => .error s!"cannot read HTTP response body: {error}"
    | none => .ok body.bytes

def text (body : Body) : Except String String := do
  let bytes ← body.read
  if maxBodyBytes < bytes.length then
    .error "HTTP response body exceeds 8 MiB limit"
  else
    match String.fromUTF8? ⟨bytes.toArray⟩ with
    | some text => .ok text
    | none => .error "HTTP response body is not UTF-8 text"

end Body

/-- The value of a response; the keys of an object are in order. -/
def Response.value (response : Response) : Except String Value := do
  let headers ← collectHeaders response.headers []
  let body ← response.body.text
  .ok (.object [("body", .string body), ("headers", .object headers),
    ("status", .integer (Int64.ofNat response.status.toNat))])

/-- The value of a header that has been seen with some texts, in order. -/
def gathered : List String → Option Value
  | [] => none
  | [text] => some (.string text)
  | texts => some (.array (texts.map .string))

/-- The values of a header, read as a list. -/
def Value.readList : Value → List Value
  | .array values => values
  | value => [value]

/-- The texts of a name, in the order of their arrival. -/
def textsOf (name : String) (pairs : List (String × String)) : List String :=
  (pairs.filter fun pair => pair.1 == name).map Prod.snd

/-- One more text of a name. -/
theorem get?_addHeader_self {headers : SortedMap Value} {name text : String}
    {texts : List String}
    (seen : SortedMap.get? headers name = gathered texts) :
    SortedMap.get? (addHeader headers name text) name =
      gathered (texts ++ [text]) := by
  match texts with
  | [] => simp [addHeader, seen, gathered]
  | [first] => simp [addHeader, seen, gathered]
  | first :: second :: rest => simp [addHeader, seen, gathered]

theorem get?_addHeader_of_ne {headers : SortedMap Value}
    {name other text : String} (different : other ≠ name) :
    SortedMap.get? (addHeader headers name text) other =
      SortedMap.get? headers other := by
  unfold addHeader
  split <;> rw [SortedMap.get?_insert, if_neg different]

theorem addHeader_ordered {headers : SortedMap Value} {name text : String}
    (ordered : SortedMap.Ordered headers) :
    SortedMap.Ordered (addHeader headers name text) := by
  unfold addHeader
  split <;> exact SortedMap.insert_ordered ordered

/-- The map agrees with the texts that have been seen of every name. -/
def Collected (headers : SortedMap Value)
    (seen : List (String × String)) : Prop :=
  ∀ name, SortedMap.get? headers name = gathered (textsOf name seen)

theorem textsOf_append_self (seen : List (String × String))
    (name text : String) :
    textsOf name (seen ++ [(name, text)]) = textsOf name seen ++ [text] := by
  simp [textsOf, List.filter_append]

theorem textsOf_append_of_ne (seen : List (String × String))
    {name other : String} (text : String) (different : other ≠ name) :
    textsOf other (seen ++ [(name, text)]) = textsOf other seen := by
  simp [textsOf, List.filter_append, Ne.symm different]

theorem addHeader_collected {headers : SortedMap Value}
    {seen : List (String × String)} (name text : String)
    (collected : Collected headers seen) :
    Collected (addHeader headers name text) (seen ++ [(name, text)]) := by
  intro other
  by_cases same : other = name
  · subst same
    rw [textsOf_append_self]
    exact get?_addHeader_self (collected other)
  · rw [textsOf_append_of_ne seen text same, get?_addHeader_of_ne same]
    exact collected other

/-- What the loop over the headers keeps. -/
theorem collectHeaders_collected {headers : SortedMap Value}
    {seen : List (String × String)} (pairs : List (String × String))
    (ordered : SortedMap.Ordered headers)
    (collected : Collected headers seen) :
    ∃ after, collectHeaders (pairs.map fun pair => (pair.1, some pair.2))
        headers = .ok after ∧
      SortedMap.Ordered after ∧ Collected after (seen ++ pairs) := by
  induction pairs generalizing headers seen with
  | nil => exact ⟨headers, rfl, ordered, by simpa using collected⟩
  | cons pair rest induction =>
      obtain ⟨name, text⟩ := pair
      obtain ⟨after, run, ordered', collected'⟩ :=
        induction (addHeader_ordered ordered)
          (addHeader_collected name text collected)
      exact ⟨after, run, ordered', by simpa using collected'⟩

theorem gathered_eq_none_iff {texts : List String} :
    gathered texts = none ↔ texts = [] := by
  match texts with
  | [] => simp [gathered]
  | [_] => simp [gathered]
  | _ :: _ :: _ => simp [gathered]

theorem readList_of_gathered {texts : List String} {value : Value}
    (found : gathered texts = some value) :
    value.readList = texts.map .string := by
  match texts with
  | [] => cases found
  | [text] =>
      cases found
      rfl
  | _ :: _ :: _ =>
      cases found
      rfl

theorem mem_names_iff {name : String} {pairs : List (String × String)} :
    textsOf name pairs ≠ [] ↔ name ∈ pairs.map Prod.fst := by
  simp [textsOf, List.filter_eq_nil_iff]

/-- Headers that are text are collected without loss.  The names are those
that occur; a name that occurs once has its text, any other name an array; and
the values of a name, read as a list, are its texts in the order of their
arrival. -/
theorem headers_collected (status : UInt16) (pairs : List (String × String))
    (body : Body) :
    let response : Response :=
      ⟨status, pairs.map fun pair => (pair.1, some pair.2), body⟩
    ∃ headers : SortedMap Value,
      collectHeaders response.headers [] = .ok headers ∧
      SortedMap.Ordered headers ∧
      (∀ text, body.text = .ok text → response.value = .ok (.object
        [("body", .string text), ("headers", .object headers),
          ("status", .integer (Int64.ofNat status.toNat))])) ∧
      ∀ name,
        ((SortedMap.get? headers name).isSome ↔
          name ∈ pairs.map Prod.fst) ∧
        (∀ text, textsOf name pairs = [text] →
          SortedMap.get? headers name = some (.string text)) ∧
        (2 ≤ (textsOf name pairs).length →
          SortedMap.get? headers name =
            some (.array ((textsOf name pairs).map .string))) ∧
        ∀ value, SortedMap.get? headers name = some value →
          value.readList = (textsOf name pairs).map .string := by
  intro response
  have nothing : Collected [] [] := fun _ => rfl
  obtain ⟨headers, run, ordered, collected⟩ :=
    collectHeaders_collected pairs List.Pairwise.nil nothing
  rw [List.nil_append] at collected
  refine ⟨headers, run, ordered, ?_, fun name => ⟨?_, ?_, ?_, ?_⟩⟩
  · intro text read
    simp [Response.value, response, run, read, bind, Except.bind]
  · rw [collected, ← mem_names_iff, Option.isSome_iff_ne_none, ne_eq,
      gathered_eq_none_iff]
  · intro text single
    rw [collected, single]
    rfl
  · intro several
    rw [collected]
    match textsOf name pairs, several with
    | _ :: _ :: _, _ => rfl
  · intro value found
    rw [collected] at found
    exact readList_of_gathered found

end NetLang
