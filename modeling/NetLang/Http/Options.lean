import NetLang.Runtime.Host

/-!
# Options of a request

The configuration of a request is an object of the language, which is checked
as a whole before anything is sent.  The HTTP library decides which headers
and which addresses are valid, and it keeps the headers in a map of its own.
What is relied on of its documented behaviour is `LawfulHttpLibrary`.
-/

namespace NetLang

/-- The encoding of values as JSON. -/
inductive Json where
  | null
  | bool (value : Bool)
  | integer (value : Int64)
  | float (value : Binary64)
  | string (value : String)
  | array (values : List Json)
  | object (fields : List (String × Json))
deriving Repr

/-- A parsed address. -/
structure Url where
  text : String
  scheme : String
  host : Option String
deriving DecidableEq, Repr

/-- The HTTP library: what it accepts, and its maps of headers.  Inserting
into a map that is full is a panic. -/
class HttpLibrary where
  HeaderName : Type
  HeaderValue : Type
  HeaderMap : Type
  headerName : String → Option HeaderName
  headerValue : String → Option HeaderValue
  noHeaders : HeaderMap
  insert : HeaderMap → HeaderName → HeaderValue → Option HeaderMap
  header? : HeaderMap → HeaderName → Option HeaderValue
  size : HeaderMap → Nat
  parseUrl : String → Option Url

open HttpLibrary

/-- The letters of ASCII in lower case. -/
def lowercase (name : String) : String :=
  .ofList (name.toList.map Char.toLower)

/-- The number of names for which a map of headers always has room. -/
def maxHeaders : Nat :=
  24576

/-- What the HTTP library documents: names are compared without regard to
case, a value keeps its text, an insertion replaces what the map has of the
same name, and a map with room for one more name is not full. -/
class LawfulHttpLibrary [HttpLibrary] : Prop where
  names : ∀ {first second : String} {name other : HeaderName},
    headerName first = some name → headerName second = some other →
    (name = other ↔ lowercase first = lowercase second)
  values : ∀ {first second : String} {value : HeaderValue},
    headerValue first = some value → headerValue second = some value →
    first = second
  header?_insert : ∀ {before after : HeaderMap} {name : HeaderName}
    {value : HeaderValue}, insert before name value = some after →
    header? after name = some value
  header?_insert_of_ne : ∀ {before after : HeaderMap}
    {name other : HeaderName} {value : HeaderValue},
    insert before name value = some after → other ≠ name →
    header? after other = header? before other
  size_noHeaders : size noHeaders = 0
  size_insert : ∀ {before after : HeaderMap} {name : HeaderName}
    {value : HeaderValue}, insert before name value = some after →
    size after ≤ size before + 1
  room : ∀ {before : HeaderMap} {name : HeaderName} {value : HeaderValue},
    size before < maxHeaders → insert before name value ≠ none

structure Options [HttpLibrary] where
  headers : HeaderMap := noHeaders
  query : List (String × String) := []
  json : Option Json := none
  timeout : UInt64 := 30000
  retries : Nat := 0

/-- Why a configuration gives no options. -/
inductive OptionsError where
  | rejected (message : String)
  | panic
deriving DecidableEq, Repr

/-- A check that rejects what it does not accept. -/
def rejecting {α : Type} : Except String α → Except OptionsError α
  | .ok value => .ok value
  | .error message => .error (.rejected message)

mutual

def jsonValue : Value → Except String Json
  | .null => .ok .null
  | .boolean value => .ok (.bool value)
  | .integer value => .ok (.integer value)
  | .string value => .ok (.string value)
  | .float value =>
      if value.isFinite then .ok (.float value)
      else .error "JSON numbers must be finite"
  | .array values => do .ok (.array (← jsonValues values))
  | .object fields => do .ok (.object (← jsonFields fields))
  | value => .error s!"{value.typeName} cannot be encoded as JSON"

def jsonValues : List Value → Except String (List Json)
  | [] => .ok []
  | value :: rest => do
      let value ← jsonValue value
      let rest ← jsonValues rest
      .ok (value :: rest)

def jsonFields : List (String × Value) → Except String (List (String × Json))
  | [] => .ok []
  | (key, value) :: rest => do
      let value ← jsonValue value
      let rest ← jsonFields rest
      .ok ((key, value) :: rest)

end

section Checks

variable [HttpLibrary]

/-- Insert the headers of an object. -/
def insertHeaders :
    List (String × Value) → HeaderMap → Except OptionsError HeaderMap
  | [], headers => .ok headers
  | (name, value) :: rest, headers =>
      match value with
      | .string text =>
          match headerName name with
          | none => .error (.rejected "invalid HTTP header name")
          | some name =>
              match headerValue text with
              | none => .error (.rejected "invalid HTTP header value")
              | some value =>
                  match insert headers name value with
                  | none => .error .panic
                  | some headers => insertHeaders rest headers
      | _ => .error (.rejected "header values must be strings")

def isQueryValue : Value → Bool
  | .string _ | .integer _ | .float _ | .boolean _ => true
  | _ => false

variable [Formatting]

def queryPairs :
    List (String × Value) → Except String (List (String × String))
  | [] => .ok []
  | (name, value) :: rest =>
      if isQueryValue value then do
        let rest ← queryPairs rest
        .ok ((name, value.display) :: rest)
      else .error "query values must be strings, numbers, or booleans"

namespace Options

def setHeaders (options : Options) : Value → Except OptionsError Options
  | .object headers => do
      let headers ← insertHeaders headers options.headers
      .ok { options with headers := headers }
  | _ => .error (.rejected "headers must be an object")

def setQuery (options : Options) : Value → Except String Options
  | .object query => do
      let query ← queryPairs query
      .ok { options with query := options.query ++ query }
  | _ => .error "query must be an object"

def setJson (options : Options) (value : Value) : Except String Options := do
  let json ← jsonValue value
  .ok { options with json := some json }

def setTimeout (options : Options) : Value → Except String Options
  | .duration milliseconds =>
      if 1 ≤ milliseconds.toNat ∧ milliseconds.toNat ≤ 86400000 then
        .ok { options with timeout := milliseconds }
      else .error "timeout must be a positive duration of at most 24 hours"
  | _ => .error "timeout must be a positive duration of at most 24 hours"

def setRetry (options : Options) : Value → Except String Options
  | .integer count =>
      if 0 ≤ count.toInt ∧ count.toInt ≤ 10 then
        .ok { options with retries := count.toInt.toNat }
      else .error "retry must be an integer from 0 to 10"
  | _ => .error "retry must be an integer from 0 to 10"

/-- One entry of a configuration. -/
def set (options : Options) (key : String) (value : Value) :
    Except OptionsError Options :=
  if key = "headers" then options.setHeaders value
  else if key = "query" then rejecting (options.setQuery value)
  else if key = "json" then rejecting (options.setJson value)
  else if key = "timeout" then rejecting (options.setTimeout value)
  else if key = "retry" then rejecting (options.setRetry value)
  else .error (.rejected s!"unsupported request option '{key}'")

def setAll :
    List (String × Value) → Options → Except OptionsError Options
  | [], options => .ok options
  | (key, value) :: rest, options => do
      let options ← options.set key value
      setAll rest options

def parse : Value → Except OptionsError Options
  | .object fields => setAll fields {}
  | _ => .error (.rejected "request configuration must be an object")

end Options

end Checks

section Headers

variable [HttpLibrary]

/-- The map has the header of a configuration. -/
def Sends (headers : HeaderMap) (entry : String × Value) : Prop :=
  ∃ text name value, entry.2 = .string text ∧ headerName entry.1 = some name ∧
    headerValue text = some value ∧ header? headers name = some value

variable [LawfulHttpLibrary]

/-- Under every name there is the value of a header of that name, if there is
one. -/
theorem insertHeaders_header? {entries : List (String × Value)}
    {before after : HeaderMap}
    (inserted : insertHeaders entries before = .ok after)
    (name : HeaderName) :
    (∃ entry ∈ entries, headerName entry.1 = some name ∧
        Sends after entry) ∨
      (∀ entry ∈ entries, headerName entry.1 ≠ some name) ∧
        header? after name = header? before name := by
  induction entries generalizing before with
  | nil =>
      cases inserted
      exact .inr ⟨by simp, rfl⟩
  | cons head rest induction =>
      obtain ⟨key, value⟩ := head
      cases value with
      | string text =>
          simp only [insertHeaders] at inserted
          split at inserted
          · cases inserted
          · next named known =>
              split at inserted
              · cases inserted
              · next accepted valid =>
                  split at inserted
                  · cases inserted
                  · next middle added =>
                      obtain ⟨entry, member, same, sends⟩ | ⟨missing, kept⟩ :=
                        induction inserted
                      · exact .inl ⟨entry, List.mem_cons_of_mem _ member,
                          same, sends⟩
                      · by_cases same : name = named
                        · subst same
                          refine .inl ⟨(key, .string text),
                            List.mem_cons_self, known, text, name, accepted,
                            rfl, known, valid, ?_⟩
                          rw [kept]
                          exact LawfulHttpLibrary.header?_insert added
                        · refine .inr ⟨?_, ?_⟩
                          · intro entry member
                            rcases List.mem_cons.mp member with rfl | later
                            · rw [known]
                              exact fun other =>
                                same (Option.some.inj other).symm
                            · exact missing entry later
                          · rw [kept]
                            exact LawfulHttpLibrary.header?_insert_of_ne added
                              same
      | _ => cases inserted

omit [LawfulHttpLibrary] in
theorem insertHeaders_parses {entries : List (String × Value)}
    {before after : HeaderMap}
    (inserted : insertHeaders entries before = .ok after) :
    ∀ entry ∈ entries, ∃ text name value, entry.2 = .string text ∧
      headerName entry.1 = some name ∧ headerValue text = some value := by
  induction entries generalizing before with
  | nil => simp
  | cons head rest induction =>
      obtain ⟨key, value⟩ := head
      cases value with
      | string text =>
          simp only [insertHeaders] at inserted
          split at inserted
          · cases inserted
          · next named known =>
              split at inserted
              · cases inserted
              · next accepted valid =>
                  split at inserted
                  · cases inserted
                  · intro entry member
                    rcases List.mem_cons.mp member with rfl | later
                    · exact ⟨text, named, accepted, rfl, known, valid⟩
                    · exact induction inserted entry later
      | _ => cases inserted

/-- A map is not full after as many headers as it has room for. -/
theorem insertHeaders_room {entries : List (String × Value)}
    {before : HeaderMap}
    (room : size before + entries.length ≤ maxHeaders) :
    insertHeaders entries before ≠ .error .panic := by
  induction entries generalizing before with
  | nil => exact nofun
  | cons head rest induction =>
      obtain ⟨key, value⟩ := head
      rw [List.length_cons] at room
      cases value with
      | string text =>
          simp only [insertHeaders]
          split
          · exact nofun
          · split
            · exact nofun
            · split
              · next full =>
                  exact absurd full (LawfulHttpLibrary.room (by omega))
              · next added =>
                  have grown := LawfulHttpLibrary.size_insert added
                  exact induction (by omega)
      | _ => exact nofun

/-- Headers are lost exactly when two of one name differ. -/
theorem insertHeaders_sends_iff {entries : List (String × Value)}
    {before headers : HeaderMap}
    (inserted : insertHeaders entries before = .ok headers) :
    (∀ entry ∈ entries, Sends headers entry) ↔
      ∀ entry ∈ entries, ∀ other ∈ entries,
        lowercase entry.1 = lowercase other.1 → entry.2 = other.2 := by
  constructor
  · intro sends entry member other member' same
    obtain ⟨text, name, value, given, named, parsed, found⟩ :=
      sends entry member
    obtain ⟨text', name', value', given', named', parsed', found'⟩ :=
      sends other member'
    obtain rfl : name = name' :=
      (LawfulHttpLibrary.names named named').mpr same
    rw [found] at found'
    cases found'
    rw [given, given', LawfulHttpLibrary.values parsed parsed']
  · intro agree entry member
    obtain ⟨text, name, value, given, named, parsed⟩ :=
      insertHeaders_parses inserted entry member
    obtain ⟨other, member', same, sends⟩ | ⟨missing, _⟩ :=
      insertHeaders_header? inserted name
    · obtain ⟨text', name', value', given', named', parsed', found⟩ := sends
      rw [same] at named'
      cases named'
      have equal := agree entry member other member'
        ((LawfulHttpLibrary.names named same).mp rfl)
      exact ⟨text', name, value', equal.trans given', named, parsed', found⟩
    · exact absurd named (missing entry member)

end Headers

theorem exists_of_bind_eq_ok {ε α β : Type} {first : Except ε α}
    {rest : α → Except ε β} {result : β}
    (succeeds : (first >>= rest) = .ok result) :
    ∃ value, first = .ok value ∧ rest value = .ok result := by
  cases first with
  | error reason => cases succeeds
  | ok value => exact ⟨value, rfl, succeeds⟩

namespace Options

section Frames

theorem rejecting_ok {α : Type} {checked : Except String α} {value : α}
    (accepted : rejecting checked = .ok value) : checked = .ok value := by
  cases checked with
  | ok other =>
      cases accepted
      rfl
  | error message => cases accepted

variable [HttpLibrary] {options after : Options} {value : Value}

theorem setHeaders_frame
    (parsed : options.setHeaders value = .ok after) :
    after.retries = options.retries := by
  cases value with
  | object headers =>
      obtain ⟨inserted, _, same⟩ := exists_of_bind_eq_ok parsed
      cases same
      rfl
  | _ => cases parsed

theorem setQuery_frame [Formatting]
    (parsed : options.setQuery value = .ok after) :
    after.headers = options.headers ∧ after.retries = options.retries := by
  cases value with
  | object query =>
      obtain ⟨pairs, _, same⟩ := exists_of_bind_eq_ok parsed
      cases same
      exact ⟨rfl, rfl⟩
  | _ => cases parsed

theorem setJson_frame (parsed : options.setJson value = .ok after) :
    after.headers = options.headers ∧ after.retries = options.retries := by
  obtain ⟨json, _, same⟩ := exists_of_bind_eq_ok parsed
  cases same
  exact ⟨rfl, rfl⟩

theorem setTimeout_frame (parsed : options.setTimeout value = .ok after) :
    after.headers = options.headers ∧ after.retries = options.retries := by
  cases value with
  | duration milliseconds =>
      simp only [setTimeout] at parsed
      split at parsed
      · cases parsed
        exact ⟨rfl, rfl⟩
      · cases parsed
  | _ => cases parsed

theorem setRetry_frame (parsed : options.setRetry value = .ok after) :
    after.headers = options.headers ∧ after.retries ≤ 10 ∧
      ∀ count, value = .integer count →
        (after.retries : ℤ) = count.toInt := by
  cases value with
  | integer count =>
      simp only [setRetry] at parsed
      split at parsed
      · next range =>
          cases parsed
          refine ⟨rfl, by simp only; omega, ?_⟩
          intro other same
          cases same
          exact Int.toNat_of_nonneg range.1
      · cases parsed
  | _ => cases parsed

variable [Formatting] {key : String}

/-- An entry sets its own option only. -/
theorem set_frame (parsed : options.set key value = .ok after) :
    (key ≠ "headers" → after.headers = options.headers) ∧
      (key ≠ "retry" → after.retries = options.retries) := by
  unfold set at parsed
  split at parsed
  · next same =>
      exact ⟨fun different => absurd same different,
        fun _ => setHeaders_frame parsed⟩
  · split at parsed
    · obtain ⟨headers, retries⟩ := setQuery_frame (rejecting_ok parsed)
      exact ⟨fun _ => headers, fun _ => retries⟩
    · split at parsed
      · obtain ⟨headers, retries⟩ := setJson_frame (rejecting_ok parsed)
        exact ⟨fun _ => headers, fun _ => retries⟩
      · split at parsed
        · obtain ⟨headers, retries⟩ := setTimeout_frame (rejecting_ok parsed)
          exact ⟨fun _ => headers, fun _ => retries⟩
        · split at parsed
          · next same =>
              exact ⟨fun _ => (setRetry_frame (rejecting_ok parsed)).1,
                fun different => absurd same different⟩
          · cases parsed

theorem set_retries (parsed : options.set key value = .ok after)
    (bounded : options.retries ≤ 10) : after.retries ≤ 10 := by
  by_cases retry : key = "retry"
  · subst retry
    have set : rejecting (options.setRetry value) = .ok after := by
      simpa [Options.set] using parsed
    exact (setRetry_frame (rejecting_ok set)).2.1
  · rw [(set_frame parsed).2 retry]
    exact bounded

end Frames

section Parse

variable [HttpLibrary] [Formatting] {options after : Options}
  {fields : List (String × Value)}

theorem setAll_retries (parsed : setAll fields options = .ok after)
    (bounded : options.retries ≤ 10) : after.retries ≤ 10 := by
  induction fields generalizing options with
  | nil =>
      cases parsed
      exact bounded
  | cons head rest induction =>
      obtain ⟨middle, set, later⟩ := exists_of_bind_eq_ok parsed
      exact induction later (set_retries set bounded)

/-- Options that are not among the entries stay as they were. -/
theorem setAll_frame (parsed : setAll fields options = .ok after) :
    ((∀ entry ∈ fields, entry.1 ≠ "headers") →
        after.headers = options.headers) ∧
      ((∀ entry ∈ fields, entry.1 ≠ "retry") →
        after.retries = options.retries) := by
  induction fields generalizing options with
  | nil =>
      cases parsed
      exact ⟨fun _ => rfl, fun _ => rfl⟩
  | cons head rest induction =>
      obtain ⟨middle, set, later⟩ := exists_of_bind_eq_ok parsed
      obtain ⟨headers, retries⟩ := set_frame set
      obtain ⟨laterHeaders, laterRetries⟩ := induction later
      constructor
      · intro missing
        rw [laterHeaders fun entry member =>
            missing entry (List.mem_cons_of_mem _ member),
          headers (missing head List.mem_cons_self)]
      · intro missing
        rw [laterRetries fun entry member =>
            missing entry (List.mem_cons_of_mem _ member),
          retries (missing head List.mem_cons_self)]

/-- The entry of a key is set between entries of other keys. -/
theorem setAll_at {key : String} {value : Value}
    (ordered : SortedMap.Ordered fields) (member : (key, value) ∈ fields)
    (parsed : setAll fields options = .ok after) :
    ∃ front back before middle, (∀ entry ∈ front, entry.1 ≠ key) ∧
      (∀ entry ∈ back, entry.1 ≠ key) ∧
      setAll front options = .ok before ∧
      before.set key value = .ok middle ∧ setAll back middle = .ok after := by
  induction fields generalizing options with
  | nil => cases member
  | cons head rest induction =>
      obtain ⟨above, later⟩ := List.pairwise_cons.mp ordered
      obtain ⟨next, set, remaining⟩ := exists_of_bind_eq_ok parsed
      rcases List.mem_cons.mp member with rfl | inside
      · refine ⟨[], rest, options, next, by simp, ?_, rfl, set, remaining⟩
        intro entry member
        exact (above entry member).ne'
      · obtain ⟨front, back, before, middle, first, last, starts, sets, ends⟩ :=
          induction later inside remaining
        refine ⟨head :: front, back, before, middle, ?_, last, ?_, sets,
          ends⟩
        · intro entry member
          rcases List.mem_cons.mp member with rfl | inFront
          · exact (above _ inside).ne
          · exact first entry inFront
        · simp only [setAll, set]
          exact starts

omit [HttpLibrary] [Formatting] in
theorem rejecting_ne_panic {α : Type} (checked : Except String α) :
    rejecting checked ≠ .error .panic := by
  cases checked <;> exact nofun

/-- Without a panic of the map of headers there is none. -/
theorem set_regular {key : String} {value : Value}
    (room : ∀ headers, key = "headers" → value = .object headers →
      insertHeaders headers options.headers ≠ .error .panic) :
    options.set key value ≠ .error .panic := by
  unfold set
  split
  · next named =>
      cases value with
      | object headers =>
          intro panics
          refine room headers named rfl ?_
          cases inserted : insertHeaders headers options.headers with
          | error reason =>
              simp only [setHeaders, inserted] at panics
              cases panics
              rfl
          | ok headers =>
              simp only [setHeaders, inserted] at panics
              cases panics
      | _ => exact nofun
  · repeat' split
    · exact rejecting_ne_panic _
    · exact rejecting_ne_panic _
    · exact rejecting_ne_panic _
    · exact rejecting_ne_panic _
    · exact nofun

theorem setAll_regular [LawfulHttpLibrary]
    (ordered : SortedMap.Ordered fields)
    (empty : (∃ entry ∈ fields, entry.1 = "headers") →
      options.headers = noHeaders)
    (room : ∀ headers, ("headers", .object headers) ∈ fields →
      headers.length ≤ maxHeaders) :
    setAll fields options ≠ .error .panic := by
  induction fields generalizing options with
  | nil => exact nofun
  | cons head rest induction =>
      obtain ⟨key, value⟩ := head
      obtain ⟨above, later⟩ := List.pairwise_cons.mp ordered
      have regular : options.set key value ≠ .error .panic := by
        refine set_regular fun headers named given => ?_
        subst named given
        rw [empty ⟨_, List.mem_cons_self, rfl⟩]
        refine insertHeaders_room ?_
        rw [LawfulHttpLibrary.size_noHeaders, Nat.zero_add]
        exact room headers List.mem_cons_self
      simp only [setAll]
      cases set : options.set key value with
      | error reason =>
          intro panics
          cases panics
          exact regular set
      | ok middle =>
          refine induction later ?_ fun headers member =>
            room headers (List.mem_cons_of_mem _ member)
          rintro ⟨entry, member, named⟩
          have before : key ≠ "headers" := named ▸ (above entry member).ne
          rw [(set_frame set).1 before]
          exact empty ⟨entry, List.mem_cons_of_mem _ member, named⟩

/-- A configuration with no more headers than a map has room for is accepted
or rejected. -/
theorem parse_regular [LawfulHttpLibrary] (ordered : SortedMap.Ordered fields)
    (room : ∀ headers, ("headers", .object headers) ∈ fields →
      headers.length ≤ maxHeaders) :
    parse (.object fields) ≠ .error .panic :=
  setAll_regular ordered (fun _ => rfl) room

/-- An accepted configuration asks for at most ten retries. -/
theorem parse_retries {config : Value}
    (parsed : parse config = .ok after) : after.retries ≤ 10 := by
  cases config with
  | object fields => exact setAll_retries parsed (by simp)
  | _ => cases parsed

/-- The number of retries is that of the configuration. -/
theorem parse_retry {count : Int64} (ordered : SortedMap.Ordered fields)
    (parsed : parse (.object fields) = .ok after)
    (member : ("retry", .integer count) ∈ fields) :
    (after.retries : ℤ) = count.toInt := by
  obtain ⟨front, back, before, middle, _, last, _, sets, ends⟩ :=
    setAll_at ordered member parsed
  have set : rejecting (before.setRetry (.integer count)) = .ok middle := by
    simpa [Options.set] using sets
  rw [(setAll_frame ends).2 last]
  exact (setRetry_frame (rejecting_ok set)).2.2 count rfl

/-- The headers of an accepted configuration are inserted into an empty
map. -/
theorem parse_headers {headers : List (String × Value)}
    (ordered : SortedMap.Ordered fields)
    (parsed : parse (.object fields) = .ok after)
    (member : ("headers", .object headers) ∈ fields) :
    insertHeaders headers noHeaders = .ok after.headers := by
  obtain ⟨front, back, before, middle, first, last, starts, sets, ends⟩ :=
    setAll_at ordered member parsed
  have set : before.setHeaders (.object headers) = .ok middle := by
    simpa [Options.set] using sets
  obtain ⟨inserted, same, rfl⟩ : ∃ inserted,
      insertHeaders headers before.headers = .ok inserted ∧
      middle = { before with headers := inserted } := by
    obtain ⟨inserted, same, rest⟩ := exists_of_bind_eq_ok set
    cases rest
    exact ⟨inserted, same, rfl⟩
  rw [(setAll_frame starts).1 first] at same
  rw [(setAll_frame ends).1 last]
  exact same

end Parse

end Options

end NetLang
