import NetLang.Http.Responses

/-!
# Requests and their retries

A request is attempted until its outcome is final, or until the configured
number of retries is used up.  The outcome of every attempt is that of the
network; it may be anything.
-/

namespace NetLang

/-- An error of the transport, without the address. -/
structure TransportError where
  timeout : Bool
  connect : Bool
  text : String
deriving DecidableEq, Repr

/-- What the network answers to one attempt. -/
inductive Attempt where
  | failed (error : TransportError)
  | answered (response : Response)

/-- What is handed to the client for an attempt. -/
structure SentRequest [HttpLibrary] where
  method : HttpMethod
  url : Url
  headers : HttpLibrary.HeaderMap
  query : List (String × String)
  timeout : UInt64
  json : Option Json

def retryStatus (status : UInt16) : Bool :=
  status == 429 || status == 502 || status == 503 || status == 504

section Loop

variable [HttpLibrary]

/-- The requests that were sent, and the result.  There is none after a panic:
if the loop runs out of attempts, or if the map of headers is full. -/
structure Exchange where
  requests : List SentRequest
  result : Option (Except String Value)

namespace Exchange

/-- An exchange that ends without sending anything. -/
def refused (message : String) : Exchange :=
  ⟨[], some (.error message)⟩

def sending (sent : SentRequest) (exchange : Exchange) : Exchange :=
  { exchange with requests := sent :: exchange.requests }

end Exchange

def attemptAll (sent : SentRequest) (retries : Nat)
    (outcomes : Nat → Attempt) : List Nat → Exchange
  | [] => ⟨[], none⟩
  | attempt :: rest =>
      match outcomes attempt with
      | .failed error =>
          if attempt < retries ∧ (error.timeout ∨ error.connect) then
            (attemptAll sent retries outcomes rest).sending sent
          else
            ⟨[sent], some (.error s!"HTTP request failed: {error.text}")⟩
      | .answered response =>
          if attempt < retries ∧ retryStatus response.status then
            (attemptAll sent retries outcomes rest).sending sent
          else ⟨[sent], some response.value⟩

end Loop

/-- The client is built at the first request. -/
structure HttpRuntime where
  client : Bool

section Request

variable [HttpLibrary]

/-- Parse an address, which must be an absolute one. -/
def requestUrl (text : String) : Except String Url :=
  match HttpLibrary.parseUrl text with
  | none => .error "request URL must be an absolute HTTP(S) URL"
  | some url =>
      if (url.scheme = "http" ∨ url.scheme = "https") ∧ url.host ≠ none then
        .ok url
      else .error "request URL must be an absolute HTTP(S) URL"

namespace HttpRuntime

/-- Build the client, unless there is one. -/
def buildClient (runtime : HttpRuntime) (build : Except String Unit) :
    Except String HttpRuntime :=
  if runtime.client then .ok runtime
  else
    match build with
    | .ok () => .ok ⟨true⟩
    | .error error => .error s!"cannot initialize HTTP runtime: {error}"

def sentRequest (method : HttpMethod) (url : Url) (options : Options) :
    SentRequest :=
  ⟨method, url, options.headers, options.query, options.timeout,
    options.json⟩

variable [Formatting]

def request (runtime : HttpRuntime) (build : Except String Unit)
    (outcomes : Nat → Attempt) (method : HttpMethod) (text : String)
    (config : Value) : HttpRuntime × Exchange :=
  match Options.parse config with
  | .error .panic => (runtime, ⟨[], none⟩)
  | .error (.rejected message) => (runtime, .refused message)
  | .ok options =>
      match requestUrl text with
      | .error message => (runtime, .refused message)
      | .ok url =>
          match runtime.buildClient build with
          | .error message => (runtime, .refused message)
          | .ok runtime =>
              (runtime, attemptAll (sentRequest method url options)
                options.retries outcomes (List.range (options.retries + 1)))

end HttpRuntime

end Request

namespace Attempt

/-- The outcomes that are worth another attempt. -/
def retryable : Attempt → Bool
  | .failed error => error.timeout || error.connect
  | .answered response => retryStatus response.status

/-- The result of a request whose last attempt this is. -/
def result : Attempt → Except String Value
  | .failed error => .error s!"HTTP request failed: {error.text}"
  | .answered response => response.value

/-- Worth another attempt are errors of time or connection, and four
statuses. -/
theorem retryable_iff (attempt : Attempt) :
    attempt.retryable = true ↔
      (∃ error, attempt = .failed error ∧
        (error.timeout = true ∨ error.connect = true)) ∨
      ∃ response, attempt = .answered response ∧
        (response.status = 429 ∨ response.status = 502 ∨
          response.status = 503 ∨ response.status = 504) := by
  cases attempt with
  | failed error => simp [retryable]
  | answered response => simp [retryable, retryStatus, or_assoc]

end Attempt

section Loop

variable [HttpLibrary] {sent : SentRequest} {retries : Nat}
  {outcomes : Nat → Attempt}

/-- One turn of the loop. -/
theorem attemptAll_cons (attempt : Nat) (rest : List Nat) :
    attemptAll sent retries outcomes (attempt :: rest) =
      if attempt < retries ∧ (outcomes attempt).retryable = true then
        (attemptAll sent retries outcomes rest).sending sent
      else ⟨[sent], some (outcomes attempt).result⟩ := by
  rw [attemptAll]
  cases outcomes attempt with
  | failed error => simp [Attempt.retryable, Attempt.result]
  | answered response => rfl

/-- The attempt at which the loop stops. -/
def Last (retries : Nat) (outcomes : Nat → Attempt) (attempt : Nat) : Prop :=
  attempt = retries ∨ (outcomes attempt).retryable = false

/-- From any attempt that is not beyond the last one, the loop stops at the
first final outcome. -/
theorem attemptAll_stops (left : Nat) {first : Nat}
    (enough : first + left = retries) :
    ∃ attempt, first ≤ attempt ∧ attempt ≤ retries ∧
      Last retries outcomes attempt ∧
      (∀ earlier, first ≤ earlier → earlier < attempt →
        ¬ Last retries outcomes earlier) ∧
      attemptAll sent retries outcomes (List.range' first (left + 1)) =
        ⟨List.replicate (attempt - first + 1) sent,
          some (outcomes attempt).result⟩ := by
  induction left generalizing first with
  | zero =>
      refine ⟨first, le_rfl, by omega, .inl (by omega), ?_, ?_⟩
      · intro earlier after before
        omega
      · rw [List.range'_succ, attemptAll_cons, if_neg]
        · simp
        · omega
  | succ left induction =>
      rw [List.range'_succ, attemptAll_cons]
      by_cases again : (outcomes first).retryable = true
      · have continues : first < retries ∧
            (outcomes first).retryable = true := ⟨by omega, again⟩
        obtain ⟨attempt, after, inside, last, none, run⟩ :=
          @induction (first + 1) (by omega)
        refine ⟨attempt, by omega, inside, last, ?_, ?_⟩
        · intro earlier from' before
          obtain same | later := Nat.eq_or_lt_of_le from'
          · subst same
            rintro (atEnd | final)
            · omega
            · rw [again] at final
              cases final
          · exact none earlier later before
        · rw [if_pos continues, run]
          have count : attempt - first + 1 =
              attempt - (first + 1) + 1 + 1 := by omega
          rw [count, List.replicate_succ]
          rfl
      · refine ⟨first, le_rfl, by omega, .inr (by simpa using again), ?_, ?_⟩
        · intro earlier after before
          omega
        · rw [if_neg fun both => again both.2]
          simp

/-- The whole loop. -/
theorem attemptAll_spec (sent : SentRequest) (retries : Nat)
    (outcomes : Nat → Attempt) :
    ∃ attempt, IsLeast {i | Last retries outcomes i} attempt ∧
      attemptAll sent retries outcomes (List.range (retries + 1)) =
        ⟨List.replicate (attempt + 1) sent,
          some (outcomes attempt).result⟩ := by
  obtain ⟨attempt, _, _, last, none, run⟩ :=
    @attemptAll_stops _ sent retries outcomes retries 0 (Nat.zero_add retries)
  refine ⟨attempt, ⟨last, ?_⟩, ?_⟩
  · intro other otherLast
    by_contra before
    exact none other (Nat.zero_le _) (not_le.mp before) otherLast
  · rw [List.range_eq_range', run, Nat.sub_zero]

end Loop

section Contract

variable [HttpLibrary] [Formatting]

/-- An accepted request to a valid address, by a client that is built. -/
theorem request_accepted {runtime : HttpRuntime}
    {build : Except String Unit} {outcomes : Nat → Attempt}
    {method : HttpMethod} {text : String} {url : Url} {config : Value}
    {options : Options} (parsed : Options.parse config = .ok options)
    (located : requestUrl text = .ok url)
    (built : runtime.client = true ∨ build = .ok ()) :
    (runtime.request build outcomes method text config).2 =
      attemptAll (HttpRuntime.sentRequest method url options) options.retries
        outcomes (List.range (options.retries + 1)) := by
  have client : ∃ after, runtime.buildClient build = .ok after := by
    unfold HttpRuntime.buildClient
    split
    · exact ⟨_, rfl⟩
    · next missing =>
        obtain ready | rfl := built
        · exact absurd ready missing
        · exact ⟨_, rfl⟩
  obtain ⟨after, client⟩ := client
  simp only [HttpRuntime.request, parsed, located, client]

/-- Every request is answered, unless the map of its headers is full: the loop
never runs out of attempts.  A configuration that is rejected sends nothing.
Any other request, to a valid address and by a client that is built, is sent
until its outcome is final or the retries are used up, and its result is that
of the last outcome alone: its error, or its response.  Worth another attempt
are errors of time or connection and the statuses 429, 502, 503 and 504. -/
theorem request_retries (runtime : HttpRuntime) (build : Except String Unit)
    (outcomes : Nat → Attempt) (method : HttpMethod) (text : String)
    (config : Value) :
    let exchange := (runtime.request build outcomes method text config).2
    (exchange.result = none ↔ Options.parse config = .error .panic) ∧
    (∀ message, Options.parse config = .error (.rejected message) →
      exchange.requests = [] ∧ exchange.result = some (.error message)) ∧
    ∀ options url, Options.parse config = .ok options →
      requestUrl text = .ok url → runtime.client = true ∨ build = .ok () →
      options.retries ≤ 10 ∧
      (∀ fields count, config = .object fields → SortedMap.Ordered fields →
        ("retry", .integer count) ∈ fields →
        (options.retries : ℤ) = count.toInt) ∧
      (∀ i, (outcomes i).retryable = true ↔
        (∃ error, outcomes i = .failed error ∧
          (error.timeout = true ∨ error.connect = true)) ∨
        ∃ response, outcomes i = .answered response ∧
          (response.status = 429 ∨ response.status = 502 ∨
            response.status = 503 ∨ response.status = 504)) ∧
      ∃ k, IsLeast
          {i | i = options.retries ∨ (outcomes i).retryable = false} k ∧
        exchange.requests.length = k + 1 ∧
        (∀ sent ∈ exchange.requests,
          sent = HttpRuntime.sentRequest method url options) ∧
        exchange.result = some (outcomes k).result ∧
        (∀ error, outcomes k = .failed error → exchange.result =
          some (.error s!"HTTP request failed: {error.text}")) ∧
        ∀ response, outcomes k = .answered response →
          (∀ message, collectHeaders response.headers [] = .error message →
            exchange.result = some (.error message)) ∧
          ∀ headers, collectHeaders response.headers [] = .ok headers →
            (∀ message, response.body.text = .error message →
              exchange.result = some (.error message)) ∧
            ∀ body, response.body.text = .ok body →
              exchange.result = some (.ok (.object [("body", .string body),
                ("headers", .object headers), ("status",
                  .integer (Int64.ofNat response.status.toNat))])) := by
  intro exchange
  refine ⟨?_, ?_, ?_⟩
  · unfold exchange HttpRuntime.request
    split
    · next panics => simp [panics]
    · next message rejected => simp [rejected, Exchange.refused]
    · next options accepted =>
        rw [accepted]
        split
        · simp [Exchange.refused]
        · next url _ =>
            split
            · simp [Exchange.refused]
            · obtain ⟨k, _, run⟩ := attemptAll_spec
                (HttpRuntime.sentRequest method url options) options.retries
                outcomes
              simp [run]
  · intro message rejected
    simp [exchange, HttpRuntime.request, rejected, Exchange.refused]
  · intro options url parsed located built
    have whole : (runtime.request build outcomes method text config).2 = _ :=
      request_accepted parsed located built
    obtain ⟨k, least, run⟩ := attemptAll_spec
      (HttpRuntime.sentRequest method url options) options.retries outcomes
    have result : exchange.result = some (outcomes k).result := by
      simp [exchange, whole, run]
    refine ⟨Options.parse_retries parsed, ?_, ?_, k, least, ?_, ?_, result,
      ?_, ?_⟩
    · rintro fields count rfl ordered member
      exact Options.parse_retry ordered parsed member
    · exact fun i => (outcomes i).retryable_iff
    · simp [exchange, whole, run]
    · intro sent member
      simp only [exchange, whole, run] at member
      exact List.eq_of_mem_replicate member
    · intro error failed
      rw [result, failed]
      rfl
    · intro response answered
      rw [result, answered]
      simp only [Attempt.result, Response.value]
      refine ⟨fun message unread => ?_, fun headers read =>
        ⟨fun message unread => ?_, fun body whole => ?_⟩⟩
      · rw [unread]
        rfl
      · rw [read, unread]
        rfl
      · rw [read, whole]
        rfl

/-- A configuration with no more headers than a map has room for is accepted
or rejected.  The headers of an accepted configuration are all sent with every
attempt exactly when headers of one name have one value. -/
theorem request_headers_iff [LawfulHttpLibrary] (runtime : HttpRuntime)
    (build : Except String Unit) (outcomes : Nat → Attempt)
    (method : HttpMethod) (text : String) (url : Url)
    (fields headers : List (String × Value))
    (ordered : SortedMap.Ordered fields)
    (member : ("headers", .object headers) ∈ fields)
    (located : requestUrl text = .ok url)
    (built : runtime.client = true ∨ build = .ok ()) :
    (headers.length ≤ maxHeaders →
      Options.parse (.object fields) ≠ .error .panic) ∧
    ∀ options, Options.parse (.object fields) = .ok options →
      ((∀ sent ∈ (runtime.request build outcomes method text
          (.object fields)).2.requests,
        ∀ entry ∈ headers, Sends sent.headers entry) ↔
      ∀ entry ∈ headers, ∀ other ∈ headers,
        lowercase entry.1 = lowercase other.1 → entry.2 = other.2) := by
  refine ⟨fun room => Options.parse_regular ordered ?_, ?_⟩
  · intro others member'
    have same := SortedMap.Ordered.unique ordered member' member
    cases same
    exact room
  · intro options parsed
    have inserted := Options.parse_headers ordered parsed member
    rw [← insertHeaders_sends_iff inserted,
      request_accepted parsed located built]
    obtain ⟨k, _, run⟩ := attemptAll_spec
      (HttpRuntime.sentRequest method url options) options.retries outcomes
    rw [run]
    constructor
    · intro sent
      exact sent _ (List.mem_replicate.mpr ⟨Nat.succ_ne_zero k, rfl⟩)
    · intro kept sent among
      rw [List.eq_of_mem_replicate among]
      exact kept

end Contract

section Example

/-- A library that takes names of letters, digits and dashes, and knows one
address. -/
@[reducible] def plainLibrary : HttpLibrary where
  HeaderName := String
  HeaderValue := String
  HeaderMap := NameMap String
  headerName name :=
    if !name.isEmpty && name.toList.all (fun letter =>
      letter.isAlphanum || letter == '-') then some (lowercase name)
    else none
  headerValue text := some text
  noHeaders := []
  insert headers name value :=
    if headers.length < maxHeaders then some (headers.insert name value)
    else none
  header? headers name := NameMap.get? headers name
  size headers := headers.length
  parseUrl text :=
    if text = "http://localhost/" then some ⟨text, "http", some "localhost"⟩
    else none

theorem plainLibrary_lawful : @LawfulHttpLibrary plainLibrary := by
  let _library := plainLibrary
  constructor
  · intro first second name other parsed parsed'
    obtain ⟨_, same⟩ := Option.ite_none_right_eq_some.mp parsed
    obtain ⟨_, same'⟩ := Option.ite_none_right_eq_some.mp parsed'
    rw [← Option.some.inj same, ← Option.some.inj same']
  · intro first second value parsed parsed'
    exact Option.some.inj (parsed.trans parsed'.symm)
  · intro before after name value inserted
    obtain ⟨_, same⟩ := Option.ite_none_right_eq_some.mp inserted
    rw [← Option.some.inj same]
    exact (NameMap.get?_insert _ _ _ _).trans (if_pos rfl)
  · intro before after name other value inserted different
    obtain ⟨_, same⟩ := Option.ite_none_right_eq_some.mp inserted
    rw [← Option.some.inj same]
    exact (NameMap.get?_insert _ _ _ _).trans (if_neg different)
  · rfl
  · intro before after name value inserted
    obtain ⟨_, same⟩ := Option.ite_none_right_eq_some.mp inserted
    rw [← Option.some.inj same]
    exact le_rfl
  · intro before name value room full
    have filled : HttpLibrary.insert before name value = some _ :=
      if_pos room
    rw [full] at filled
    cases filled

@[reducible] def plainTexts : Formatting :=
  ⟨fun _ => "", fun text => text⟩

def responseOf (status : UInt16) : Attempt :=
  .answered ⟨status, [], ⟨[], none⟩⟩

/-- A server that is not available at the first two attempts. -/
def recovering (attempt : Nat) : Attempt :=
  if attempt < 2 then responseOf 503 else responseOf 200

def requestWith (config : List (String × Value)) : @Exchange plainLibrary :=
  let _library := plainLibrary
  let _formatting := plainTexts
  (HttpRuntime.request ⟨true⟩ (.ok ()) recovering .get "http://localhost/"
    (.object config)).2

/-- What is sent under a name with each attempt. -/
def sentUnder (name : String) (exchange : @Exchange plainLibrary) :
    List (Option String) :=
  let _library := plainLibrary
  exchange.requests.map fun sent =>
    NameMap.get? sent.headers (lowercase name)

/-- Of two headers whose names differ in case only, one is lost. -/
theorem clashing_header_lost :
    let _library := plainLibrary
    ∃ sent ∈ (requestWith [("headers", .object
        [("X-Token", .string "a"), ("x-token", .string "b")])]).requests,
      ¬ Sends sent.headers ("X-Token", .string "a") := by
  intro _library
  have run : sentUnder "X-Token" (requestWith [("headers", .object
      [("X-Token", .string "a"), ("x-token", .string "b")])]) =
        [some "b"] := by
    decide +kernel
  obtain ⟨sent, only, kept⟩ := List.map_eq_singleton_iff.mp run
  refine ⟨sent, by simp [only], ?_⟩
  rintro ⟨text, name, value, same, named, parsed, found⟩
  cases same
  have lowered : lowercase "X-Token" = name :=
    Option.some.inj (Option.ite_none_right_eq_some.mp named).2
  have plain : "a" = value := Option.some.inj parsed
  rw [← lowered, ← plain] at found
  exact absurd (kept.symm.trans found) (by decide)

/-- Three headers, two of which have one name and one value, and a retry: all
are sent with each attempt. -/
theorem request_headers_iff_repeated :
    let _library := plainLibrary
    let headers := [("Accept", Value.string "text/html"),
      ("X-Token", .string "a"), ("x-token", .string "a")]
    (requestWith [("headers", .object headers),
        ("retry", .integer 3)]).requests.length = 3 ∧
      ∀ sent ∈ (requestWith [("headers", .object headers),
          ("retry", .integer 3)]).requests,
        ∀ entry ∈ headers, Sends sent.headers entry := by
  intro _library headers
  let _formatting := plainTexts
  let _lawful := plainLibrary_lawful
  let fields := [("headers", Value.object headers), ("retry", .integer 3)]
  have accepted : (Options.parse (.object fields)).isOk = true := by
    decide +kernel
  have located : requestUrl "http://localhost/" =
      .ok ⟨"http://localhost/", "http", some "localhost"⟩ := by
    decide +kernel
  have ordered : SortedMap.Ordered fields := by
    unfold SortedMap.Ordered
    decide +kernel
  cases parsed : Options.parse (.object fields) with
  | error reason =>
      rw [parsed] at accepted
      cases accepted
  | ok options =>
      refine ⟨by decide +kernel, ?_⟩
      refine ((request_headers_iff ⟨true⟩ (.ok ()) recovering .get
        "http://localhost/" ⟨"http://localhost/", "http", some "localhost"⟩
        fields headers ordered List.mem_cons_self located (.inl rfl)).2
        options parsed).mpr ?_
      have apart : lowercase "Accept" ≠ lowercase "X-Token" ∧
          lowercase "Accept" ≠ lowercase "x-token" := by
        decide +kernel
      intro entry member other member' same
      simp only [headers, List.mem_cons, List.not_mem_nil, or_false]
        at member member'
      rcases member with rfl | rfl | rfl <;>
        rcases member' with rfl | rfl | rfl
      · rfl
      · exact absurd same apart.1
      · exact absurd same apart.2
      · exact absurd same.symm apart.1
      · rfl
      · rfl
      · exact absurd same.symm apart.2
      · rfl
      · rfl

/-- A request that is answered at the third attempt. -/
theorem request_retries_recovering :
    let _library := plainLibrary
    let exchange := requestWith [("retry", .integer 3)]
    exchange.requests.length = 3 ∧
      exchange.result = some (.ok (.object [("body", .string ""),
        ("headers", .object []), ("status", .integer 200)])) := by
  intro _library exchange
  let _formatting := plainTexts
  let fields := [("retry", Value.integer 3)]
  have accepted : (Options.parse (.object fields)).isOk = true := by
    decide +kernel
  have located : requestUrl "http://localhost/" =
      .ok ⟨"http://localhost/", "http", some "localhost"⟩ := by
    decide +kernel
  cases parsed : Options.parse (.object fields) with
  | error reason =>
      rw [parsed] at accepted
      cases accepted
  | ok options =>
      obtain ⟨_, _, spec⟩ := request_retries ⟨true⟩ (.ok ()) recovering .get
        "http://localhost/" (.object fields)
      obtain ⟨_, count, retryable, k, least, sent, _, _, _, answered⟩ :=
        spec options _ parsed located (.inl rfl)
      have retries : (options.retries : ℤ) = 3 :=
        count fields 3 rfl (List.pairwise_singleton _ _) List.mem_cons_self
      have final : (recovering 2).retryable = false := by decide
      have again : ∀ i < 2, (recovering i).retryable = true := by decide
      have bound : k ≤ 2 := least.2 (.inr final)
      have same : k = 2 := by
        by_contra different
        have before : k < 2 := by omega
        rcases least.1 with last | done
        · omega
        · rw [again k before] at done
          cases done
      subst same
      exact ⟨sent, ((answered _ rfl).2 [] rfl).2 "" (by rfl)⟩

end Example

end NetLang
