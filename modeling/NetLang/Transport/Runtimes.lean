import NetLang.Transport.Sockets

/-!
# Runtimes that share the counter of ids

Any number of runtimes, each forked from another one, run their operations in
any interleaving.  Between the preparation of a socket and its insertion other
runtimes may act.  The operations that have ended are recorded, last first.
-/

namespace NetLang

/-- An operation that has ended; the ids of its runtime's table before it
began and after it ended. -/
structure HostEvent where
  runtime : Nat
  operation : Operation
  result : Except String Value
  before : List UInt64
  after : List UInt64

/-- An operation about to insert its socket. -/
structure Pending where
  operation : Operation
  opening : Opening
  before : List UInt64

/-- A runtime runs one operation at a time. -/
structure StandardRuntime where
  sockets : Sockets
  pending : Option Pending

structure Runtimes where
  nextId : UInt64
  members : List StandardRuntime
  events : List HostEvent

/-- What happens next. -/
inductive Choice where
  | fork (runtime : Nat)
  | start (runtime : Nat) (operation : Operation)
  | finish (runtime : Nat)

namespace Runtimes

def initial : Runtimes :=
  ⟨1, [⟨[], none⟩], []⟩

def fork (system : Runtimes) (runtime : Nat) : Runtimes :=
  match system.members[runtime]? with
  | none => system
  | some _ => { system with members := system.members ++ [⟨[], none⟩] }

/-- An idle runtime starts an operation. -/
def start (system : Runtimes) (runtime : Nat) (operation : Operation) :
    Runtimes :=
  match system.members[runtime]? with
  | some ⟨sockets, none⟩ =>
      match sockets.perform operation with
      | (after, .finished result) =>
          { system with
            members := system.members.set runtime ⟨after, none⟩
            events := ⟨runtime, operation, result, sockets.keys, after.keys⟩ ::
              system.events }
      | (after, .inserting opening) =>
          { system with
            members := system.members.set runtime
              ⟨after, some ⟨operation, opening, sockets.keys⟩⟩ }
  | _ => system

/-- A runtime inserts the socket it has prepared. -/
def finish (system : Runtimes) (runtime : Nat) : Runtimes :=
  match system.members[runtime]? with
  | some ⟨sockets, some ⟨operation, opening, before⟩⟩ =>
      match sockets.insertNew system.nextId opening with
      | (after, nextId, result) =>
          ⟨nextId, system.members.set runtime ⟨after, none⟩,
            ⟨runtime, operation, result, before, after.keys⟩ ::
              system.events⟩
  | _ => system

def step (system : Runtimes) : Choice → Runtimes
  | .fork runtime => system.fork runtime
  | .start runtime operation => system.start runtime operation
  | .finish runtime => system.finish runtime

def run (system : Runtimes) (choices : List Choice) : Runtimes :=
  choices.foldl step system

end Runtimes

/-- The ids in a value that an operation returns. -/
def Value.handles : Value → List UInt64
  | .connection id => [id]
  | .object fields => fields.filterMap fun field =>
      match field.2 with
      | .connection id => some id
      | _ => none
  | _ => []

/-- The ids an operation has returned. -/
def HostEvent.returned (event : HostEvent) : List UInt64 :=
  match event.result with
  | .ok value => value.handles
  | .error _ => []

/-- The operation has closed a handle. -/
def HostEvent.Closes (event : HostEvent) (id : UInt64) : Prop :=
  (∃ value, event.result = .ok value) ∧
    event.operation = .close (.connection id)

def HostEvent.Failed (event : HostEvent) : Prop :=
  ∃ message, event.result = .error message

/-- The runtime itself has created the handle and not closed it since. -/
def Owns : List HostEvent → Nat → UInt64 → Prop
  | [], _, _ => False
  | event :: earlier, runtime, id =>
      event.runtime = runtime ∧ id ∈ event.returned ∨
        Owns earlier runtime id ∧
          ¬ (event.runtime = runtime ∧ event.Closes id)

section Tables

variable {sockets : Sockets} {id other : UInt64} {socket : Socket}

theorem Sockets.get?_isSome :
    (sockets.get? id).isSome ↔ id ∈ sockets.keys := by
  unfold Sockets.get? Sockets.keys
  induction sockets with
  | nil => simp
  | cons entry rest induction =>
      rw [List.lookup_cons, List.map_cons, List.mem_cons]
      by_cases same : id = entry.1
      · simp [same]
      · have different : (id == entry.1) = false := by simpa using same
        simp [different, same, induction]

theorem Sockets.mem_keys_remove :
    other ∈ (sockets.remove id).keys ↔ other ∈ sockets.keys ∧ other ≠ id := by
  simp only [Sockets.remove, Sockets.keys, List.mem_map, List.mem_filter,
    bne_iff_ne]
  constructor
  · rintro ⟨entry, ⟨member, different⟩, rfl⟩
    exact ⟨⟨entry, member, rfl⟩, different⟩
  · rintro ⟨⟨entry, member, rfl⟩, different⟩
    exact ⟨entry, ⟨member, different⟩, rfl⟩

theorem Sockets.keys_update :
    (sockets.update id socket).keys = sockets.keys := by
  simp only [Sockets.update, Sockets.keys, List.map_map]
  apply List.map_congr_left
  intro entry _
  simp only [Function.comp_apply]
  split
  · next same => exact same.symm
  · rfl

theorem Sockets.remove_fresh (fresh : id ∉ sockets.keys) :
    sockets.remove id = sockets := by
  unfold Sockets.remove
  rw [List.filter_eq_self]
  intro entry member
  rw [bne_iff_ne]
  rintro rfl
  exact fresh (List.mem_map.mpr ⟨entry, member, rfl⟩)

theorem Sockets.socket_ok {value : Value} {found : UInt64 × Socket}
    (ok : sockets.socket value = .ok found) :
    value = .connection found.1 ∧ found.1 ∈ sockets.keys := by
  cases value with
  | connection id =>
      simp only [Sockets.socket] at ok
      cases held : sockets.get? id with
      | none =>
          rw [held] at ok
          cases ok
      | some socket =>
          rw [held] at ok
          cases ok
          exact ⟨rfl, Sockets.get?_isSome.mp (by rw [held]; rfl)⟩
  | _ => cases ok

theorem Sockets.capacity_of_ok
    (ok : sockets.ensureCapacity = .ok ()) :
    sockets.length < Sockets.capacity := by
  unfold Sockets.ensureCapacity at ok
  split at ok
  · cases ok
  · omega

end Tables

section Operations

/-- The result holds no handle. -/
def Plain (result : Except String Value) : Prop :=
  ∀ value, result = .ok value → value.handles = []

theorem plain_error {message : String} : Plain (.error message) :=
  fun _ same => by cases same

theorem plain_ok {value : Value} (none : value.handles = []) :
    Plain (.ok value) := by
  intro other same
  cases same
  exact none

theorem Plain.bind {α : Type} {first : Except String α}
    {next : α → Except String Value} (plain : ∀ a, Plain (next a)) :
    Plain (first >>= next) := by
  cases first with
  | ok a => exact plain a
  | error message => exact plain_error

variable {sockets : Sockets}

theorem plain_localAddress {connection : Value} {address : Outcomes String} :
    Plain (sockets.localAddress connection address) :=
  .bind fun _ => .bind fun _ => plain_ok rfl

theorem plain_send {connection data : Value} {destination : Option String}
    {sent : Outcomes Nat} :
    Plain (sockets.send connection data destination sent) := by
  apply Plain.bind
  rintro ⟨id, socket⟩
  split
  · exact plain_error
  · apply Plain.bind
    intro bytes
    split
    · exact plain_error
    · exact plain_error
    · apply Plain.bind
      intro count
      split
      · exact plain_error
      · exact plain_ok rfl
    · exact .bind fun _ => plain_ok rfl
    · apply Plain.bind
      intro count
      split
      · exact plain_error
      · exact plain_ok rfl

theorem plain_receive {connection : Value}
    {received : Outcomes (List UInt8 × String)} :
    Plain (sockets.receive connection received) := by
  apply Plain.bind
  rintro ⟨id, socket⟩
  split
  · exact plain_error
  · exact .bind fun _ => plain_ok rfl
  · apply Plain.bind
    intro packet
    split
    · exact plain_ok rfl
    · exact plain_ok rfl
  · exact .bind fun _ => plain_ok rfl

theorem plain_setTimeout {connection : Value} {milliseconds : UInt64}
    {read write : Outcomes Unit} :
    Plain (sockets.setTimeout connection milliseconds read write).2 := by
  unfold Sockets.setTimeout
  split
  · split
    · exact plain_error
    · exact plain_ok rfl
    · exact .bind fun _ => plain_ok rfl
  · exact plain_error

theorem setTimeout_keys {connection : Value} {milliseconds : UInt64}
    {read write : Outcomes Unit} :
    (sockets.setTimeout connection milliseconds read write).1.keys =
      sockets.keys := by
  unfold Sockets.setTimeout
  split
  · split
    · rfl
    · exact Sockets.keys_update
    · rfl
  · rfl

/-- Only a runtime with room opens a socket. -/
theorem room_of_bind {next : Unit → Except String Opening}
    {opening : Opening}
    (ok : (sockets.ensureCapacity >>= next) = .ok opening) :
    sockets.length < Sockets.capacity := by
  cases checked : sockets.ensureCapacity with
  | ok done => exact Sockets.capacity_of_ok checked
  | error message =>
      rw [checked] at ok
      cases ok

theorem room_of_connect {transport : Transport} {protocol : Option String}
    {addresses : Outcomes (List Endpoint)} {opening : Opening}
    (ok : sockets.connect transport protocol addresses = .ok opening) :
    sockets.length < Sockets.capacity := by
  unfold Sockets.connect at ok
  split at ok
  · cases ok
  · exact room_of_bind ok

/-- What an operation does before it draws an id: it prepares a socket,
closes a handle, or leaves the ids of the table alone. -/
inductive Performed (sockets : Sockets) (operation : Operation) :
    Sockets × Sockets.Progress → Prop where
  | inserting {opening : Opening} :
      sockets.length < Sockets.capacity →
      (∀ id, operation ≠ .close (.connection id)) →
      Performed sockets operation (sockets, .inserting opening)
  | closed {id : UInt64} : operation = .close (.connection id) →
      id ∈ sockets.keys →
      Performed sockets operation (sockets.remove id, .finished (.ok .null))
  | finished {after : Sockets} {result : Except String Value} :
      after.keys = sockets.keys → Plain result →
      (∀ value, result = .ok value →
        ∀ id, operation ≠ .close (.connection id)) →
      Performed sockets operation (after, .finished result)

theorem performed_opening {operation : Operation}
    {opening : Except String Opening}
    (room : ∀ made, opening = .ok made → sockets.length < Sockets.capacity)
    (different : ∀ id, operation ≠ .close (.connection id)) :
    Performed sockets operation (sockets, .ofOpening opening) := by
  cases opening with
  | ok made => exact .inserting (room made rfl) different
  | error message =>
      exact .finished rfl plain_error fun _ same => by cases same

theorem performed (sockets : Sockets) (operation : Operation) :
    Performed sockets operation (sockets.perform operation) := by
  cases operation with
  | listenTcp bound nonblocking =>
      exact performed_opening (fun _ => room_of_bind) fun _ same => by
        cases same
  | accept listener attempts blocking readTimeout writeTimeout =>
      exact performed_opening (fun _ => room_of_bind) fun _ same => by
        cases same
  | bindUdp bound readTimeout writeTimeout =>
      exact performed_opening (fun _ => room_of_bind) fun _ same => by
        cases same
  | connect transport protocol addresses =>
      exact performed_opening (fun _ => room_of_connect) fun _ same => by
        cases same
  | localAddress connection address =>
      exact .finished rfl plain_localAddress fun _ _ _ same => by cases same
  | setTimeout connection milliseconds read write =>
      exact .finished setTimeout_keys plain_setTimeout fun _ _ _ same => by
        cases same
  | send connection data destination sent =>
      exact .finished rfl plain_send fun _ _ _ same => by cases same
  | receive connection received =>
      exact .finished rfl plain_receive fun _ _ _ same => by cases same
  | close connection =>
      cases connection with
      | connection id =>
          simp only [Sockets.perform, Sockets.close]
          by_cases held : (sockets.get? id).isSome = true
          · rw [if_pos held]
            exact .closed rfl (Sockets.get?_isSome.mp held)
          · rw [if_neg held]
            exact .finished rfl plain_error fun _ same => by cases same
      | _ => exact .finished rfl plain_error fun _ same => by cases same

end Operations

section Ownership

variable {events : List HostEvent} {runtime other : Nat} {id : UInt64}

theorem Owns.returned (owns : Owns events runtime id) :
    ∃ event ∈ events, event.runtime = runtime ∧ id ∈ event.returned := by
  induction events with
  | nil => exact owns.elim
  | cons event earlier induction =>
      obtain ⟨same, member⟩ | ⟨before, _⟩ := owns
      · exact ⟨event, List.mem_cons_self, same, member⟩
      · obtain ⟨found, member, both⟩ := induction before
        exact ⟨found, List.mem_cons_of_mem _ member, both⟩

/-- An id is returned only once, so it is owned by one runtime only. -/
theorem Owns.unique (distinct : (events.flatMap HostEvent.returned).Nodup)
    (owns : Owns events runtime id) (owns' : Owns events other id) :
    runtime = other := by
  induction events with
  | nil => exact owns.elim
  | cons event earlier induction =>
      rw [List.flatMap_cons, List.nodup_append] at distinct
      obtain ⟨_, rest, apart⟩ := distinct
      have separate : ∀ {r}, id ∈ event.returned → ¬ Owns earlier r id := by
        intro r now before
        obtain ⟨found, member, _, returned⟩ := before.returned
        exact apart id now id
          (List.mem_flatMap.mpr ⟨found, member, returned⟩) rfl
      obtain ⟨same, now⟩ | ⟨before, _⟩ := owns
      · obtain ⟨same', _⟩ | ⟨before', _⟩ := owns'
        · exact same.symm.trans same'
        · exact absurd before' (separate now)
      · obtain ⟨_, now'⟩ | ⟨before', _⟩ := owns'
        · exact absurd before (separate now')
        · exact induction rest before before'

end Ownership

/-- What holds between the tables, the counter and the events. -/
structure Runtimes.Coherent (system : Runtimes) : Prop where
  fresh : ∀ event ∈ system.events, ∀ id ∈ event.returned,
    id.toNat < system.nextId.toNat
  distinct : (system.events.flatMap HostEvent.returned).Nodup
  owned : ∀ {runtime entry}, system.members[runtime]? = some entry →
    ∀ id, id ∈ entry.sockets.keys ↔ Owns system.events runtime id
  known : ∀ {runtime id}, Owns system.events runtime id →
    runtime < system.members.length
  nodup : ∀ entry ∈ system.members, entry.sockets.keys.Nodup
  capacity : ∀ entry ∈ system.members,
    entry.sockets.length ≤ Sockets.capacity
  failures : ∀ event ∈ system.events, event.Failed →
    event.after = event.before
  pending : ∀ entry ∈ system.members, ∀ pending,
    entry.pending = some pending →
      pending.before = entry.sockets.keys ∧
      entry.sockets.length < Sockets.capacity ∧
      ∀ id, pending.operation ≠ .close (.connection id)

namespace Runtimes

theorem coherent_initial : initial.Coherent where
  fresh := by simp [initial]
  distinct := by simp [initial]
  owned := by
    intro runtime entry found id
    obtain ⟨_, rfl⟩ : runtime = 0 ∧ entry = ⟨[], none⟩ := by
      cases runtime with
      | zero =>
          cases found
          exact ⟨rfl, rfl⟩
      | succ n => simp [initial] at found
    simp [Sockets.keys, initial, Owns]
  known := fun owns => owns.elim
  nodup := by simp [initial, Sockets.keys]
  capacity := by simp [initial, Sockets.capacity]
  failures := by simp [initial]
  pending := by simp [initial]

variable {system : Runtimes} {runtime : Nat}

theorem Coherent.fork (coherent : system.Coherent) :
    (system.fork runtime).Coherent := by
  unfold Runtimes.fork
  split
  · exact coherent
  · have new : ∀ {entry}, entry ∈ system.members ++ [⟨[], none⟩] →
        entry ∈ system.members ∨ entry = ⟨[], none⟩ := by
      intro entry member
      simpa using member
    refine { coherent with
      owned := ?_
      known := ?_
      nodup := ?_
      capacity := ?_
      pending := ?_ }
    · intro other entry found id
      rcases Nat.lt_or_ge other system.members.length with old | last
      · rw [List.getElem?_append_left old] at found
        exact coherent.owned found id
      · have inside := (List.getElem?_eq_some_iff.mp found).1
        have same : other = system.members.length := by
          simp at inside
          omega
        have last : entry = ⟨[], none⟩ := by
          rw [same] at found
          simpa using found.symm
        subst last
        constructor
        · intro member
          cases member
        · intro owns
          have bound := coherent.known owns
          omega
    · intro other id owns
      have bound := coherent.known owns
      simp
      omega
    · intro entry member
      obtain old | rfl := new member
      · exact coherent.nodup entry old
      · exact List.nodup_nil
    · intro entry member
      obtain old | rfl := new member
      · exact coherent.capacity entry old
      · exact Nat.zero_le _
    · intro entry member pending held
      obtain old | rfl := new member
      · exact coherent.pending entry old pending held
      · cases held

/-- A runtime ends an operation. -/
theorem Coherent.record (coherent : system.Coherent) {sockets after : Sockets}
    {waiting : Option Pending} {nextId : UInt64} {event : HostEvent}
    (found : system.members[runtime]? = some ⟨sockets, waiting⟩)
    (own : event.runtime = runtime)
    (grows : system.nextId.toNat ≤ nextId.toNat)
    (fresh : ∀ id ∈ event.returned,
      system.nextId.toNat ≤ id.toNat ∧ id.toNat < nextId.toNat)
    (distinct : event.returned.Nodup)
    (keys : ∀ id, id ∈ after.keys ↔ id ∈ event.returned ∨
      id ∈ sockets.keys ∧ ¬ event.Closes id)
    (nodup : after.keys.Nodup) (room : after.length ≤ Sockets.capacity)
    (failed : event.Failed → event.after = event.before) :
    Coherent ⟨nextId, system.members.set runtime ⟨after, none⟩,
      event :: system.events⟩ := by
  have inside := (List.getElem?_eq_some_iff.mp found).1
  have members : ∀ {entry}, entry ∈ system.members.set runtime ⟨after, none⟩ →
      entry ∈ system.members ∨ entry = ⟨after, none⟩ :=
    fun member => List.mem_or_eq_of_mem_set member
  refine ⟨?_, ?_, ?_, ?_, ?_, ?_, ?_, ?_⟩
  · intro other member id returned
    rcases List.mem_cons.mp member with rfl | old
    · exact (fresh id returned).2
    · exact Nat.lt_of_lt_of_le (coherent.fresh other old id returned) grows
  · rw [List.flatMap_cons, List.nodup_append]
    refine ⟨distinct, coherent.distinct, ?_⟩
    rintro id now _ before rfl
    obtain ⟨other, old, returned⟩ := List.mem_flatMap.mp before
    have below := coherent.fresh other old id returned
    have above := (fresh id now).1
    omega
  · intro other entry held id
    rw [List.getElem?_set] at held
    by_cases same : runtime = other
    · subst same
      rw [if_pos rfl, if_pos inside] at held
      cases held
      have owned := coherent.owned found id
      simp only [Owns, own, true_and, keys id, ← owned]
    · rw [if_neg same] at held
      have owned := coherent.owned held id
      simp only [Owns, own, same, false_and, false_or, not_false_iff,
        and_true, owned]
  · intro other id owns
    rw [List.length_set]
    obtain ⟨same, _⟩ | ⟨before, _⟩ := owns
    · rw [← same, own]
      exact inside
    · exact coherent.known before
  · intro entry member
    obtain old | rfl := members member
    · exact coherent.nodup entry old
    · exact nodup
  · intro entry member
    obtain old | rfl := members member
    · exact coherent.capacity entry old
    · exact room
  · intro other member fails
    rcases List.mem_cons.mp member with rfl | old
    · exact failed fails
    · exact coherent.failures other old fails
  · intro entry member pending held
    obtain old | rfl := members member
    · exact coherent.pending entry old pending held
    · cases held

theorem Coherent.start (coherent : system.Coherent) (operation : Operation) :
    (system.start runtime operation).Coherent := by
  unfold Runtimes.start
  split
  · next sockets found =>
      have member := List.mem_of_getElem? found
      have distinct := coherent.nodup _ member
      have room := coherent.capacity _ member
      have cases := performed sockets operation
      revert cases
      cases sockets.perform operation with
      | mk after progress =>
      intro cases
      cases cases with
      | @inserting opening space different =>
          have unchanged : ∀ {entry : StandardRuntime},
              entry ∈ system.members.set runtime
                ⟨sockets, some ⟨operation, opening, sockets.keys⟩⟩ →
              entry ∈ system.members ∨
                entry = ⟨sockets, some ⟨operation, opening, sockets.keys⟩⟩ :=
            fun member => List.mem_or_eq_of_mem_set member
          refine { coherent with
            owned := ?_
            known := ?_
            nodup := ?_
            capacity := ?_
            pending := ?_ }
          · intro other entry held id
            rw [List.getElem?_set] at held
            split at held
            · next same =>
                subst same
                split at held
                · cases held
                  exact coherent.owned found id
                · cases held
            · exact coherent.owned held id
          · intro other id owns
            simpa using coherent.known owns
          · intro entry member
            obtain old | rfl := unchanged member
            · exact coherent.nodup entry old
            · exact distinct
          · intro entry member
            obtain old | rfl := unchanged member
            · exact coherent.capacity entry old
            · exact room
          · intro entry member pending held
            obtain old | rfl := unchanged member
            · exact coherent.pending entry old pending held
            · cases held
              exact ⟨rfl, space, different⟩
      | @closed id same present =>
          refine coherent.record found rfl le_rfl ?_ List.nodup_nil ?_ ?_ ?_ ?_
          · intro other returned
            cases returned
          · intro other
            have closes : HostEvent.Closes
                ⟨runtime, operation, .ok .null, sockets.keys,
                  (sockets.remove id).keys⟩ other ↔ other = id := by
              simp only [HostEvent.Closes, same]
              constructor
              · rintro ⟨_, equal⟩
                cases equal
                rfl
              · rintro rfl
                exact ⟨⟨_, rfl⟩, rfl⟩
            rw [Sockets.mem_keys_remove, closes]
            simp [HostEvent.returned, Value.handles]
          · exact distinct.sublist (List.Sublist.map _ List.filter_sublist)
          · exact (List.length_filter_le _ _).trans room
          · rintro ⟨message, fails⟩
            cases fails
      | @finished after result kept plain different =>
          have nothing : HostEvent.returned
              ⟨runtime, operation, result, sockets.keys, after.keys⟩ = [] := by
            unfold HostEvent.returned
            cases result with
            | ok value => exact plain value rfl
            | error message => rfl
          have sizes : after.length = sockets.length := by
            simpa [Sockets.keys] using congrArg List.length kept
          refine coherent.record found rfl le_rfl ?_ ?_ ?_ ?_ ?_ ?_
          · intro other returned
            rw [nothing] at returned
            cases returned
          · rw [nothing]
            exact List.nodup_nil
          · intro other
            have open' : ¬ HostEvent.Closes
                ⟨runtime, operation, result, sockets.keys, after.keys⟩
                other := by
              rintro ⟨⟨value, same⟩, closing⟩
              exact different value same other closing
            have same : other ∈ after.keys ↔ other ∈ sockets.keys := by
              rw [kept]
            rw [nothing, same]
            simp [open']
          · rw [kept]
            exact distinct
          · rw [sizes]
            exact room
          · exact fun _ => kept
  · exact coherent

theorem Coherent.finish (coherent : system.Coherent) :
    (system.finish runtime).Coherent := by
  unfold Runtimes.finish
  split
  · next sockets operation opening before found =>
      have member := List.mem_of_getElem? found
      have distinct := coherent.nodup _ member
      obtain ⟨same, space, different⟩ := coherent.pending _ member _ rfl
      have same : before = sockets.keys := same
      subst same
      have unused : system.nextId ∉ sockets.keys := by
        intro used
        obtain ⟨event, old, _, returned⟩ :=
          ((coherent.owned found _).mp used).returned
        exact Nat.lt_irrefl _ (coherent.fresh event old _ returned)
      have answered : (opening.answer system.nextId).handles =
          [system.nextId] := by
        unfold Opening.answer
        cases opening.peer <;> rfl
      by_cases more : system.nextId.toNat + 1 < 2 ^ 64
      · simp only [Sockets.insertNew, if_pos more]
        have next : (system.nextId + 1).toNat = system.nextId.toNat + 1 := by
          rw [UInt64.toNat_add]
          exact Nat.mod_eq_of_lt more
        have inserted : (sockets.insert system.nextId opening.socket) =
            (system.nextId, opening.socket) :: sockets := by
          rw [Sockets.insert, Sockets.remove_fresh unused]
        refine coherent.record found rfl (by omega) ?_ ?_ ?_ ?_ ?_ ?_
        · intro id returned
          simp only [HostEvent.returned, answered, List.mem_singleton]
            at returned
          subst returned
          omega
        · simp only [HostEvent.returned, answered]
          exact List.nodup_singleton _
        · intro id
          have open' : ∀ after, ¬ HostEvent.Closes
              ⟨runtime, operation, .ok (opening.answer system.nextId),
                sockets.keys, after⟩ id :=
            fun after closing => different id closing.2
          simp only [HostEvent.returned, answered, open', not_false_iff,
            and_true, inserted]
          simp [Sockets.keys]
        · rw [inserted]
          exact List.nodup_cons.mpr ⟨unused, distinct⟩
        · rw [inserted]
          exact space
        · rintro ⟨message, fails⟩
          cases fails
      · simp only [Sockets.insertNew, if_neg more]
        refine coherent.record found rfl le_rfl ?_ List.nodup_nil ?_ distinct
          space.le ?_
        · intro id returned
          cases returned
        · intro id
          have open' : ¬ HostEvent.Closes
              ⟨runtime, operation, .error "connection IDs exhausted",
                sockets.keys, sockets.keys⟩ id :=
            fun closing => different id closing.2
          simp [HostEvent.returned, open']
        · exact fun _ => rfl
  · exact coherent

theorem Coherent.step (coherent : system.Coherent) (choice : Choice) :
    (system.step choice).Coherent := by
  cases choice with
  | fork runtime => exact coherent.fork
  | start runtime operation => exact coherent.start operation
  | finish runtime => exact coherent.finish

theorem Coherent.run (coherent : system.Coherent) (choices : List Choice) :
    (system.run choices).Coherent := by
  induction choices generalizing system with
  | nil => exact coherent
  | cons choice rest induction => exact induction (coherent.step choice)

/-- Handles are unique, local to a runtime and never revived. -/
theorem run_keeps_handles (choices : List Choice) :
    (∀ entry ∈ (initial.run choices).members,
      entry.sockets.length ≤ Sockets.capacity ∧ entry.sockets.keys.Nodup) ∧
    (∀ {runtime other : Nat} {entry entry' : StandardRuntime},
      (initial.run choices).members[runtime]? = some entry →
      (initial.run choices).members[other]? = some entry' →
      ∀ id ∈ entry.sockets.keys, id ∈ entry'.sockets.keys →
        runtime = other) ∧
    ((initial.run choices).events.flatMap HostEvent.returned).Nodup ∧
    (∀ {runtime : Nat} {entry : StandardRuntime},
      (initial.run choices).members[runtime]? = some entry →
      (∀ id, (entry.sockets.get? id).isSome = true ↔
        Owns (initial.run choices).events runtime id) ∧
      ∀ {value : Value} {found : UInt64 × Socket},
        entry.sockets.socket value = .ok found →
        value = .connection found.1 ∧
          Owns (initial.run choices).events runtime found.1) ∧
    ∀ event ∈ (initial.run choices).events, event.Failed →
      event.after = event.before := by
  have coherent := coherent_initial.run choices
  refine ⟨?_, ?_, coherent.distinct, ?_, coherent.failures⟩
  · exact fun entry member =>
      ⟨coherent.capacity entry member, coherent.nodup entry member⟩
  · intro runtime other entry entry' found found' id inside inside'
    exact ((coherent.owned found id).mp inside).unique coherent.distinct
      ((coherent.owned found' id).mp inside')
  · intro runtime entry found
    refine ⟨fun id => ?_, fun ok => ?_⟩
    · rw [Sockets.get?_isSome]
      exact coherent.owned found id
    · obtain ⟨same, inside⟩ := Sockets.socket_ok ok
      exact ⟨same, (coherent.owned found _).mp inside⟩

end Runtimes

end NetLang
