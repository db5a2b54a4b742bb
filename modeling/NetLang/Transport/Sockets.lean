import NetLang.Runtime.Host

/-!
# Sockets of a runtime

Every runtime has a table of its own sockets.  The replies of the operating
system are part of an operation, so every outcome is possible.  An operation
that creates a socket first prepares it and then draws an id for it from the
counter that all runtimes share.
-/

namespace NetLang

/-- A socket of the operating system. -/
abbrev OsSocket := Nat

inductive Socket where
  | tcp (stream : OsSocket)
  | udp (socket : OsSocket)
  | unconnectedUdp (socket : OsSocket)
  | listener (socket : OsSocket) (timeout : UInt64)
deriving DecidableEq, Repr

def Socket.isListener : Socket → Bool
  | .listener _ _ => true
  | _ => false

def Socket.isUnconnectedUdp : Socket → Bool
  | .unconnectedUdp _ => true
  | _ => false

/-- An ordered map from ids to sockets. -/
abbrev Sockets := List (UInt64 × Socket)

namespace Sockets

def keys (sockets : Sockets) : List UInt64 :=
  sockets.map Prod.fst

def get? (sockets : Sockets) (id : UInt64) : Option Socket :=
  List.lookup id sockets

def remove (sockets : Sockets) (id : UInt64) : Sockets :=
  sockets.filter fun entry => entry.1 != id

def insert (sockets : Sockets) (id : UInt64) (socket : Socket) : Sockets :=
  (id, socket) :: remove sockets id

/-- Change the socket of an id, if there is one. -/
def update (sockets : Sockets) (id : UInt64) (socket : Socket) : Sockets :=
  sockets.map fun entry => if entry.1 = id then (id, socket) else entry

end Sockets

/-- A reply of the operating system. -/
abbrev Outcomes (α : Type) := Except String α

namespace Outcomes

variable {α : Type}

/-- The same reply under another message. -/
def describe (reply : Outcomes α) (message : String → String) :
    Except String α :=
  reply.mapError message

end Outcomes

/-- One round of waiting for a connection; the time is up when there is no
further round. -/
inductive AcceptAttempt where
  | accepted (stream : OsSocket) (address : String)
  | interrupted
  | wouldBlock
  | failed (error : String)

/-- What became of one resolved address of a connection. -/
structure Endpoint where
  opened : Outcomes OsSocket
  connected : Outcomes Unit
  readTimeout : Outcomes Unit
  writeTimeout : Outcomes Unit

/-- The socket operations, with what the operating system replies to them. -/
inductive Operation where
  | listenTcp (bound : Outcomes OsSocket) (nonblocking : Outcomes Unit)
  | accept (listener : Value) (attempts : List AcceptAttempt)
      (blocking readTimeout writeTimeout : Outcomes Unit)
  | localAddress (connection : Value) (address : Outcomes String)
  | setTimeout (connection : Value) (milliseconds : UInt64)
      (read write : Outcomes Unit)
  | bindUdp (bound : Outcomes OsSocket)
      (readTimeout writeTimeout : Outcomes Unit)
  | close (connection : Value)
  | connect (transport : Transport) (protocol : Option String)
      (addresses : Outcomes (List Endpoint))
  | send (connection data : Value) (destination : Option String)
      (sent : Outcomes Nat)
  | receive (connection : Value) (received : Outcomes (List UInt8 × String))

/-- A prepared socket, with the address of the peer that was accepted. -/
structure Opening where
  socket : Socket
  peer : Option String

def Opening.answer (opening : Opening) (id : UInt64) : Value :=
  match opening.peer with
  | none => .connection id
  | some address =>
      .object [("address", .string address), ("connection", .connection id)]

namespace Sockets

def capacity : Nat := 1024

def defaultTimeout : UInt64 := 5000

def ensureCapacity (sockets : Sockets) : Except String Unit :=
  if capacity ≤ sockets.length then
    .error "runtime connection limit (1024) reached"
  else .ok ()

/-- The socket of a handle of this runtime. -/
def socket (sockets : Sockets) : Value → Except String (UInt64 × Socket)
  | .connection id =>
      match sockets.get? id with
      | some socket => .ok (id, socket)
      | none => .error
          "connection is closed or belongs to another runtime; create connections inside parallel workers"
  | _ => .error
      "socket operation requires a connection or listener handle"

def listenTcp (sockets : Sockets) (bound : Outcomes OsSocket)
    (nonblocking : Outcomes Unit) : Except String Opening := do
  sockets.ensureCapacity
  let socket ← bound.describe fun e => s!"TCP listen failed: {e}"
  nonblocking.describe fun e => s!"cannot configure TCP listener: {e}"
  .ok ⟨.listener socket defaultTimeout, none⟩

def acceptLoop : List AcceptAttempt → Except String (OsSocket × String)
  | [] => .error "TCP accept timed out"
  | .accepted stream address :: _ => .ok (stream, address)
  | .interrupted :: rest | .wouldBlock :: rest => acceptLoop rest
  | .failed error :: _ => .error s!"TCP accept failed: {error}"

def accept (sockets : Sockets) (listener : Value)
    (attempts : List AcceptAttempt)
    (blocking readTimeout writeTimeout : Outcomes Unit) :
    Except String Opening := do
  sockets.ensureCapacity
  let found ← sockets.socket listener
  if found.2.isListener then do
    let accepted ← acceptLoop attempts
    blocking.describe fun e =>
      s!"cannot configure accepted TCP connection: {e}"
    readTimeout
    writeTimeout
    .ok ⟨.tcp accepted.1, some accepted.2⟩
  else .error "accept requires a TCP listener"

def bindUdp (sockets : Sockets) (bound : Outcomes OsSocket)
    (readTimeout writeTimeout : Outcomes Unit) : Except String Opening := do
  sockets.ensureCapacity
  let socket ← bound.describe fun e => s!"UDP bind failed: {e}"
  readTimeout
  writeTimeout
  .ok ⟨.unconnectedUdp socket, none⟩

/-- Connect one resolved address; only UDP has a socket before it connects. -/
def connectEndpoint (transport : Transport) (endpoint : Endpoint) :
    Except String Socket := do
  let socket ← endpoint.opened
  match transport with
  | .tcp => do
      endpoint.readTimeout
      endpoint.writeTimeout
      .ok (.tcp socket)
  | .udp => do
      endpoint.connected
      endpoint.readTimeout
      endpoint.writeTimeout
      .ok (.udp socket)

/-- The first address that can be connected. -/
def connectFirst (transport : Transport) :
    List Endpoint → String → Except String Opening
  | [], lastError => .error lastError
  | endpoint :: rest, _ =>
      match connectEndpoint transport endpoint with
      | .ok socket => .ok ⟨socket, none⟩
      | .error error =>
          connectFirst transport rest s!"cannot connect: {error}"

def connect (sockets : Sockets) (transport : Transport)
    (protocol : Option String) (addresses : Outcomes (List Endpoint)) :
    Except String Opening := do
  if protocol.isSome then
    .error "protocol-aware connections are not implemented"
  else do
    sockets.ensureCapacity
    let endpoints ← addresses.describe fun e =>
      s!"cannot resolve connection address: {e}"
    connectFirst transport endpoints
      "connection address resolved to no endpoints"

def localAddress (sockets : Sockets) (connection : Value)
    (address : Outcomes String) : Except String Value := do
  let _ ← sockets.socket connection
  let text ← address.describe fun e => s!"cannot read local address: {e}"
  .ok (.string text)

/-- The timeout of a listener is kept in the table. -/
def setTimeout (sockets : Sockets) (connection : Value)
    (milliseconds : UInt64) (read write : Outcomes Unit) :
    Sockets × Except String Value :=
  if 1 ≤ milliseconds.toNat ∧ milliseconds.toNat ≤ 86400000 then
    match sockets.socket connection with
    | .error message => (sockets, .error message)
    | .ok (id, .listener socket _) =>
        (sockets.update id (.listener socket milliseconds), .ok .null)
    | .ok _ => (sockets, do
        Outcomes.describe (read.bind fun _ => write) fun e =>
          s!"cannot set socket timeout (read timeout may already be updated): {e}"
        .ok .null)
  else (sockets, .error "socket timeout must be from 1ms through 24h")

def close (sockets : Sockets) : Value → Sockets × Except String Value
  | .connection id =>
      if (sockets.get? id).isSome then (sockets.remove id, .ok .null)
      else (sockets, .error
        "connection is closed or belongs to another runtime")
  | _ => (sockets, .error "close requires a connection")

def payload : Value → Except String (List UInt8)
  | .string text => .ok text.toUTF8.toList
  | .bytes bytes => .ok bytes
  | _ => .error "SEND data must be a string or bytes"

def send (sockets : Sockets) (connection data : Value)
    (destination : Option String) (sent : Outcomes Nat) :
    Except String Value := do
  let found ← sockets.socket connection
  if destination.isSome && !found.2.isUnconnectedUdp then
    .error "TO requires an unconnected UDP socket"
  else do
    let bytes ← payload data
    match found.2, destination with
    | .listener _ _, _ =>
        .error "SEND requires a connection, not a listener"
    | .unconnectedUdp _, none =>
        .error "unconnected UDP SEND requires TO destination"
    | .unconnectedUdp _, some _ => do
        let count ← sent.describe fun e => s!"UDP SEND TO failed: {e}"
        if count ≠ bytes.length then
          .error "UDP SEND did not send the complete datagram"
        else .ok .null
    | .tcp _, _ => do
        let _ ← sent.describe fun e =>
          s!"TCP SEND failed (data may have been partially sent): {e}"
        .ok .null
    | .udp _, _ => do
        let count ← sent.describe fun e => s!"UDP SEND failed: {e}"
        if count ≠ bytes.length then
          .error "UDP SEND did not send the complete datagram"
        else .ok .null

def receive (sockets : Sockets) (connection : Value)
    (received : Outcomes (List UInt8 × String)) : Except String Value := do
  let found ← sockets.socket connection
  match found.2 with
  | .listener _ _ =>
      .error "RECEIVE requires a connection; use accept(listener) first"
  | .unconnectedUdp _ => do
      let packet ← received.describe fun e => s!"UDP RECEIVE failed: {e}"
      .ok (.object [("address", .string packet.2), ("data", .bytes packet.1)])
  | .tcp _ => do
      let packet ← received.describe fun e => s!"TCP RECEIVE failed: {e}"
      if packet.1.isEmpty then .ok .null else .ok (.bytes packet.1)
  | .udp _ => do
      let packet ← received.describe fun e => s!"UDP RECEIVE failed: {e}"
      .ok (.bytes packet.1)

/-- An operation has a result at once, or a socket to insert. -/
inductive Progress where
  | finished (result : Except String Value)
  | inserting (opening : Opening)

def Progress.ofOpening : Except String Opening → Progress
  | .ok opening => .inserting opening
  | .error message => .finished (.error message)

/-- Everything an operation does before it draws an id. -/
def perform (sockets : Sockets) : Operation → Sockets × Progress
  | .listenTcp bound nonblocking =>
      (sockets, .ofOpening (sockets.listenTcp bound nonblocking))
  | .accept listener attempts blocking readTimeout writeTimeout =>
      (sockets, .ofOpening (sockets.accept listener attempts blocking
        readTimeout writeTimeout))
  | .bindUdp bound readTimeout writeTimeout =>
      (sockets, .ofOpening (sockets.bindUdp bound readTimeout writeTimeout))
  | .connect transport protocol addresses =>
      (sockets, .ofOpening (sockets.connect transport protocol addresses))
  | .localAddress connection address =>
      (sockets, .finished (sockets.localAddress connection address))
  | .setTimeout connection milliseconds read write =>
      let done := sockets.setTimeout connection milliseconds read write
      (done.1, .finished done.2)
  | .close connection =>
      let done := sockets.close connection
      (done.1, .finished done.2)
  | .send connection data destination sent =>
      (sockets, .finished (sockets.send connection data destination sent))
  | .receive connection received =>
      (sockets, .finished (sockets.receive connection received))

/-- Draw an id, unless they are exhausted, and insert the socket. -/
def insertNew (sockets : Sockets) (nextId : UInt64) (opening : Opening) :
    Sockets × UInt64 × Except String Value :=
  if nextId.toNat + 1 < 2 ^ 64 then
    (sockets.insert nextId opening.socket, nextId + 1,
      .ok (opening.answer nextId))
  else (sockets, nextId, .error "connection IDs exhausted")

end Sockets

end NetLang
