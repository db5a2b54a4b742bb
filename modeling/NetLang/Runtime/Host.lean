import NetLang.Library.Comp
import NetLang.Runtime.Value

/-!
# Host effects

The operations of the runtime trait.  A host may be another execution's or a
test's, so nothing is assumed of its replies beyond their types.
-/

namespace NetLang

/-- The operations a host provides. -/
inductive HostCall where
  | listenTcp (address : String)
  | accept (listener : Value)
  | localAddress (connection : Value)
  | setTimeout (connection : Value) (milliseconds : UInt64)
  | bindUdp (address : String)
  | print (text : String)
  | close (connection : Value)
  | fork
  | connect (transport : Transport) (address : String)
      (protocol : Option String)
  | send (connection data : Value) (destination : Option String)
  | receive (connection : Value)
  | request (method : HttpMethod) (url : String) (config : Value)

namespace HostCall

/-- What an operation returns when it succeeds. -/
abbrev Answer : HostCall → Type
  | .listenTcp _ | .accept _ | .bindUdp _ | .connect _ _ _ | .send _ _ _
  | .receive _ | .request _ _ _ => Value
  | .localAddress _ => String
  | .setTimeout _ _ | .print _ | .close _ | .fork => Unit

/-- The values handed to the host. -/
def arguments : HostCall → List Value
  | .accept value | .localAddress value | .setTimeout value _ | .close value
  | .receive value | .request _ _ value => [value]
  | .send connection data _ => [connection, data]
  | _ => []

/-- The values a reply hands back. -/
def answered : (call : HostCall) → Except String call.Answer → List Value
  | .listenTcp _, .ok value | .accept _, .ok value | .bindUdp _, .ok value
  | .connect _ _ _, .ok value | .send _ _ _, .ok value
  | .receive _, .ok value | .request _ _ _, .ok value => [value]
  | _, _ => []

end HostCall

/-- The main host has the empty path; the `n`-th fork of a host extends it. -/
abbrev HostId := List Nat

end NetLang
