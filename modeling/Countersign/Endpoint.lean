import Countersign.Rpc.Encoder
import Countersign.Settings

set_option autoImplicit false

/-!
# Endpoints

The scheme of an address decides how calls travel: each as an exchange of its own, or
all over one socket. An exchange is opened only when a call is made, so its address is
not looked at any further; a socket must be connected first.
-/

namespace Countersign

inductive Carrier where
  | http
  | socket
  deriving DecidableEq, Repr

/-- An open way to a node. -/
structure Endpoint where
  carrier : Carrier
  url : String
  encoder : Rpc.Encoder
  timeout : Option Duration

namespace Endpoint

/-- What stands before the first `://`, none if there is no such mark. -/
def beforeMark : List Char → Option (List Char)
  | [] => none
  | ':' :: '/' :: '/' :: _ => some []
  | c :: rest => (beforeMark rest).map (c :: ·)

def carrier? (url : String) : Option Carrier :=
  match (beforeMark url.toList).map fun scheme => String.ofList (scheme.map Settings.lower) with
  | some "http" => some .http
  | some "https" => some .http
  | some "ws" => some .socket
  | some "wss" => some .socket
  | _ => none

/-- Opens the way that the settings name; `reachable` tells which sockets can be connected. -/
def connect (reachable : String → Bool) (settings : Settings) : Except CallError Endpoint :=
  let encoder := Rpc.Encoder.new.setDebug settings.debug
  match carrier? settings.url with
  | some .http => .ok ⟨.http, settings.url, encoder, settings.requestTimeout⟩
  | some .socket =>
    if reachable settings.url then
      .ok ⟨.socket, settings.url, encoder, settings.requestTimeout⟩
    else .error (.connection ("websocket connect to " ++ settings.url ++ " failed"))
  | none => .error (.connection ("unsupported rpc url scheme: " ++ settings.url))

end Endpoint

end Countersign
