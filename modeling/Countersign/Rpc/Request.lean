import Countersign.Json.Printer
import Countersign.Json.Record

set_option autoImplicit false

/-!
# Request envelopes

A call as it is sent: the version of the protocol, the method, the parameters and the
id under which the answer comes back, written in that order.
-/

namespace Countersign.Rpc

structure Request where
  version : String
  method : String
  params : List Json
  id : UInt64

namespace Request

def json (r : Request) : Json :=
  .obj [("jsonrpc", .str r.version), ("method", .str r.method), ("params", .arr r.params),
    ("id", .ofUInt64 r.id)]

def text (r : Request) : String := r.json.compact

def ofTrees? (version method params id : Json.Tree) : Option Request :=
  match version.asString?, method.asString?, params.asItems? (Json.maxDepth - 1),
      id.asInteger?.bind Integer.toUInt64? with
  | some version, some method, some params, some id => some ⟨version, method, params, id⟩
  | _, _, _, _ => none

/-- Reads an envelope straight from the tree of a text; the array form has all four. -/
def ofTree? : Json.Tree → Option Request
  | .obj members =>
    match Json.Tree.fields? members with
    | none => none
    | some fields =>
      match Json.Tree.field? "jsonrpc" fields, Json.Tree.field? "method" fields,
          Json.Tree.field? "params" fields, Json.Tree.field? "id" fields with
      | some (some version), some (some method), some (some params), some (some id) =>
        ofTrees? version method params id
      | _, _, _, _ => none
  | .arr [version, method, params, id] => ofTrees? version method params id
  | _ => none

def parse? (text : String) : Option Request := (Json.Tree.parse? text).bind ofTree?

end Request

end Countersign.Rpc
