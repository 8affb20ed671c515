import Countersign.Json.Printer
import Countersign.Json.Reading
import Countersign.Json.Record

set_option autoImplicit false

/-!
# Error objects

What a node answers in place of a result. An error object is read from a value or
straight from the tree of a text; both take the array form too, whose third item may
be left out. Data that is null is no data; only straight from a text can a null come as
data, if it is embedded.
-/

namespace Countersign.Rpc

structure Error where
  code : Int64
  message : String
  data : Option Json

namespace Error

/-- The code under which a node reports that the user has rejected a request. -/
def requestRejected : Int64 := -32040

def isRejection (e : Error) : Bool := e.code == requestRejected

def text (e : Error) : String := Digits.signed e.code.toInt ++ ": " ++ e.message

def json (e : Error) : Json :=
  .obj ([("code", .int (Integer.ofInt64 e.code)), ("message", .str e.message)] ++
    (e.data.map fun data => ("data", data)).toList)

/-- The data of an error object, where null is none. -/
def dataOf? : Option Json → Option (Option Json)
  | none => some none
  | some value => Json.asOption? Json.asValue? value

/-- Reads the parts of an error object, of which the data may be left out. -/
def ofParts? (code message : Json) (data : Option Json) : Option Error :=
  match code.asInt64?, message.asString?, dataOf? data with
  | some code, some message, some data => some ⟨code, message, data⟩
  | _, _, _ => none

def ofJson? : Json → Option Error
  | .obj members =>
    match members.lookup "code", members.lookup "message" with
    | some code, some message => ofParts? code message (members.lookup "data")
    | _, _ => none
  | .arr [code, message] => ofParts? code message none
  | .arr [code, message, data] => ofParts? code message (some data)
  | _ => none

/-- Reads the trees of the parts, of which the data is nested at most `depth` deep. -/
def ofTrees? (depth : Nat) (code message : Json.Tree) (data : Option Json.Tree) : Option Error :=
  match code.asInteger?.bind Integer.toInt64?, message.asString?, Json.Tree.optional? depth data with
  | some code, some message, some data => some ⟨code, message, data⟩
  | _, _, _ => none

/-- Reads an error object straight from the tree of a text. -/
def ofTree? : Json.Tree → Option Error
  | .obj members =>
    match Json.Tree.fields? members with
    | none => none
    | some fields =>
      match Json.Tree.field? "code" fields, Json.Tree.field? "message" fields,
          Json.Tree.field? "data" fields with
      | some (some code), some (some message), some data =>
        ofTrees? (Json.maxDepth - 1) code message data
      | _, _, _ => none
  | .arr [code, message] => ofTrees? (Json.maxDepth - 1) code message none
  | .arr [code, message, data] => ofTrees? (Json.maxDepth - 1) code message (some data)
  | _ => none

def parse? (text : String) : Option Error := (Json.Tree.parse? text).bind ofTree?

end Error

end Countersign.Rpc
