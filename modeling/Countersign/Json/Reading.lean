import Countersign.Json.Tree

set_option autoImplicit false

/-!
# Values of a kind

Readers that take a value apart as a program wants it: a number of a width, a list, a
map. A reader refuses every value of another kind; no float is a whole number.

A value wanted as a value is looked through once more. Its members are now in the order
of their names, so an object may begin with the embedding name that did not do so as a
text; then it has further members, and is refused.
-/

namespace Countersign.Json

/-- Whether the first of the members has the embedding name. -/
def embeds : List (String × Json) → Bool
  | [] => false
  | (name, _) :: _ => name == embeddingName

/-- The value that an embedding stands for. -/
def embedded? : List (String × Json) → Option Json
  | [(_, .str text)] => parse? text
  | _ => none

mutual
def asValue? : Json → Option Json
  | .arr items => (asValues? items).map .arr
  | .obj members =>
    if embeds members then embedded? members else (asMembers? members).map .obj
  | value => some value

def asValues? : List Json → Option (List Json)
  | [] => some []
  | item :: rest =>
    match asValue? item, asValues? rest with
    | some item, some rest => some (item :: rest)
    | _, _ => none

def asMembers? : List (String × Json) → Option (List (String × Json))
  | [] => some []
  | (name, value) :: rest =>
    match asValue? value, asMembers? rest with
    | some value, some rest => some ((name, value) :: rest)
    | _, _ => none
end

def asUInt8? : Json → Option UInt8
  | .int n => if 0 ≤ n.value ∧ n.value < 256 then some (UInt8.ofNat n.value.toNat) else none
  | _ => none

def asBool? : Json → Option Bool
  | .bool b => some b
  | _ => none

def asList? {α : Type} (item : Json → Option α) : Json → Option (List α)
  | .arr items => items.mapM item
  | _ => none

/-- Null is read as nothing. -/
def asOption? {α : Type} (item : Json → Option α) : Json → Option (Option α)
  | .null => some none
  | value => (item value).map some

/-- The members of an object with their values, in the order of their names. -/
def asMap? {α : Type} (item : Json → Option α) : Json → Option (List (String × α))
  | .obj members => members.mapM fun member => (item member.2).map (member.1, ·)
  | _ => none

end Countersign.Json
