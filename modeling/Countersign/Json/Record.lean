import Countersign.Json.Tree

set_option autoImplicit false

/-!
# Records read straight from a text

A record takes its fields from the members of an object. A field named twice is
refused. Members that are no field are passed over: their names must be text, their
values are not looked into.
-/

namespace Countersign.Json.Tree

/-- The members with their names read. -/
def fields? : List (List Part × Tree) → Option (List (String × Tree))
  | [] => some []
  | (name, value) :: rest =>
    match Part.text? name, fields? rest with
    | some name, some fields => some ((name, value) :: fields)
    | _, _ => none

/-- The member of a name, `some none` if there is none and `none` if there are several. -/
def field? (name : String) (fields : List (String × Tree)) : Option (Option Tree) :=
  match fields.filter (·.1 == name) with
  | [] => some none
  | [field] => some (some field.2)
  | _ => none

/-- The value of a tree with its embedded texts read. -/
def toJson? (depth : Nat) (tree : Tree) : Option Json := tree.value? Json.parse? depth

/-- The text of a literal; an embedding is none, whatever it stands for. -/
def asString? : Tree → Option String
  | .str parts => Part.text? parts
  | _ => none

def asInteger? : Tree → Option Integer
  | .num numeral => numeral.value?.bind fun
    | .int n => some n
    | _ => none
  | _ => none

/-- The items of a list of values. -/
def asItems? : (depth : Nat) → Tree → Option (List Json)
  | depth + 1, .arr items => values? Json.parse? depth items
  | _, _ => none

/-- The value of a field that may be left out or null. A null that is embedded counts as
a value. -/
def optional? (depth : Nat) : Option Tree → Option (Option Json)
  | none => some none
  | some .null => some none
  | some tree => (tree.toJson? depth).map some

end Countersign.Json.Tree
