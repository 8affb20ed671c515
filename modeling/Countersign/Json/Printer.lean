import Countersign.Json.Numeral
import Countersign.Json.Text

set_option autoImplicit false

/-!
# Writing JSON

The compact text of a value has no space. The indented text puts every item and member
on a line of its own, two spaces deeper than what holds it; an empty array or object
stays on one line. Members are written in the order in which the value has them.
-/

namespace Countersign.Json

mutual
def chars : Json → List Char
  | .null => ['n', 'u', 'l', 'l']
  | .bool true => ['t', 'r', 'u', 'e']
  | .bool false => ['f', 'a', 'l', 's', 'e']
  | .int n => integerText n
  | .float x => floatText x
  | .str text => quote text
  | .arr items => '[' :: itemChars items ++ [']']
  | .obj members => '\x7b' :: memberChars members ++ ['\x7d']

def itemChars : List Json → List Char
  | [] => []
  | [item] => item.chars
  | item :: rest => item.chars ++ ',' :: itemChars rest

def memberChars : List (String × Json) → List Char
  | [] => []
  | [(name, value)] => quote name ++ ':' :: value.chars
  | (name, value) :: rest => quote name ++ ':' :: value.chars ++ ',' :: memberChars rest
end

def compact (value : Json) : String := String.ofList value.chars

/-- A new line at a depth of nesting. -/
def lineAt (depth : Nat) : List Char := '\n' :: List.replicate (2 * depth) ' '

mutual
def indentedChars (depth : Nat) : Json → List Char
  | .arr [] => ['[', ']']
  | .arr items => '[' :: indentedItems (depth + 1) items ++ lineAt depth ++ [']']
  | .obj [] => ['\x7b', '\x7d']
  | .obj members => '\x7b' :: indentedMembers (depth + 1) members ++ lineAt depth ++ ['\x7d']
  | .null => chars .null
  | .bool b => chars (.bool b)
  | .int n => chars (.int n)
  | .float x => chars (.float x)
  | .str text => chars (.str text)

def indentedItems (depth : Nat) : List Json → List Char
  | [] => []
  | [item] => lineAt depth ++ indentedChars depth item
  | item :: rest => lineAt depth ++ indentedChars depth item ++ ',' :: indentedItems depth rest

def indentedMembers (depth : Nat) : List (String × Json) → List Char
  | [] => []
  | [(name, value)] => lineAt depth ++ quote name ++ [':', ' '] ++ indentedChars depth value
  | (name, value) :: rest =>
    lineAt depth ++ quote name ++ [':', ' '] ++ indentedChars depth value ++
      ',' :: indentedMembers depth rest
end

def indented (value : Json) : String := String.ofList (value.indentedChars 0)

end Countersign.Json
