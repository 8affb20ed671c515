import Countersign.Json.Numeral
import Countersign.Json.Text

set_option autoImplicit false

/-!
# Reading JSON

A text is first read as a tree that keeps every member in its order and every literal
as written. What the tree means is asked afterwards, so that two readings of one text
can be compared: as a value, where the last of repeated members counts, or straight as
a record, where a repeated member is refused and an unknown one is not looked into.

An object whose first member has the embedding name stands for another value, whose text
that member holds. It has no further members.
-/

namespace Countersign.Json

/-- The name under which an object holds the text of the value it stands for. -/
def embeddingName : String := "$serde_json::private::RawValue"

inductive Tree where
  | null
  | bool (value : Bool)
  | num (numeral : Numeral)
  | str (parts : List Part)
  | arr (items : List Tree)
  | obj (members : List (List Part × Tree))

namespace Tree

instance : Inhabited Tree := ⟨.null⟩

def isSpace (c : Char) : Bool := c == ' ' || c == '\t' || c == '\n' || c == '\r'

def skip (text : List Char) : List Char := text.dropWhile isSpace

mutual
/-- A tree off the front of a text, and what stands behind it. The fuel bounds the
nesting of calls, each second of which has taken a character off. -/
def read : (fuel : Nat) → List Char → Option (Tree × List Char)
  | 0, _ => none
  | fuel + 1, text =>
    match skip text with
    | 'n' :: 'u' :: 'l' :: 'l' :: rest => some (.null, rest)
    | 't' :: 'r' :: 'u' :: 'e' :: rest => some (.bool true, rest)
    | 'f' :: 'a' :: 'l' :: 's' :: 'e' :: rest => some (.bool false, rest)
    | '"' :: rest =>
      match Part.scan rest with
      | some (parts, rest) => some (.str parts, rest)
      | none => none
    | '[' :: rest =>
      match skip rest with
      | ']' :: rest => some (.arr [], rest)
      | _ =>
        match readItems fuel rest with
        | some (items, rest) => some (.arr items, rest)
        | none => none
    | '\x7b' :: rest =>
      match skip rest with
      | '\x7d' :: rest => some (.obj [], rest)
      | _ =>
        match readMembers fuel rest with
        | some (members, rest) => some (.obj members, rest)
        | none => none
    | rest =>
      match Numeral.scan rest with
      | some (numeral, rest) => some (.num numeral, rest)
      | none => none

/-- The items of an array up to its closing bracket. -/
def readItems : (fuel : Nat) → List Char → Option (List Tree × List Char)
  | 0, _ => none
  | fuel + 1, text =>
    match read fuel text with
    | none => none
    | some (item, rest) =>
      match skip rest with
      | ']' :: rest => some ([item], rest)
      | ',' :: rest =>
        match readItems fuel rest with
        | some (items, rest) => some (item :: items, rest)
        | none => none
      | _ => none

/-- The members of an object up to its closing brace. -/
def readMembers : (fuel : Nat) → List Char → Option (List (List Part × Tree) × List Char)
  | 0, _ => none
  | fuel + 1, text =>
    match skip text with
    | '"' :: rest =>
      match Part.scan rest with
      | none => none
      | some (name, rest) =>
        match skip rest with
        | ':' :: rest =>
          match read fuel rest with
          | none => none
          | some (value, rest) =>
            match skip rest with
            | '\x7d' :: rest => some ([(name, value)], rest)
            | ',' :: rest =>
              match readMembers fuel rest with
              | some (members, rest) => some ((name, value) :: members, rest)
              | none => none
            | _ => none
        | _ => none
    | _ => none
end

/-- The tree of a whole text, around which only space may stand. -/
def parse? (text : String) : Option Tree :=
  let chars := text.toList
  match read (2 * chars.length + 1) chars with
  | some (tree, rest) => if (skip rest).isEmpty then some tree else none
  | none => none

/-- Whether the first of the members has the embedding name. -/
def embeds : List (List Part × Tree) → Bool
  | [] => false
  | (name, _) :: _ => Part.text? name == some embeddingName

/-- The text that an embedding holds; it may hold nothing else. -/
def embeddedText? : List (List Part × Tree) → Option String
  | [(_, .str parts)] => Part.text? parts
  | _ => none

mutual
/-- The value of a tree whose arrays and objects are nested at most `depth` deep, where
`embedded` reads the texts that it holds. -/
def value? (embedded : String → Option Json) : (depth : Nat) → Tree → Option Json
  | _, .null => some .null
  | _, .bool b => some (.bool b)
  | _, .num numeral => numeral.value?
  | _, .str parts => (Part.text? parts).map .str
  | 0, .arr _ => none
  | 0, .obj _ => none
  | depth + 1, .arr items => (values? embedded depth items).map .arr
  | depth + 1, .obj members =>
    if embeds members then (embeddedText? members).bind embedded
    else (members? embedded depth members).map ofMembers

def values? (embedded : String → Option Json) : (depth : Nat) → List Tree → Option (List Json)
  | _, [] => some []
  | depth, item :: rest =>
    match value? embedded depth item, values? embedded depth rest with
    | some value, some values => some (value :: values)
    | _, _ => none

/-- The members in the order of the text, repeated ones too. -/
def members? (embedded : String → Option Json) :
    (depth : Nat) → List (List Part × Tree) → Option (List (String × Json))
  | _, [] => some []
  | depth, (name, value) :: rest =>
    match Part.text? name, value? embedded depth value, members? embedded depth rest with
    | some name, some value, some members => some ((name, value) :: members)
    | _, _, _ => none
end

end Tree

/-- How deep arrays and objects may be nested in a text that is read. An embedded text
has this depth of its own. -/
def maxDepth : Nat := 127

/-- The value of a whole text. The fuel bounds how often texts are embedded in each other. -/
def parseWithin : (fuel : Nat) → String → Option Json
  | 0, _ => none
  | fuel + 1, text => (Tree.parse? text).bind (Tree.value? (parseWithin fuel) maxDepth)

/-- The value of a whole text. An embedded text is shorter than the text around it, so
there are fewer of them in each other than there are characters. -/
def parse? (text : String) : Option Json := parseWithin (text.length + 1) text

end Countersign.Json
