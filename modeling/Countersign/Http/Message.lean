import Countersign.Http.Exchange

set_option autoImplicit false

/-!
# HTTP messages

The bytes of an exchange: where an address leads, the request that is sent there, and
what the bytes say that come back until the connection ends. A body is as long as its
header says, or comes in chunks, or goes on to the end.
-/

namespace Countersign.Http

/-- Where an address leads: a host, the number it listens on, and a resource there. -/
structure Target where
  host : String
  listensOn : UInt16
  resource : String
  deriving DecidableEq, Repr

/-- Behind the mark `://` of an address. -/
def behindMark : List Char → Option (List Char)
  | [] => none
  | ':' :: '/' :: '/' :: rest => some rest
  | _ :: rest => behindMark rest

def endsAuthority (c : Char) : Bool := c == '/' || c == '?' || c == '#'

/-- The resource in the form in which it is asked for. -/
def resourceOf (rest : List Char) : String :=
  match rest.takeWhile (· != '#') with
  | '/' :: more => String.ofList ('/' :: more)
  | more => String.ofList ('/' :: more)

def Target.ofUrl? (url : String) : Option Target :=
  match behindMark url.toList with
  | none => none
  | some rest =>
    let authority := rest.takeWhile fun c => !endsAuthority c
    let resource := resourceOf (rest.dropWhile fun c => !endsAuthority c)
    let host := authority.takeWhile (· != ':')
    let listensOn := match authority.dropWhile (· != ':') with
      | ':' :: digits => (Digits.read? 10 digits).filter (· < UInt16.size)
      | _ => some 80
    match host, listensOn with
    | [], _ => none
    | _, none => none
    | _, some number => some ⟨String.ofList host, UInt16.ofNat number, resource⟩

/-- The text of a request. The connection is not used again. -/
def Post.message (post : Post) (target : Target) : String :=
  String.join
    ["POST ", target.resource, " HTTP/1.1\r\n",
      "host: ", target.host, ":", Digits.decimal target.listensOn.toNat, "\r\n",
      "accept: ", post.accept, "\r\n",
      "content-type: ", post.contentType, "\r\n",
      "content-length: ", Digits.decimal post.contentLength, "\r\n",
      "connection: close\r\n\r\n",
      post.body]

/-- The bytes up to the end of a line, and those behind it. -/
def line : List UInt8 → Option (List UInt8 × List UInt8)
  | [] => none
  | 0x0D :: 0x0A :: rest => some ([], rest)
  | b :: rest => (line rest).map fun (head, tail) => (b :: head, tail)

/-- A header field with its name in lower case. -/
structure Field where
  name : String
  value : String

def asciiLower (c : Char) : Char := if 'A' ≤ c ∧ c ≤ 'Z' then Char.ofNat (c.toNat + 32) else c

def isPadding (c : Char) : Bool := c == ' ' || c == '\t'

def Field.ofLine (bytes : List UInt8) : Field :=
  let chars := (Utf8.decodeLossy bytes).toList
  let name := (chars.takeWhile (· != ':')).map asciiLower
  let value := ((chars.dropWhile (· != ':')).drop 1).dropWhile isPadding
  ⟨String.ofList name, String.ofList ((value.reverse.dropWhile isPadding).reverse)⟩

/-- The header fields up to the empty line, and the body behind it. The fuel bounds the
number of lines. -/
def fields : (fuel : Nat) → List UInt8 → Option (List Field × List UInt8)
  | 0, _ => none
  | fuel + 1, bytes =>
    match line bytes with
    | none => none
    | some ([], rest) => some ([], rest)
    | some (head, rest) =>
      (fields fuel rest).map fun (more, rest) => (Field.ofLine head :: more, rest)

/-- The size that a chunk begins with. -/
def chunkSize (bytes : List UInt8) : Option Nat :=
  Digits.read? 16 ((Utf8.decodeLossy bytes).toList.takeWhile fun c => c != ';' && !isPadding c)

/-- The chunks of a body put together, and whether the last one has come. The fuel bounds
the number of chunks. -/
def chunks : (fuel : Nat) → List UInt8 → List UInt8 × Bool
  | 0, _ => ([], false)
  | fuel + 1, bytes =>
    match line bytes with
    | none => ([], false)
    | some (head, rest) =>
      match chunkSize head with
      | none => ([], false)
      | some 0 => ([], true)
      | some size =>
        if rest.length < size + 2 then (rest.take size, false)
        else
          let (more, complete) := chunks fuel (rest.drop (size + 2))
          (rest.take size ++ more, complete)

def lookup (name : String) (header : List Field) : Option String :=
  (header.find? (·.name == name)).map Field.value

def bodyOf (header : List Field) (rest : List UInt8) : List UInt8 × Bool :=
  if ((lookup "transfer-encoding" header).map fun v => v.toList.map asciiLower) ==
      some "chunked".toList then chunks rest.length rest
  else
    match (lookup "content-length" header).bind fun v => Digits.read? 10 v.toList with
    | some size => (rest.take size, size ≤ rest.length)
    | none => (rest, true)

/-- The status of a first line such as `HTTP/1.1 200 OK`. -/
def statusOf (bytes : List UInt8) : Option Nat :=
  let chars := (Utf8.decodeLossy bytes).toList
  if "HTTP/1.".toList.isPrefixOf chars then
    Digits.read? 10 (((chars.dropWhile (· != ' ')).drop 1).takeWhile (· != ' '))
  else none

/-- What the bytes of a whole answer say; interim answers are passed over. The fuel bounds
their number. -/
def reactionOf : (fuel : Nat) → List UInt8 → Reaction
  | 0, _ => .close
  | fuel + 1, bytes =>
    match line bytes with
    | none => .close
    | some (first, rest) =>
      match statusOf first, fields (rest.length + 1) rest with
      | some status, some (header, rest) =>
        if 100 ≤ status ∧ status < 200 then reactionOf fuel rest
        else
          let (body, complete) := bodyOf header rest
          .response status body complete
      | _, _ => .close

def Reaction.ofBytes (bytes : List UInt8) : Reaction := reactionOf (bytes.length + 1) bytes

end Countersign.Http
