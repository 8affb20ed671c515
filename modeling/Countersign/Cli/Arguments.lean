set_option autoImplicit false

/-!
# Command lines

A command line names a command, with options before or behind it. What begins with a
dash is an option unless it stands alone or behind the separator `--`; an option takes
its value behind an equals sign or from the next argument, and may be given once on
either side of the command. Behind the command counts more than before it.
-/

namespace Countersign.Cli

inductive Command where
  | call (method : String) (params : List String)
  | requests
  | confirm (id password : String) (modification : Option String)
  | reject (id : String)
  | post (transaction : String)
  | track (id : String)
  | localTxs
  deriving DecidableEq, Repr

structure Invocation where
  url : Option String
  debug : Bool
  command : Command
  deriving DecidableEq, Repr

/-- Why there is no command to run. -/
inductive Halt where
  | help
  | version
  | wrong
  deriving DecidableEq, Repr

inductive Argument where
  | separator
  | long (name : String) (value : Option String)
  | short (letter : Char)
  | word (text : String)
  deriving DecidableEq, Repr

def Argument.ofText (text : String) : Argument :=
  match text.toList with
  | ['-', '-'] => .separator
  | '-' :: '-' :: rest =>
    let name := rest.takeWhile (· != '=')
    let value := match rest.dropWhile (· != '=') with
      | _ :: value => some (String.ofList value)
      | [] => none
    .long (String.ofList name) value
  | '-' :: letter :: _ => .short letter
  | _ => .word text

/-- What one side of the command may hold: options with a value, and how many words.
Before the command there is room for none: the first word is the command. -/
structure Scope where
  valued : List String
  words : Option Nat
  main : Bool

/-- What one side of the command holds. -/
structure Seen where
  values : List (String × String)
  debug : Bool
  words : List String

namespace Seen

def nothing : Seen := ⟨[], false, []⟩

def setValue (seen : Seen) (name value : String) : Except Halt Seen :=
  match seen.values.lookup name with
  | some _ => .error .wrong
  | none => .ok { seen with values := (name, value) :: seen.values }

def setDebug (seen : Seen) : Except Halt Seen :=
  if seen.debug then .error .wrong else .ok { seen with debug := true }

def addWords (seen : Seen) (scope : Scope) (words : List String) : Except Halt Seen :=
  let all := seen.words ++ words
  if scope.words.all (all.length ≤ ·) then .ok { seen with words := all } else .error .wrong

end Seen

/-- What an option without a value does, `none` where it is no such option. -/
def bare (scope : Scope) (seen : Seen) : Argument → Except Halt Seen
  | .long "debug" none => seen.setDebug
  | .long "help" none => .error .help
  | .long "version" none => .error (if scope.main then .version else .wrong)
  | .short 'h' => .error .help
  | .short 'V' => .error (if scope.main then .version else .wrong)
  | _ => .error .wrong

/-- Reads one side of the command, and gives back the rest of the line. -/
def scan (scope : Scope) : Seen → List String → Except Halt (Seen × List String)
  | seen, [] => .ok (seen, [])
  | seen, text :: rest =>
    match Argument.ofText text with
    | .word _ =>
      if scope.main then .ok (seen, text :: rest)
      else match seen.addWords scope [text] with
        | .ok seen => scan scope seen rest
        | .error halt => .error halt
    | .separator =>
      if scope.main then .error .wrong
      else match seen.addWords scope rest with
        | .ok seen => .ok (seen, [])
        | .error halt => .error halt
    | .long name (some value) =>
      if name ∈ scope.valued then
        match seen.setValue name value with
        | .ok seen => scan scope seen rest
        | .error halt => .error halt
      else .error .wrong
    | .long name none =>
      if name ∈ scope.valued then
        match rest with
        | [] => .error .wrong
        | value :: rest =>
          match Argument.ofText value, seen.setValue name value with
          | .word _, .ok seen => scan scope seen rest
          | _, _ => .error .wrong
      else match bare scope seen (.long name none) with
        | .ok seen => scan scope seen rest
        | .error halt => .error halt
    | .short letter =>
      match bare scope seen (.short letter) with
      | .ok seen => scan scope seen rest
      | .error halt => .error halt

def mainScope : Scope := ⟨["url"], none, true⟩

/-- What may stand behind a command, none for a word that is no command. -/
def scopeOf? : String → Option Scope
  | "call" => some ⟨["url"], none, false⟩
  | "requests" => some ⟨["url"], some 0, false⟩
  | "confirm" => some ⟨["url", "password", "modification"], some 1, false⟩
  | "reject" => some ⟨["url"], some 1, false⟩
  | "post" => some ⟨["url"], some 1, false⟩
  | "track" => some ⟨["url"], some 1, false⟩
  | "local-txs" => some ⟨["url"], some 0, false⟩
  | _ => none

/-- The command of a name; `password` is what the environment has for it. -/
def command? (password : Option String) (name : String) (seen : Seen) : Option Command :=
  match name, seen.words with
  | "call", method :: params => some (.call method params)
  | "requests", [] => some .requests
  | "confirm", [id] =>
    ((seen.values.lookup "password").or password).map fun password =>
      .confirm id password (seen.values.lookup "modification")
  | "reject", [id] => some (.reject id)
  | "post", [transaction] => some (.post transaction)
  | "track", [id] => some (.track id)
  | "local-txs", [] => some .localTxs
  | _, _ => none

/-- What is asked behind `help`: nothing, or one command. -/
def helpOn : List String → Halt
  | [] => .help
  | [name] => if name = "help" ∨ (scopeOf? name).isSome then .help else .wrong
  | _ => .wrong

/-- Reads a whole command line. -/
def parse (password : Option String) (args : List String) : Except Halt Invocation :=
  match scan mainScope .nothing args with
  | .error halt => .error halt
  | .ok (_, []) => .error .wrong
  | .ok (_, "help" :: asked) => .error (helpOn asked)
  | .ok (before, name :: rest) =>
    match scopeOf? name with
    | none => .error .wrong
    | some scope =>
      match scan scope .nothing rest with
      | .error halt => .error halt
      | .ok (behind, _) =>
        match command? password name behind with
        | none => .error .wrong
        | some command =>
          .ok { url := (behind.values.lookup "url").or (before.values.lookup "url")
                debug := before.debug || behind.debug
                command := command }

end Countersign.Cli
