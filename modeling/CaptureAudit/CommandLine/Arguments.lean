import CaptureAudit.Text.Split
import CaptureAudit.Text.Visible

/-! Arguments of one level of a command line, read from left to right. An option or positional
argument is pending until the next one begins or the level ends; only then its value is taken, so a
word that is not known at all is reported before a pending value that cannot be taken. -/

namespace CaptureAudit.CommandLine

inductive UsageError where
  | help
  | nothingGiven
  | missingCommand
  | missingArgument
  | unknownCommand
  | unknownArgument
  /-- An argument that may be given once is given again. -/
  | repeated
  /-- An option has no value, or a path is empty. -/
  | missingValue
  /-- A flag has a value. -/
  | surplusValue
  | refusedValue (value option reason : String)
  deriving DecidableEq, Repr

/-- A text between the control sequences that make it stand out. -/
def emphasized (s : String) : String := "\x1b[1m" ++ s ++ "\x1b[0m"

def UsageError.reason : UsageError → String
  | .help => "help requested"
  | .nothingGiven => "no arguments given"
  | .missingCommand => "a subcommand is required but one was not provided"
  | .missingArgument => "a required argument was not provided"
  | .unknownCommand => "unrecognized subcommand"
  | .unknownArgument => "unexpected argument found"
  | .repeated => "an argument cannot be used multiple times"
  | .missingValue => "a value is required but none was supplied"
  | .surplusValue => "unexpected value for a flag"
  | .refusedValue value option reason =>
    let value := emphasized value
    let option := emphasized option
    s!"invalid value '{value}' for '{option}': {reason}"

/-- The lines that report a fault, as they are seen. A control sequence that a quoted value leaves
unfinished goes on in what follows the value. -/
def UsageError.message (e : UsageError) : String :=
  let help := emphasized "--help"
  Text.visible s!"error: {e.reason}\n\nFor more information, try '{help}'.\n"

/-- What an argument does to what has been read. -/
inductive Effect (σ : Type) where
  | help
  | flag (set : σ → σ)
  | single (take : String → σ → Except UsageError σ)
  | repeated (take : String → σ → Except UsageError σ)

/-- A positional argument has no names. -/
structure Argument (σ : Type) where
  long : String
  short : Option Char
  effect : Effect σ

def Argument.takesValue {σ : Type} (a : Argument σ) : Bool :=
  match a.effect with
  | .single _ => true
  | .repeated _ => true
  | _ => false

/-- A level: its options and flags, its positional arguments in order, and its commands. -/
structure Level (σ : Type) where
  named : List (Argument σ)
  positional : List (Argument σ)
  commands : List String

structure Progress (σ : Type) where
  result : σ
  /-- Arguments that may not be given again. -/
  given : List String
  /-- An argument whose value is not taken yet, and the value. -/
  pending : Option (Argument σ × Option String)
  /-- Positional arguments begun. -/
  position : Nat

namespace Progress

variable {σ : Type}

def start (x : σ) : Progress σ := ⟨x, [], none, 0⟩

/-- The next word is the value of an option, unless it looks like an option. -/
def awaitsValue (p : Progress σ) : Bool :=
  match p.pending with
  | some (_, none) => true
  | _ => false

def once (p : Progress σ) (a : Argument σ) (f : σ → Except UsageError σ) :
    Except UsageError (Progress σ) :=
  if p.given.contains a.long then .error .repeated
  else do
    let x ← f p.result
    .ok { p with result := x, given := a.long :: p.given }

def take (p : Progress σ) (a : Argument σ) (value : Option String) :
    Except UsageError (Progress σ) :=
  match a.effect, value with
  | .help, _ => .error .help
  | .flag set, _ => p.once a fun x => .ok (set x)
  | .single f, some v => p.once a (f v)
  | .repeated f, some v => do
    let x ← f v p.result
    .ok { p with result := x }
  | _, none => .error .missingValue

def settle (p : Progress σ) : Except UsageError (Progress σ) :=
  match p.pending with
  | none => .ok p
  | some (a, value) => { p with pending := none }.take a value

/-- Begin an option without a value of its own, or take one at once. -/
def begin (p : Progress σ) (a : Argument σ) (value : Option String) :
    Except UsageError (Progress σ) := do
  let p ← p.settle
  if a.takesValue && value.isNone then .ok { p with pending := some (a, none) }
  else p.take a value

/-- A word that is no option: the value of the pending option, or the next positional argument. -/
def addPositional (l : Level σ) (p : Progress σ) (word : String) :
    Except UsageError (Progress σ) :=
  match l.positional[p.position]? with
  | some a => do
    let p ← p.settle
    .ok { p with pending := some (a, some word), position := p.position + 1 }
  | none => .error (if l.commands.isEmpty then .unknownArgument else .unknownCommand)

/-- A word that begins with two dashes, which are left out here. -/
def addLong (l : Level σ) (p : Progress σ) (word : String) : Except UsageError (Progress σ) :=
  let (name, value) := match Text.splitFirst? '=' word with
    | some (name, value) => (name, some value)
    | none => (word, none)
  match l.named.find? (·.long == name) with
  | none => .error .unknownArgument
  | some a => if a.takesValue || value.isNone then p.begin a value else .error .surplusValue

/-- Letters after one dash. What follows the letter of an option is its value, where an equals sign
may stand between them. -/
def addShort (l : Level σ) : List Char → Progress σ → Except UsageError (Progress σ)
  | [], p => .ok p
  | c :: cs, p =>
    match l.named.find? (·.short == some c) with
    | none => .error .unknownArgument
    | some a =>
      if a.takesValue then
        p.begin a (match cs with
          | [] => none
          | '=' :: value => some (String.ofList value)
          | value => some (String.ofList value))
      else do
        let p ← p.begin a none
        addShort l cs p

end Progress

/-- The word after its dashes. -/
inductive Word where
  | escape
  | long (rest : String)
  | short (letters : List Char)
  | plain

/-- A single dash is an ordinary word. -/
def Word.ofString (s : String) : Word :=
  match s.toList with
  | ['-', '-'] => .escape
  | '-' :: '-' :: rest => .long (String.ofList rest)
  | '-' :: c :: rest => .short (c :: rest)
  | _ => .plain

/-- A level as read: what was read, and the command that ended it with the words after it. -/
structure Reading (σ : Type) where
  progress : Progress σ
  command : Option (String × List String)

def Level.read {σ : Type} (l : Level σ) : Bool → Progress σ → List String →
    Except UsageError (Reading σ)
  | _, p, [] => .ok ⟨p, none⟩
  | true, p, word :: rest =>
    if l.commands.contains word then .error .unknownArgument
    else do
      let p ← p.addPositional l word
      l.read true p rest
  | false, p, word :: rest =>
    if !p.awaitsValue && l.commands.contains word then .ok ⟨p, some (word, rest)⟩
    else
      match Word.ofString word with
      | .escape => l.read true p rest
      | .long w => do
        let p ← p.addLong l w
        l.read false p rest
      | .short letters => do
        let p ← p.addShort l letters
        l.read false p rest
      | .plain => do
        let p ← match p.pending with
          | some (a, none) => .ok { p with pending := some (a, some word) }
          | _ => p.addPositional l word
        l.read false p rest

end CaptureAudit.CommandLine
