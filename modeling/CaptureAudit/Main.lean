import CaptureAudit.CommandLine.Basic
import CaptureAudit.Program.Basic
import Std.Time.DateTime

/-! The program on a real machine. -/

namespace CaptureAudit

/-- The fault that an error of the system stands for. -/
def faultOf (e : IO.Error) : IoFault :=
  match e with
  | .noFileOrDirectory _ _ _ => .noSuchFile
  | .inappropriateType _ 20 _ => .notADirectory
  | .inappropriateType _ 21 _ => .isADirectory
  | .invalidArgument _ 36 _ => .nameTooLong
  | e => .other (toString e)

def attempt {α : Type} (action : IO α) : IO (Except IoFault α) := do
  try
    let a ← action
    pure (.ok a)
  catch e => pure (.error (faultOf e))

/-- A moment by its nanoseconds since the beginning of 1970. -/
def momentOf (nanoseconds : Nat) : Timestamp :=
  let seconds := nanoseconds / 1000000000
  let (year, month, day) := dateOfDay (dayNumber 1970 1 1 + (seconds / 86400 : Nat))
  let inDay := seconds % 86400
  let civil : Civil :=
    ⟨year, month, day, inDay / 3600, inDay / 60 % 60, inDay % 60, nanoseconds % 1000000000⟩
  if h : civil.Valid then ⟨civil, h⟩ else Report.epoch

def printEvent (e : Event) : IO Unit :=
  e.lines.forM IO.eprintln

/-- Carry out a session; events below the level are not printed. -/
def Session.perform {α : Type} (level : Level) : Session α → IO α
  | .done a => pure a
  | .read path next => do
    let found ← attempt (IO.FS.readBinFile path)
    (next found).perform level
  | .write path content next => do
    let written ← attempt (IO.FS.writeBinFile path content)
    (next written).perform level
  | .isFile path next => do
    let found ← attempt (IO.FS.readBinFile path)
    (next found.toBool).perform level
  | .home next => do
    let directory ← IO.currentDir
    (next (toString directory)).perform level
  | .now next => do
    let now ← Std.Time.Timestamp.now
    (next (momentOf now.toNanosecondsSinceUnixEpoch.val.toNat)).perform level
  | .tell event next => do
    if event.isAtLeast level then printEvent event
    next.perform level

/-- The names of the variables that a configuration reads are not known beforehand, so they are
looked for among those of the process. -/
def environment : IO (List (String × String)) := do
  match ← attempt (IO.FS.readBinFile "/proc/self/environ") with
  | .error _ => pure []
  | .ok bytes =>
    let words := Text.split '\x00' (String.ofList (Text.replaceStray bytes.data.toList))
    pure (words.filterMap (Text.splitFirst? '='))

/-- The processors that the process may run on, by the digits of their mask. -/
def processors : IO (Option Nat) := do
  match ← attempt (IO.FS.readFile "/proc/self/status") with
  | .error _ => pure none
  | .ok status =>
    let members := (Text.split '\n' status).filterMap (Text.splitFirst? ':')
    let bits (mask : String) : List Nat :=
      (mask.toList.filterMap Json.hexDigit?).flatMap fun d => (List.range 4).filter d.testBit
    pure ((members.lookup "Cpus_allowed").map fun mask => (bits mask).length)

end CaptureAudit

open CaptureAudit in
/-- Read the command line, carry out the command, print what it leaves, and end with its status. -/
def main (arguments : List String) : IO UInt32 := do
  match CommandLine.read arguments with
  | .error .help => do
    IO.println "Usage: audit-analyze [OPTIONS] <analyze|checks|view>"
    pure 0
  | .error e => do
    IO.eprint e.message
    pure 2
  | .ok invocation => do
    let level := if invocation.verbose then Level.debug else Level.info
    let completion ← (runProgram invocation (← environment) (← processors)).perform level
    IO.print completion.output
    if let some f := completion.failure then IO.eprint f.report
    pure (UInt32.ofNat completion.status)
