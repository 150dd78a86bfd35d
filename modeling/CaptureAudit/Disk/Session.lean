import CaptureAudit.Disk.Basic
import CaptureAudit.Event
import CaptureAudit.Timestamp.Basic

/-! What a program asks of the world around it, as a value: to read and write files, to look for
files, to learn its working directory and the time, and to tell of events. -/

namespace CaptureAudit

inductive Session (α : Type) : Type where
  | done (a : α)
  | read (path : String) (next : Except IoFault ByteArray → Session α)
  | write (path : String) (content : ByteArray) (next : Except IoFault Unit → Session α)
  | isFile (path : String) (next : Bool → Session α)
  | home (next : String → Session α)
  | now (next : Timestamp → Session α)
  | tell (event : Event) (next : Session α)

namespace Session

def bind {α β : Type} : Session α → (α → Session β) → Session β
  | .done a, f => f a
  | .read path next, f => .read path fun r => (next r).bind f
  | .write path content next, f => .write path content fun r => (next r).bind f
  | .isFile path next, f => .isFile path fun b => (next b).bind f
  | .home next, f => .home fun path => (next path).bind f
  | .now next, f => .now fun t => (next t).bind f
  | .tell event next, f => .tell event (next.bind f)

instance : Monad Session where
  pure := .done
  bind := bind

def readFile (path : String) : Session (Except IoFault ByteArray) :=
  .read path .done

def writeFile (path : String) (content : ByteArray) : Session (Except IoFault Unit) :=
  .write path content .done

def fileExists (path : String) : Session Bool :=
  .isFile path .done

def workingDirectory : Session String := .home .done

def time : Session Timestamp := .now .done

def note (event : Event) : Session Unit := .tell event (.done ())

def notes : List Event → Session Unit
  | [] => .done ()
  | e :: rest => .tell e (notes rest)

def readText (path : String) : Session (Except IoFault String) := do
  match ← readFile path with
  | .error fault => pure (.error fault)
  | .ok bytes =>
    match String.fromUTF8? bytes with
    | some s => pure (.ok s)
    | none => pure (.error .invalidText)

end Session

/-- The world of a session: a disk, a clock that stands still, and the events told, in order. -/
structure World where
  disk : Disk
  time : Timestamp
  events : List Event

def Session.run {α : Type} : Session α → World → α × World
  | .done a, w => (a, w)
  | .read path next, w => (next (w.disk.read path)).run w
  | .write path content next, w =>
    match w.disk.write path content with
    | .ok disk => (next (.ok ())).run { w with disk := disk }
    | .error fault => (next (.error fault)).run w
  | .isFile path next, w => (next (w.disk.isFile path)).run w
  | .home next, w => (next w.disk.homePath).run w
  | .now next, w => (next w.time).run w
  | .tell event next, w => next.run { w with events := w.events ++ [event] }

end CaptureAudit
