import CaptureAudit.Event
import CaptureAudit.Examples
import CaptureAudit.Outcome

/-! What the implementation of a check does, as a value: it records evidence, tells of events, looks
whether the analysis is cancelled, cancels it, and ends with an outcome, an error or a panic. -/

namespace CaptureAudit

inductive Script (α : Type) : Type where
  | done (a : α)
  /-- An error, as the messages from the outermost to its root. -/
  | fail (chain : List String)
  /-- A panic, with its message when it has one. -/
  | panic (message : Option String)
  | add (example_ : String) (next : Script α)
  | setError (text : String) (next : Script α)
  | tell (event : Event) (next : Script α)
  /-- Look at the evidence recorded so far. -/
  | look (next : Examples → Script α)
  | poll (next : Bool → Script α)
  | cancel (next : Script α)

namespace Script

def bind {α β : Type} : Script α → (α → Script β) → Script β
  | .done a, f => f a
  | .fail chain, _ => .fail chain
  | .panic message, _ => .panic message
  | .add e next, f => .add e (next.bind f)
  | .setError text next, f => .setError text (next.bind f)
  | .tell event next, f => .tell event (next.bind f)
  | .look next, f => .look fun e => (next e).bind f
  | .poll next, f => .poll fun b => (next b).bind f
  | .cancel next, f => .cancel (next.bind f)

instance : Monad Script where
  pure := .done
  bind := bind

def record (text : String) : Script Unit := .add text (.done ())

def complain (text : String) : Script Unit := .setError text (.done ())

def note (event : Event) : Script Unit := .tell event (.done ())

def evidence : Script Examples := .look .done

end Script

/-- The error of everything that cancellation cuts short. -/
def cancelledError : String := "analysis cancelled"

def Script.checkpoint : Script Unit :=
  .poll fun cancelled => if cancelled then .fail [cancelledError] else .done ()

inductive Ending where
  | outcome (o : Outcome)
  | error (chain : List String)
  | panic (message : Option String)
  deriving DecidableEq

/-- What a script leaves behind: its evidence, its events, whether the analysis is cancelled, and
how often it was polled. -/
structure Trace where
  examples : Examples
  events : List Event
  cancelled : Bool
  polls : Nat

def Trace.fresh (limit : UInt64) (cancelled : Bool) : Trace :=
  { examples := .empty limit, events := [], cancelled, polls := 0 }

/-- Carry out a script. A poll finds the analysis cancelled when a script cancelled it, or when
`signal` says so for the number of polls before this one. -/
def Script.run (signal : Nat → Bool) : Script Outcome → Trace → Ending × Trace
  | .done o, t => (.outcome o, t)
  | .fail chain, t => (.error chain, t)
  | .panic message, t => (.panic message, t)
  | .add e next, t => next.run signal { t with examples := t.examples.add e }
  | .setError text next, t => next.run signal { t with examples := t.examples.setError text }
  | .tell event next, t => next.run signal { t with events := t.events ++ [event] }
  | .look next, t => (next t.examples).run signal t
  | .poll next, t =>
    (next (t.cancelled || signal t.polls)).run signal { t with polls := t.polls + 1 }
  | .cancel next, t => next.run signal { t with cancelled := true }

/-- A script after one step: it has ended, or there is more to do. -/
inductive Stage where
  | ended (e : Ending)
  | going (rest : Script Outcome) (t : Trace)

/-- Carry out one step of a script. A poll finds the analysis cancelled when `fired` says so. -/
def Script.step (fired : Bool) : Script Outcome → Trace → Stage
  | .done o, _ => .ended (.outcome o)
  | .fail chain, _ => .ended (.error chain)
  | .panic message, _ => .ended (.panic message)
  | .add e next, t => .going next { t with examples := t.examples.add e }
  | .setError text next, t => .going next { t with examples := t.examples.setError text }
  | .tell event next, t => .going next { t with events := t.events ++ [event] }
  | .look next, t => .going (next t.examples) t
  | .poll next, t => .going (next (t.cancelled || fired)) { t with polls := t.polls + 1 }
  | .cancel next, t => .going next { t with cancelled := true }

end CaptureAudit
