import ThreadKit.Identity

/-! Failures that unwind a step: raised exceptions, panics with a text, the panic of a failed
ownership assertion, the exit signal, and panics with a payload of another type. Each failure has
a kind, a message and a fatality; only the exit signal is not fatal (`isFatal_iff`). -/
namespace ThreadKit

/-- What a failing step unwinds with. -/
inductive Failure where
  /-- An exception, with the text it was raised with. -/
  | raised (what : String)
  /-- A panic whose payload is a text. -/
  | panicked (text : String)
  /-- The panic of an ownership assertion that failed on the thread with tid `t`. -/
  | notHeld (t : Tid)
  /-- The signal of a thread leaving its function early. -/
  | exited
  /-- A panic whose payload is neither an exception, a text nor the exit signal. -/
  | other
  deriving Inhabited, DecidableEq

namespace Failure

/-- The four classes a failure falls into. -/
inductive Kind where
  | exception
  | panic
  | exit
  | unknown
  deriving Inhabited, DecidableEq

/-- The word for a class of failures. -/
def Kind.word : Kind → String
  | .exception => "exception"
  | .panic => "panic"
  | .exit => "exit"
  | .unknown => "unknown"

/-- The class of a failure: exceptions first, then the exit signal, then texts, then the rest. -/
def kind : Failure → Kind
  | .raised _ => .exception
  | .exited => .exit
  | .panicked _ => .panic
  | .notHeld _ => .panic
  | .other => .unknown

/-- Whether a failure that leaves a managed thread ends the process. -/
def isFatal (f : Failure) : Bool := f.kind != .exit

/-- The message of a failure, with tids written by `showTid`. -/
def message (showTid : Tid → String) : Failure → String
  | .raised what => what
  | .panicked text => text
  | .notHeld t => "mutex not held by thread " ++ showTid t
  | .exited => "thread exited"
  | .other => "unknown panic"

theorem isFatal_iff (f : Failure) : f.isFatal = false ↔ f = .exited := by
  cases f <;> simp [isFatal, kind]

end Failure

end ThreadKit
