import ThreadKit.Failure

/-! Ends of the whole process: a managed thread whose function failed fatally, a mutex destroyed
while held, a thread the OS refused to create, and a broken invariant of a thread object. Each
writes a report on the error stream before the abort. The report is shown as lines, with two
masks that keep machine-dependent text out: everything from the last `stack trace: ` on becomes
`stack trace: <elided>`, and in each line the first `not held by thread ` is followed by `<tid>`
in place of the digits after it. -/
namespace ThreadKit

/-- Why the OS refused to create a thread. -/
inductive SpawnError where
  /-- No memory could be mapped for the stack. -/
  | noMemory
  /-- The stack size and its guard page overflow the 64-bit address width. -/
  | invalidSize
  deriving Inhabited, DecidableEq

/-- The text the OS gives for a refusal, with its error number. -/
def SpawnError.description : SpawnError → String
  | .noMemory => "Resource temporarily unavailable (os error 11)"
  | .invalidSize => "Invalid argument (os error 22)"

/-- Why the process aborted. -/
inductive Abort where
  /-- The function of the managed thread `thread` failed with `failure`. -/
  | contained (thread : String) (failure : Failure)
  /-- A mutex was destroyed while a thread was recorded as its holder. -/
  | destroyedWhileHeld
  /-- The OS refused to create a thread. -/
  | spawnRefused (e : SpawnError)
  /-- A thread object found its state broken. -/
  | invariant (what : String)
  deriving Inhabited, DecidableEq

namespace Abort

/-- The text written on the error stream before the abort, with tids in decimal, where `trace` is
the stack trace an exception carries. -/
def report (trace : String) : Abort → String
  | .contained thread (.raised what) =>
    "exception caught in Thread " ++ thread ++ "\nreason: " ++ what ++ "\nstack trace: " ++
      trace ++ "\n"
  | .contained thread (.panicked text) =>
    "exception caught in Thread " ++ thread ++ "\nreason: " ++ text ++ "\n"
  | .contained thread f@(.notHeld _) =>
    "exception caught in Thread " ++ thread ++ "\nreason: " ++ f.message toString ++ "\n"
  | .contained _ .exited => ""
  | .contained thread .other => "unknown exception caught in Thread " ++ thread ++ "\n"
  | .destroyedWhileHeld => "invariant violated: mutex destroyed while held\n"
  | .spawnRefused e => "Failed in pthread_create: " ++ e.description ++ "\n"
  | .invariant what => "invariant violated: " ++ what ++ "\n"

end Abort

namespace Report

/-- The position of the last occurrence of `marker` in a text, counting from `start`. -/
def lastMatch (marker : List Char) : List Char → Nat → Option Nat
  | [], _ => none
  | c :: rest, start =>
    match lastMatch marker rest (start + 1) with
    | some j => some j
    | none => if marker.isPrefixOf (c :: rest) then some start else none

/-- The marker of a stack trace. -/
def traceMarker : List Char := "stack trace: ".toList

/-- A text with everything from the last stack-trace marker on replaced by the marker and
`<elided>`. -/
def elideTrace (cs : List Char) : List Char :=
  match lastMatch traceMarker cs 0 with
  | some i => cs.take i ++ traceMarker ++ "<elided>".toList
  | none => cs

/-- The words a tid follows in an ownership message. -/
def tidMarker : List Char := "not held by thread ".toList

/-- A line with its first tid marker followed by `<tid>` in place of the digits right after it,
if there are any; the rest of the line is kept as it is. -/
def maskTids : List Char → List Char
  | [] => []
  | c :: rest =>
    if tidMarker.isPrefixOf (c :: rest) then
      tidMarker ++ "<tid>".toList ++ ((c :: rest).drop tidMarker.length).dropWhile Char.isDigit
    else c :: maskTids rest

/-- The lines of a text: it is cut at each line feed, a carriage return right before a line feed
belongs to the break, and a break at the very end opens no further line. -/
def splitLines (cs : List Char) : List (List Char) :=
  go cs []
where
  /-- The lines of `cs`, where `line` holds the reversed start of the current line. -/
  go : List Char → List Char → List (List Char)
    | [], [] => []
    | [], line => [line.reverse]
    | '\n' :: rest, line => (dropReturn line).reverse :: go rest []
    | c :: rest, line => go rest (c :: line)
  /-- A reversed line without the carriage return at its end, if it has one. -/
  dropReturn : List Char → List Char
    | '\r' :: line => line
    | line => line

/-- The lines of a report as they are shown: trace elided, then cut into lines, tids masked. -/
def lines (text : String) : List String :=
  (splitLines (elideTrace text.toList)).map fun line => String.ofList (maskTids line)

end Report

/-- The lines an abort shows, where `trace` is the stack trace an exception carries. -/
def Abort.lines (trace : String) (a : Abort) : List String := Report.lines (a.report trace)

end ThreadKit
