import ThreadKit.Script.Step
import ThreadKit.Identity

/-! What a step answers. Tids stay numbers here; they become labels only when an answer is
written out, so a thread's records are labelled when they are shown, not when they are made. -/
namespace ThreadKit

/-- What `current` finds out about the calling thread. -/
structure CurrentReport where
  tid : Tid
  name : String
  isMain : Bool
  /-- The tid read back from the thread's tid text, if it reads as one. -/
  textTid : Option Tid
  /-- Whether the tid text is the tid right-aligned in five places, then a space. -/
  shape : Bool
  /-- The name the OS knows the thread by. -/
  osName : String
  deriving Inhabited

/-- What a thread object shows of itself. -/
structure ThreadView where
  name : String
  tid : Tid
  started : Bool
  joined : Bool
  deriving Inhabited

/-- The answer to one step. -/
inductive Reply where
  /-- Nothing to report. -/
  | empty
  /-- An integer value. -/
  | int (v : Int)
  /-- A truth value. -/
  | flag (b : Bool)
  /-- The recorded holder of a mutex. -/
  | holder (t : Tid)
  /-- A debugging view without tids. -/
  | text (s : String)
  /-- The debugging view of a mutex, which shows its holder. -/
  | mutexDebug (holder : Tid)
  /-- The value after a wait, and whether the waiter is the recorded holder. -/
  | waited (v : Int) (self : Bool)
  /-- What `current` found. -/
  | current (r : CurrentReport)
  /-- What a fork found. -/
  | fork (r : Identity.ForkReport)
  /-- A thread object just made. -/
  | made (v : ThreadView)
  /-- The tid of a thread just started. -/
  | started (t : Tid)
  /-- A thread object with its debugging view. -/
  | info (v : ThreadView)
  /-- The records of a joined thread whose function returned. -/
  | records (rs : List Reply)
  /-- The records of a joined thread that left its function early. -/
  | exited (rs : List Reply)
  /-- The class, message and fatality of a payload. -/
  | classified (f : Failure)
  /-- An exception just made, with the stack trace it captured. -/
  | exception (what : String) (trace : String)
  /-- A failure of the step, caught. -/
  | caught (f : Failure)
  /-- A step refused before it ran. -/
  | refused (e : Script.StepError)
  deriving Inhabited

end ThreadKit
