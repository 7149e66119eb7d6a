/-! Identity of a thread: its kernel tid, the text of a tid, its names, and the caches a thread
fills on first use. The first request for a tid caches it and registers the process's fork hook;
in a forked child the hook clears the caches of the one surviving thread and names it `main`, so
the child reports its own identity (`Self.forkChild`). The text of a tid is its decimal digits
right-aligned in a field of width five, then one space (`tidString`), and reading it back gives
the tid (`readTid`). -/
namespace ThreadKit

/-- A kernel thread id; `0` stands for no thread. -/
abbrev Tid := Nat

namespace Identity

/-- The name reported for the process's initial thread. -/
def mainName : String := "main"

/-- The name reported for a thread this library did not name. -/
def unknownName : String := "unknown"

/-- The OS label of a managed thread whose name is empty once NULs are dropped. -/
def defaultLabel : String := "LuteThread"

/-- The name a managed thread takes before its function runs: its object's name, or the default
label when that is empty. -/
def takenName (name : String) : String := if name.isEmpty then defaultLabel else name

theorem takenName_of_ne_empty {name : String} (h : name ≠ "") : takenName name = name := by
  simp [takenName, h]

/-- The name a managed thread takes once its function has returned. -/
def finishedName : String := "finished"

/-- The name a managed thread takes once its function has failed. -/
def crashedName : String := "crashed"

/-- The text of a tid: its decimal digits right-aligned in a field of width five, then a space. -/
def tidString (t : Tid) : String :=
  let digits := Nat.toDigits 10 t
  String.ofList (List.replicate (5 - digits.length) ' ' ++ digits ++ [' '])

/-- The value of a nonempty run of decimal digits. -/
def digitsValue? (cs : List Char) : Option Nat :=
  if cs ≠ [] ∧ cs.all Char.isDigit then
    some (cs.foldl (fun n c => 10 * n + (c.toNat - '0'.toNat)) 0)
  else none

/-- The tid written in a text, read after trimming the spaces around it. -/
def readTid (text : String) : Option Tid :=
  digitsValue? ((text.toList.dropWhile (· = ' ')).reverse.dropWhile (· = ' ')).reverse

/-- The label the OS is given for a managed thread: its name without NULs, or the default label
when nothing else is left. -/
def osLabel (name : String) : String :=
  let kept := name.toList.filter (· ≠ '\x00')
  if kept = [] then defaultLabel else String.ofList kept

/-- The caches one thread keeps about itself. -/
structure Cache where
  /-- The cached tid; `0` before the first request. -/
  tid : Tid := 0
  /-- The cached tid text; empty before the first request. -/
  text : String := ""
  /-- The name this library gave the thread, if any. -/
  name : Option String := none
  deriving Inhabited

/-- Identity state of a whole process. -/
structure Process where
  /-- The process id, which is also the kernel tid of its initial thread. -/
  pid : Tid
  /-- Whether the fork hook has been registered. -/
  hooked : Bool := false
  deriving Inhabited

/-- One thread as it knows itself: its kernel tid and its caches. -/
structure Self where
  kernel : Tid
  cache : Cache := {}
  deriving Inhabited

namespace Self

/-- The tid a thread reports, the thread after the request, and the process after it: a miss
fills the cache from the kernel and registers the fork hook. -/
def tid (s : Self) (p : Process) : Tid × Self × Process :=
  if s.cache.tid ≠ 0 then (s.cache.tid, s, p)
  else (s.kernel, { s with cache := { s.cache with tid := s.kernel } }, { p with hooked := true })

/-- The tid text a thread reports: formatted from its tid on the first request, cached after. -/
def text (s : Self) (p : Process) : String × Self × Process :=
  let (t, s, p) := s.tid p
  if s.cache.text = "" then
    let fresh := tidString t
    (fresh, { s with cache := { s.cache with text := fresh } }, p)
  else (s.cache.text, s, p)

/-- Whether the thread is its process's initial one: its tid is the process id. -/
def isMain (s : Self) (p : Process) : Bool × Self × Process :=
  let (t, s, p) := s.tid p
  (t == p.pid, s, p)

/-- The name a thread reports: the one this library gave it, else `main` on the initial thread
and `unknown` elsewhere. -/
def name (s : Self) (p : Process) : String × Self × Process :=
  match s.cache.name with
  | some n => (n, s, p)
  | none =>
    let (m, s, p) := s.isMain p
    (if m then mainName else unknownName, s, p)

/-- The thread after this library names it. -/
def rename (s : Self) (n : String) : Self :=
  { s with cache := { s.cache with name := some n } }

/-- The only thread of a child forked by thread `s`, with kernel tid `child`, and the child process.
The caches are inherited; a registered hook clears them, names the thread `main` and fetches its tid. -/
def forkChild (s : Self) (p : Process) (child : Tid) : Self × Process :=
  let inherited : Self := { kernel := child, cache := s.cache }
  let process : Process := { pid := child, hooked := p.hooked }
  if p.hooked then
    let cleared : Self := { kernel := child, cache := { name := some mainName } }
    let (_, s', p') := cleared.tid process
    (s', p')
  else (inherited, process)

end Self

/-- What the child of a fork finds out about itself. -/
structure ChildReport where
  tidChanged : Bool
  tidIsPid : Bool
  isMain : Bool
  name : String
  textFresh : Bool
  threadOk : Bool
  deriving Inhabited, DecidableEq

/-- What a fork reports: the child's findings, whether the child exited normally, and whether the
parent's tid is the one it had before. -/
structure ForkReport where
  child : ChildReport
  childExitedNormally : Bool
  parentTidUnchanged : Bool
  deriving Inhabited, DecidableEq

end Identity

end ThreadKit
