import ThreadKit.Machine.Op
import ThreadKit.Abort

/-! The state of a whole process running a script: what it runs on (`Host`), the mutexes, latches
and conditions, the thread objects with the contexts of the threads they started, the script's
main context, and the process-wide counters. Contexts are reached through `World.ctx?` and
replaced through `World.put`, locks through `World.lock?` and `World.modifyLock`. -/
namespace ThreadKit

/-- A lock: the context owning the OS lock, and the tid recorded as its holder (`0` for none). -/
structure LockCell where
  owner : Option Ctx := none
  holder : Tid := 0
  deriving Inhabited

/-- A mutex over a signed 64-bit value, with the value it was made with and the updates made to
it since, latest first. -/
structure MutexCell where
  lock : LockCell := {}
  value : Int64
  initial : Int64 := value
  updates : List (Int64 → Int64) := []
  deriving Inhabited

/-- A count-down latch: a lock and the count it guards, with the count it was made with and the
number of count-downs done under its lock so far. -/
structure LatchCell where
  lock : LockCell := {}
  count : Nat
  initial : Nat := count
  downs : Nat := 0
  deriving Inhabited

/-- How the function of a context ended. -/
inductive Ending where
  /-- It returned. -/
  | returned
  /-- It left early with the exit signal. -/
  | exited
  deriving Inhabited, DecidableEq

/-- One thread running steps: the script's main thread or a managed thread. -/
structure Context where
  self : Identity.Self
  /-- The name the OS knows the thread by. -/
  osName : String
  /-- The ids the context can name. -/
  scope : Scope
  /-- The mutexes whose guards the script keeps between steps. -/
  held : List Nat := []
  /-- The locks the context has live guards of. -/
  guards : List LockRef := []
  /-- The value last read from a mutex, which the next write starts from. -/
  loaded : Int64 := 0
  /-- The lock whose guard is inside a condition wait. -/
  waitingOn : Option LockRef := none
  /-- The condition the context sleeps on, with its ticket; earlier tickets wake first. -/
  parked : Option (CondRef × Nat) := none
  /-- The moves left of the step under way. -/
  code : List Op := []
  /-- The reply of the step under way. -/
  reply : Reply := .empty
  /-- The steps not yet begun. -/
  plan : List Script.Value := []
  /-- The replies of the steps done, latest first. -/
  out : List Reply := []
  ended : Option Ending := none
  deriving Inhabited

namespace Context

/-- The context after the step under way completes with reply `r`. -/
def answer (x : Context) (r : Reply) : Context := { x with out := r :: x.out, reply := .empty }

/-- The replies of the steps done, in order. -/
def replies (x : Context) : List Reply := x.out.reverse

/-- The tid the context reports, the context after the request and the process after it. -/
def requestTid (x : Context) (p : Identity.Process) : Tid × Context × Identity.Process :=
  let (t, s, p) := x.self.tid p
  (t, { x with self := s }, p)

end Context

/-- What the library runs on and for: the OS's answer to a request for a thread, the text of a
captured stack trace, and whether the program lets managed threads make, start, join and drop
thread objects, as a program may, or keeps that to main, as the test driver does. -/
structure Host where
  /-- Why the OS refuses a thread with the given stack size (`none` for std's default), if it
  does. -/
  refusal : Option Nat → Option SpawnError
  backtrace : String
  threadsManage : Bool

instance : Inhabited Host := ⟨{ refusal := fun _ => none, backtrace := "", threadsManage := false }⟩

/-- The host the scripts run on: a machine with 32939528 KiB of memory, whose OS refuses a stack
that, with its guard page of 4096 bytes, overflows a 64-bit word, or that is larger than the
memory, however little of it would be touched; a stack trace whose text never shows, being
elided from every report; and the test driver, which keeps thread objects to main. -/
def Host.tested : Host where
  refusal size := size.bind fun n =>
    if n + 4096 ≥ Nat.pow 2 64 then some .invalidSize
    else if n > 32939528 * 1024 then some .noMemory
    else none
  backtrace := "0: lute_base::exception::Exception::new"
  threadsManage := false

/-- The host of a program whose managed threads make, start, join and drop thread objects of
their own, on the tested machine. -/
def Host.program : Host := { Host.tested with threadsManage := true }

/-- A thread object and the managed thread it started. -/
structure Slot where
  /-- The script's id of the object, which labels the thread's tid once it is started. -/
  id : String
  name : String
  stackSize : Option Nat
  started : Bool := false
  joined : Bool := false
  /-- The tid of the started thread; `0` before start. -/
  tid : Tid := 0
  /-- The function before start: the actions and the scope they captured; gone once started
  or dropped. -/
  program : Option (List Script.Value × Scope)
  /-- The tid the started thread publishes for the starter. -/
  published : Tid := 0
  /-- The context of the started thread. -/
  ctx : Option Context := none
  /-- The latch of the start handshake, which the starter waits on and the started thread counts
  down; the script cannot name it. -/
  latch : Option Nat := none
  /-- Whether the object keeps the handle of its thread, which a join takes and a drop lets go. -/
  handle : Bool := false
  deriving Inhabited

/-- What a thread object shows. -/
def Slot.view (s : Slot) : ThreadView :=
  { name := s.name, tid := s.tid, started := s.started, joined := s.joined }

/-- The state of a process running a script. -/
structure World where
  host : Host
  process : Identity.Process
  mutexes : Array MutexCell := #[]
  latches : Array LatchCell := #[]
  /-- The number of conditions made so far; they have no state of their own. -/
  conds : Nat := 0
  slots : Array Slot := #[]
  main : Context
  /-- The number of thread objects made so far. -/
  created : Nat := 0
  /-- The next kernel tid to hand out. -/
  nextTid : Tid
  /-- The next ticket of a context that goes to sleep. -/
  ticket : Nat := 0
  /-- The time in microseconds since the process began, as far as timed pauses can tell: it
  moves on only when every context that can still run waits for it. -/
  clock : Nat := 0
  /-- The label of each started thread's tid, latest first. -/
  labels : List (Tid × String) := []
  abort : Option Abort := none
  deriving Inhabited

namespace World

/-- The process id of a fresh process. -/
def pid : Tid := 1000

/-- A fresh process on `host` whose main thread is to run `steps`. -/
def init (host : Host) (steps : List Script.Value) : World :=
  { host
    process := { pid }
    main := { self := { kernel := pid }, osName := Identity.mainName, scope := {}, plan := steps }
    nextTid := pid + 1 }

/-- Every context, managed threads in creation order first, main last. -/
def contexts (w : World) : List Ctx := (List.range w.slots.size).map .thread ++ [.main]

/-- The context `c`, if it exists. -/
def ctx? (w : World) : Ctx → Option Context
  | .main => some w.main
  | .thread i => w.slots[i]?.bind (·.ctx)

/-- The world with thread object `i` changed by `f`. -/
def modifySlot (w : World) (i : Nat) (f : Slot → Slot) : World :=
  { w with slots := w.slots.modify i f }

/-- The world with context `c` replaced by `x`. -/
def put (w : World) : Ctx → Context → World
  | .main, x => { w with main := x }
  | .thread i, x => w.modifySlot i fun s => { s with ctx := some x }

/-- The lock `l`, if it exists. -/
def lock? (w : World) : LockRef → Option LockCell
  | .mutex k => w.mutexes[k]?.map (·.lock)
  | .latch k => w.latches[k]?.map (·.lock)

/-- The world with mutex `m` changed by `f`. -/
def modifyMutex (w : World) (m : Nat) (f : MutexCell → MutexCell) : World :=
  { w with mutexes := w.mutexes.modify m f }

/-- The world with latch `k` changed by `f`. -/
def modifyLatch (w : World) (k : Nat) (f : LatchCell → LatchCell) : World :=
  { w with latches := w.latches.modify k f }

/-- The world with lock `l` changed by `f`. -/
def modifyLock (w : World) (l : LockRef) (f : LockCell → LockCell) : World :=
  match l with
  | .mutex k => w.modifyMutex k fun m => { m with lock := f m.lock }
  | .latch k => w.modifyLatch k fun c => { c with lock := f c.lock }

/-- Whether context `c` owns the OS lock `l`. -/
def owns (w : World) (l : LockRef) (c : Ctx) : Bool := (w.lock? l).any (·.owner == some c)

/-- The value of mutex `m`. -/
def value (w : World) (m : Nat) : Int64 := (w.mutexes[m]?.map (·.value)).getD 0

/-- The world after update `f` of mutex `m` left it holding `v`. -/
def update (w : World) (m : Nat) (f : Int64 → Int64) (v : Int64) : World :=
  w.modifyMutex m fun c => { c with value := v, updates := f :: c.updates }

/-- The world with the value of mutex `m` changed by `f`. -/
def modifyValue (w : World) (m : Nat) (f : Int64 → Int64) : World :=
  w.modifyMutex m fun c => { c with value := f c.value, updates := f :: c.updates }

/-- The count of latch `k`. -/
def count (w : World) (k : Nat) : Nat := (w.latches[k]?.map (·.count)).getD 0

/-- The value lock `l` guards, as an integer. -/
def guarded (w : World) : LockRef → Int
  | .mutex m => (w.value m).toInt
  | .latch k => w.count k

/-- The holder recorded in lock `l`. -/
def holder (w : World) (l : LockRef) : Tid := ((w.lock? l).map (·.holder)).getD 0

/-- The context sleeping on condition `cv` with the earliest ticket. -/
def sleeper? (w : World) (cv : CondRef) : Option Ctx :=
  (w.contexts.foldl (fun best c =>
    match (w.ctx? c).bind (·.parked) with
    | some (d, n) =>
      if d = cv then
        match best with
        | some (_, m) => if n < m then some (c, n) else best
        | none => some (c, n)
      else best
    | none => best) none).map (·.1)

/-- The world with context `c` woken from its sleep. -/
def wake (w : World) (c : Ctx) : World :=
  match w.ctx? c with
  | some x => w.put c { x with parked := none }
  | none => w

/-- Wake the context that has slept longest on `cv`, if one sleeps on it. -/
def signal (w : World) (cv : CondRef) : World :=
  match w.sleeper? cv with
  | some c => w.wake c
  | none => w

/-- Wake every context sleeping on `cv`. -/
def broadcast (w : World) (cv : CondRef) : World :=
  w.contexts.foldl (fun w c =>
    if ((w.ctx? c).bind (·.parked)).any (·.1 == cv) then w.wake c else w) w

/-- Whether a thread that has not ended, started or not, can still name mutex `k`. -/
def sharedWithThread (w : World) (k : Nat) : Bool :=
  w.slots.any fun s =>
    (s.program.any fun p => p.2.refersTo k) ||
      (s.ctx.any fun x => x.ended.isNone && x.scope.refersTo k)

/-- Whether anything can still name mutex `k`. -/
def referenced (w : World) (k : Nat) : Bool := w.main.scope.refersTo k || w.sharedWithThread k

/-- The world after references to the mutexes `keys` were dropped: a mutex nothing names any more
is destroyed, and destroying one whose holder is recorded aborts the process. -/
def dropRefs (w : World) (keys : List Nat) : World :=
  if keys.any fun k => !w.referenced k && w.holder (.mutex k) != 0 then
    { w with abort := some .destroyedWhileHeld }
  else w

/-- The world after the owner of the thread objects `keys` let go of them: one not yet started
loses its function, a started one the handle of its thread. -/
def release (w : World) (keys : List Nat) : World :=
  keys.foldl (fun w i => w.modifySlot i fun s => { s with program := none, handle := false }) w

/-- The mutexes the functions of the thread objects `keys` name. -/
def capturedBy (w : World) (keys : List Nat) : List Nat :=
  keys.flatMap fun i => ((w.slots[i]?.bind (·.program)).map fun p => p.2.mutexes.map (·.2)).getD []

/-- The label a tid is shown with: `0`, `main`, the id of the thread object that started it, or
`other`. -/
def label (w : World) (t : Tid) : String :=
  if t = 0 then "0"
  else if t = w.process.pid then "main"
  else (w.labels.lookup t).getD "other"

@[simp] theorem ctx_put_self (w : World) (c : Ctx) (x : Context) (h : (w.ctx? c).isSome) :
    (w.put c x).ctx? c = some x := by
  cases c with
  | main => rfl
  | thread i =>
    simp only [ctx?, Option.isSome_bind] at h
    simp only [put, modifySlot, ctx?, Array.getElem?_modify]
    cases hs : w.slots[i]? with
    | none => simp [hs] at h
    | some s => simp

end World

end ThreadKit
