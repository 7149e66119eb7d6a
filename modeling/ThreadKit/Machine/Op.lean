import ThreadKit.Machine.Reply

/-! The atomic moves a context makes. A step of a script becomes a short list of them; each one
changes shared state at most once, so any interleaving of contexts is an interleaving of these
moves; an update of a value is a read and a later write. Locking is `acquire` (the OS lock, which waits while another context owns it) then
`assign` (record the holder, the guard is live); dropping a guard is `unassign` then `release`.
A condition wait is `vacate` (clear the holder), `park` (give the OS lock up and sleep, in one
move), `acquire` once woken, and `reclaim` (record the holder again). -/
namespace ThreadKit

/-- What an observation records as the reply of the step under way. -/
inductive Query where
  /-- The value of mutex `m`. -/
  | value (m : Nat)
  /-- The count of latch `k`. -/
  | count (k : Nat)
  /-- The debugging view of latch `k`. -/
  | latchDebug (k : Nat)
  /-- The value of mutex `m` after a wait, and whether the caller is its recorded holder. -/
  | waited (m : Nat)
  deriving Inhabited

/-- One atomic move of a context. -/
inductive Op where
  /-- Take the OS lock; waits while another context owns it. -/
  | acquire (l : LockRef)
  /-- Record the caller as holder; the guard is live from here on. -/
  | assign (l : LockRef)
  /-- The guard ends: clear the holder. -/
  | unassign (l : LockRef)
  /-- Give the OS lock up. -/
  | release (l : LockRef)
  /-- Enter a condition wait: clear the holder, the guard stays live. -/
  | vacate (l : LockRef)
  /-- Give the OS lock up and sleep on a condition, in one move. -/
  | park (c : CondRef) (l : LockRef)
  /-- Leave a condition wait: record the caller as holder again. -/
  | reclaim (l : LockRef)
  /-- Wait on `c` with the lock `l` while `p` holds of the value it guards. -/
  | waitWhile (c : CondRef) (l : LockRef) (p : Int → Bool)
  /-- Wake the context that has slept longest on a condition. -/
  | signal (c : CondRef)
  /-- Wake every context sleeping on a condition. -/
  | broadcast (c : CondRef)
  /-- Read the value of mutex `m`, whose OS lock the caller owns, into the caller's register. -/
  | read (m : Nat)
  /-- Write `f` of the caller's register into mutex `m`, whose OS lock the caller owns. -/
  | write (m : Nat) (f : Int64 → Int64)
  /-- Count a latch down, waking its waiters when the count reaches zero. -/
  | countDown (k : Nat)
  /-- The script keeps the caller's guard of mutex `m` after the step. -/
  | keep (m : Nat)
  /-- The script lets go of the caller's guard of mutex `m`. -/
  | unkeep (m : Nat)
  /-- Record the reply of the step under way. -/
  | note (q : Query)
  /-- The step under way is complete: its reply goes out. -/
  | complete
  /-- A new thread publishes its tid for the thread object `i`. -/
  | publish (i : Nat)
  /-- The calling thread takes a name. -/
  | rename (name : String)
  /-- The starter copies the published tid into thread object `i` and replies with it. -/
  | adopt (i : Nat)
  /-- Wait until the thread of object `i` has ended, then reply with its records. -/
  | awaitEnd (i : Nat)
  /-- Wait until the process clock reaches `deadline`, in microseconds. -/
  | pause (deadline : Nat)
  /-- Fork the process, the caller's tid having been `before`; the caller waits while its child
  runs, and replies with what the child found. -/
  | fork (before : Tid)
  /-- The context's function ends: normally, or with the failure that unwound it. -/
  | finish (f : Option Failure)
  deriving Inhabited

/-- The moves of a guard made and kept by the script. -/
def Op.lockKept (m : Nat) : List Op := [.acquire (.mutex m), .assign (.mutex m), .keep m]

/-- The moves that drop a guard the script kept. -/
def Op.unlockKept (m : Nat) : List Op := [.unkeep m, .unassign (.mutex m), .release (.mutex m)]

/-- The moves of `body` under a guard of `l` that lasts only for them. -/
def Op.scoped (l : LockRef) (body : List Op) : List Op :=
  [.acquire l, .assign l] ++ body ++ [.unassign l, .release l]

end ThreadKit
