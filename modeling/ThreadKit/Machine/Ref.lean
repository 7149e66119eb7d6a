/-! Names of the things a script works with. A context is the script's main thread or one managed
thread. Mutexes, latches and conditions live in stores and are reached by their key; a lock is the
lock of a mutex or the one inside a latch, and a condition is a condition object or the one inside
a latch. A scope maps the ids a script writes to keys. -/
namespace ThreadKit

/-- Who runs: the script's main thread, or the managed thread of the `i`-th thread object. -/
inductive Ctx where
  | main
  | thread (i : Nat)
  deriving DecidableEq, Inhabited, Repr

/-- A lock: the lock of mutex `k`, or the lock inside latch `k`. -/
inductive LockRef where
  | mutex (k : Nat)
  | latch (k : Nat)
  deriving DecidableEq, Inhabited, Repr

/-- A condition: condition object `k`, or the condition inside latch `k`. -/
inductive CondRef where
  | cond (k : Nat)
  | latch (k : Nat)
  deriving DecidableEq, Inhabited, Repr

/-- The keys a context knows by name, one table per kind. -/
structure Scope where
  mutexes : List (String × Nat) := []
  latches : List (String × Nat) := []
  conds : List (String × Nat) := []
  threads : List (String × Nat) := []
  deriving Inhabited

namespace Scope

/-- Whether some id of the scope names mutex `k`. -/
def refersTo (s : Scope) (k : Nat) : Bool := s.mutexes.any (·.2 == k)

/-- The scope with `id` naming mutex `k`, in place of what it named before. -/
def bindMutex (s : Scope) (id : String) (k : Nat) : Scope :=
  { s with mutexes := (id, k) :: s.mutexes.filter (·.1 != id) }

/-- The scope without the id `id` of a mutex. -/
def forgetMutex (s : Scope) (id : String) : Scope :=
  { s with mutexes := s.mutexes.filter (·.1 != id) }

/-- The scope with `id` naming latch `k`. -/
def bindLatch (s : Scope) (id : String) (k : Nat) : Scope :=
  { s with latches := (id, k) :: s.latches.filter (·.1 != id) }

/-- The scope with `id` naming condition `k`. -/
def bindCond (s : Scope) (id : String) (k : Nat) : Scope :=
  { s with conds := (id, k) :: s.conds.filter (·.1 != id) }

/-- The scope with `id` naming thread object `i`. -/
def bindThread (s : Scope) (id : String) (i : Nat) : Scope :=
  { s with threads := (id, i) :: s.threads.filter (·.1 != id) }

/-- The scope without the thread id `id`. -/
def forgetThread (s : Scope) (id : String) : Scope :=
  { s with threads := s.threads.filter (·.1 != id) }

@[simp] theorem lookup_bindMutex_self (s : Scope) (id : String) (k : Nat) :
    (s.bindMutex id k).mutexes.lookup id = some k := by
  simp [bindMutex]

end Scope

end ThreadKit
