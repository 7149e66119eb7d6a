import ThreadKit.Script.Value
import ThreadKit.Machine.Ref
import ThreadKit.Failure

/-! Steps of a script and how they are read. A step is an object whose `op` member names it; its
other members are read in a fixed order, each either into a typed value or into the key of a
named mutex, latch, condition or thread, and the first member that does not fit decides the
error. Integers are plain numerals in the range of their type. Inside a managed thread, the steps
that create, drop or inspect objects are refused before any member is read. -/
namespace ThreadKit.Script

/-- Why a step was refused instead of run. -/
inductive StepError where
  /-- A member is missing or does not fit, with the message saying which. -/
  | badInput (message : String)
  /-- An id that names nothing of its kind. -/
  | unknownId (id : String)
  /-- An id that already names something of its kind. -/
  | duplicateId (id : String)
  /-- The context holds no guard of the mutex with this id. -/
  | notHeld (id : String)
  /-- The context already holds a guard of the mutex it asked to lock. -/
  | deadlock
  /-- The mutex is locked by a guard of the context itself. -/
  | guardBorrow
  /-- The mutex is also referenced by a managed thread. -/
  | shared
  deriving Inhabited, DecidableEq

/-- An id as written, with the key it names. -/
structure Named where
  id : String
  key : Nat
  deriving Inhabited, DecidableEq

/-- The six comparisons a wait can test. -/
inductive Cmp where
  | lt | le | gt | ge | eq | ne
  deriving Inhabited, DecidableEq

/-- Whether `a` stands in relation `c` to `b`, as signed integers. -/
def Cmp.holds : Cmp → Int → Int → Bool
  | .lt, a, b => decide (a < b)
  | .le, a, b => decide (a ≤ b)
  | .gt, a, b => decide (a > b)
  | .ge, a, b => decide (a ≥ b)
  | .eq, a, b => a == b
  | .ne, a, b => a != b

/-- What a `thread_new` step asks for. -/
structure ThreadSpec where
  id : String
  /-- The name given, empty when none is. -/
  name : String
  actions : List Value
  builder : Bool
  stackSize : Option Nat
  /-- The mutexes, latches and conditions the actions name, as they are named now. -/
  captured : Scope

/-- A step, read and resolved. -/
inductive Step where
  | lock (m : Named)
  | unlock (m : Named)
  | get (m : Named)
  | set (m : Named) (v : Int64)
  | add (m : Named) (v : Int64) (times : Nat)
  | holder (m : Named)
  | isLocked (m : Named)
  | assertLocked (m : Named)
  | mutexDebug (m : Named)
  | guardDebug (m : Named)
  | countDown (l : Named)
  | wait (l : Named)
  | count (l : Named)
  | latchDebug (l : Named)
  | notify (c : Named)
  | notifyAll (c : Named)
  | condDebug (c : Named)
  | waitWhile (c : Named) (m : Named) (cmp : Cmp) (v : Int64)
  | current
  | sleep (usec : Int)
  | fail (f : Failure)
  | fork
  | mutexNew (id : String) (v : Int64)
  | mutexDrop (m : Named)
  | getMut (m : Named) (set : Option Int64)
  | latchNew (id : String) (count : Nat)
  | condNew (id : String)
  | threadNew (spec : ThreadSpec)
  | threadStart (t : Named)
  | threadJoin (t : Named)
  | threadInfo (t : Named)
  | threadDrop (t : Named)
  | numCreated
  | classify (f : Failure)
  | exceptionNew (what : String)

/-- Reading a step either gives a value or refuses the step. -/
abbrev Read := Except StepError

namespace Read

/-- A refusal for a member that is missing or does not fit. -/
def bad {α : Type} (message : String) : Read α := .error (.badInput message)

/-- The string member `field`. -/
def text (v : Value) (field : String) : Read String :=
  match (v.get? field).bind Value.string? with
  | some s => pure s
  | none => bad ("missing string field " ++ field)

/-- The signed 64-bit member `field`, if present. -/
def int64? (v : Value) (field : String) : Read (Option Int64) :=
  match v.get? field with
  | none => pure none
  | some x =>
    match x.integer? with
    | some n => if -Int.ofNat (Nat.pow 2 63) ≤ n ∧ n < Int.ofNat (Nat.pow 2 63) then pure (some (Int64.ofInt n))
      else bad ("field " ++ field ++ " is not a 64-bit integer")
    | none => bad ("field " ++ field ++ " is not a 64-bit integer")

/-- The unsigned 64-bit member `field`, if present. -/
def nat64? (v : Value) (field : String) : Read (Option Nat) :=
  match v.get? field with
  | none => pure none
  | some x =>
    match x.integer? with
    | some n => if 0 ≤ n ∧ n < Int.ofNat (Nat.pow 2 64) then pure (some n.toNat)
      else bad ("field " ++ field ++ " is not an unsigned 64-bit integer")
    | none => bad ("field " ++ field ++ " is not an unsigned 64-bit integer")

/-- A member that must be present, refused as `missing <what>` otherwise. -/
def need {α : Type} (what : String) : Option α → Read α
  | some a => pure a
  | none => bad ("missing " ++ what)

/-- The key that the string member `field` names in `table`. -/
def named (table : List (String × Nat)) (v : Value) (field : String) : Read Named := do
  let id ← text v field
  match table.lookup id with
  | some k => pure ⟨id, k⟩
  | none => .error (.unknownId id)

/-- The comparison a name stands for. -/
def cmp : String → Read Cmp
  | "lt" => pure .lt
  | "le" => pure .le
  | "gt" => pure .gt
  | "ge" => pure .ge
  | "eq" => pure .eq
  | "ne" => pure .ne
  | other => bad ("unknown comparison " ++ other)

/-- The payload a `classify` step describes. The payload member counts as present even when it
is `null`; a numeric payload's value must fit its type's reading. -/
def payload (v : Value) : Read Failure := do
  let p ← need "payload" (v.member? "payload")
  match ← text p "type" with
  | "exception" => return .raised (← text p "message")
  | "str" => return .panicked (← text p "message")
  | "string" => return .panicked (← text p "message")
  | "exit" => return .exited
  | "u32" => do
    let _ ← nat64? p "value"
    return .other
  | "i64" => do
    let _ ← int64? p "value"
    return .other
  | "unit" => return .other
  | other => bad ("unknown payload type " ++ other)

/-- The thread ids a script may not use. -/
def reserved (id : String) : Bool := id == "main" || id == "0" || id == "other"

/-- The scope that a thread's actions capture: every string member `mutex`, `latch` or `cond`
of every action, looked up in `scope` in the order of the actions and of those members. -/
def captures (scope : Scope) : List Value → Read Scope
  | [] => pure {}
  | a :: rest => do
    let ms ← grab scope.mutexes a "mutex"
    let ls ← grab scope.latches a "latch"
    let cs ← grab scope.conds a "cond"
    let more ← captures scope rest
    pure { more with mutexes := ms ++ more.mutexes, latches := ls ++ more.latches,
                     conds := cs ++ more.conds }
where
  /-- The binding the member `field` of one action asks for, if it is a string. -/
  grab (table : List (String × Nat)) (a : Value) (field : String) : Read (List (String × Nat)) :=
    match (a.get? field).bind Value.string? with
    | none => pure []
    | some id =>
      match table.lookup id with
      | some k => pure [(id, k)]
      | none => .error (.unknownId id)

/-- What a `thread_new` step asks for. Its members are read in the order id, actions (and the
objects they capture), stack size, name; a stack size without the builder is refused last. -/
def threadSpec (scope : Scope) (v : Value) : Read ThreadSpec := do
  let id ← text v "id"
  if reserved id then bad "reserved thread id"
  else if (scope.threads.lookup id).isSome then .error (.duplicateId id)
  else
    let actions ← match v.get? "actions" with
      | none => pure []
      | some a => match a.items? with
        | some xs => pure xs
        | none => bad "actions is not an array"
    let captured ← captures scope actions
    let stackSize ← nat64? v "stack_size"
    let name ← match v.get? "name" with
      | none => pure ""
      | some n => match n.string? with
        | some s => pure s
        | none => bad "name is not a string"
    let builder := (v.get? "builder").any Value.isTrue
    if stackSize.isSome && !builder then bad "stack_size needs builder"
    else pure { id, name, actions, builder, stackSize, captured }

/-- A fresh id for a table, refused when it already names something there. -/
def fresh (table : List (String × Nat)) (v : Value) : Read String := do
  let id ← text v "id"
  if (table.lookup id).isSome then .error (.duplicateId id) else pure id

/-- The steps that only the script's main thread may run. -/
def mainOnly (op : String) : Bool :=
  ["mutex_new", "mutex_drop", "get_mut", "latch_new", "cond_new", "thread_new", "thread_start",
    "thread_join", "thread_info", "thread_drop", "num_created", "classify",
    "exception_new"].contains op

/-- The steps on thread objects, which a program may let managed threads run too. -/
def managesThreads (op : String) : Bool :=
  ["thread_new", "thread_start", "thread_join", "thread_info", "thread_drop",
    "num_created"].contains op

/-- The most iterations one `add` step may ask for. -/
def maxTimes : Nat := 200000

/-- The longest sleep one step may ask for, in microseconds. -/
def maxSleep : Int := 100000

end Read

open Read in
/-- Read a step in scope `s`, by a context that keeps guards of the mutexes `held`; `inThread`
tells whether a managed thread runs it, and `manage` whether managed threads may run the steps on
thread objects. A `get_mut` of a mutex in `held` is refused as soon as its id is read, before its
other members; a comparison of `wait_while` is named before the value and checked after it. -/
def Step.read (s : Scope) (held : List Nat) (inThread manage : Bool) (v : Value) : Read Step := do
  let op ← text v "op"
  if inThread && mainOnly op && !(manage && managesThreads op) then
    bad ("op " ++ op ++ " not allowed in a thread")
  else
  let mutex := named s.mutexes v "mutex"
  let latch := named s.latches v "latch"
  let cond := named s.conds v "cond"
  let thread := named s.threads v "thread"
  match op with
  | "lock" => return .lock (← mutex)
  | "unlock" => return .unlock (← mutex)
  | "get" => return .get (← mutex)
  | "set" => do
    let m ← mutex
    return .set m (← need "value" (← int64? v "value"))
  | "add" => do
    let m ← mutex
    let value := (← int64? v "value").getD 1
    let times := (← nat64? v "times").getD 1
    if times > maxTimes then bad "times above 200000" else return .add m value times
  | "holder" => return .holder (← mutex)
  | "is_locked" => return .isLocked (← mutex)
  | "assert_locked" => return .assertLocked (← mutex)
  | "mutex_debug" => return .mutexDebug (← mutex)
  | "guard_debug" => return .guardDebug (← mutex)
  | "count_down" => return .countDown (← latch)
  | "wait" => return .wait (← latch)
  | "count" => return .count (← latch)
  | "latch_debug" => return .latchDebug (← latch)
  | "notify" => return .notify (← cond)
  | "notify_all" => return .notifyAll (← cond)
  | "cond_debug" => return .condDebug (← cond)
  | "wait_while" => do
    let c ← cond
    let m ← mutex
    let name ← text v "cmp"
    let value ← need "value" (← int64? v "value")
    return .waitWhile c m (← Read.cmp name) value
  | "current" => return .current
  | "sleep" => do
    let usec ← need "usec" (← int64? v "usec")
    if usec.toInt > maxSleep then bad "usec above 100000" else return .sleep usec.toInt
  | "raise" => return .fail (.raised (← text v "message"))
  | "panic" => return .fail (.panicked (← text v "message"))
  | "panic_any" => do
    let _ ← nat64? v "value"
    return .fail .other
  | "exit" => return .fail .exited
  | "fork" => return .fork
  | "mutex_new" => do
    let id ← fresh s.mutexes v
    let value ← int64? v "value"
    let byDefault := (v.get? "default").any Value.isTrue
    return .mutexNew id (if byDefault then 0 else value.getD 0)
  | "mutex_drop" => return .mutexDrop (← mutex)
  | "get_mut" => do
    let id ← text v "mutex"
    if (s.mutexes.lookup id).any held.contains then .error .guardBorrow
    else
      let set ← int64? v "set"
      return .getMut (← mutex) set
  | "latch_new" => do
    let id ← fresh s.latches v
    return .latchNew id (← need "count" (← nat64? v "count"))
  | "cond_new" => return .condNew (← fresh s.conds v)
  | "thread_new" => return .threadNew (← threadSpec s v)
  | "thread_start" => return .threadStart (← thread)
  | "thread_join" => return .threadJoin (← thread)
  | "thread_info" => return .threadInfo (← thread)
  | "thread_drop" => return .threadDrop (← thread)
  | "num_created" => return .numCreated
  | "classify" => return .classify (← payload v)
  | "exception_new" => return .exceptionNew (← text v "message")
  | other => bad ("unknown op " ++ other)

end ThreadKit.Script
