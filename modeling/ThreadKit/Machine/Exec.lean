import ThreadKit.Machine.World

/-! One move of one context. Each move checks what it needs and does nothing when that does not
hold, so every move keeps the bookkeeping of locks consistent on its own: a holder is recorded
only by the context owning the OS lock (`assign`, `reclaim`), and the OS lock is given up only by
a context whose guard of it has ended (`release`) or that sleeps on a condition (`park`). The
only moves that wait are `acquire`, while another context owns the lock, `awaitEnd`, while the
awaited thread runs, and `pause`, until the clock reaches its deadline (`waits`); every other move
can always be made. -/
namespace ThreadKit

/-- Whether answering a query asks for the caller's tid. -/
def Query.needsTid : Query → Bool
  | .waited _ => true
  | _ => false

namespace World

/-- The reply a query finds when asked by the thread with tid `t`. -/
def query (w : World) (t : Tid) : Query → Reply
  | .value m => .int (w.value m).toInt
  | .count k => .int (w.count k)
  | .latchDebug k => .text ("CountDownLatch \x7b count: " ++ toString (w.count k) ++ " \x7d")
  | .waited m => .waited (w.value m).toInt (w.holder (.mutex m) == t)

/-- The world after context `c`, which owns the OS lock `l`, records its tid as holder. -/
def record (w : World) (c : Ctx) (x : Context) (l : LockRef) (f : Context → Context) : World :=
  let (t, x, p) := x.requestTid w.process
  ({ w with process := p }.put c (f x)).modifyLock l fun cell => { cell with holder := t }

/-- The world after the function of context `c` ended, normally or with failure `f`. The
function lets go of all it names: its thread objects not yet started lose their functions and its
started ones their handles, and the mutexes it and those functions named go, which may destroy a
held mutex; then a fatal failure of a managed thread ends the process. -/
def finish (w : World) (c : Ctx) (x : Context) (f : Option Failure) : World :=
  let owned := x.scope.threads.map (·.2)
  match c with
  | .main =>
    let w := (w.put c { x with scope := {}, ended := some .returned }).release owned
    w.dropRefs (List.range w.mutexes.size)
  | .thread i =>
    let name := if f.isSome then Identity.crashedName else Identity.finishedName
    let ending := if f.isSome then Ending.exited else Ending.returned
    let y := { x with scope := {}, self := x.self.rename name, ended := some ending }
    let w := ((w.put c y).release owned).dropRefs
      (x.scope.mutexes.map (·.2) ++ w.capturedBy owned)
    match f with
    | some f =>
      if w.abort.isNone && f.isFatal then
        { w with abort := some (.contained ((w.slots[i]?.map (·.name)).getD "") f) }
      else w
    | none => w

/-- Whether a move must wait: an `acquire` while some context owns the lock, an `awaitEnd`
while the awaited thread runs, a `pause` before its deadline, or a `fork`, which the child's run
ends (`World.run`, `Moves.fork`). -/
def waits (w : World) : Op → Bool
  | .acquire l => (w.lock? l).any (·.owner.isSome)
  | .awaitEnd i => ((w.slots[i]?).bind (·.ctx)).any (·.ended.isNone)
  | .pause deadline => w.clock < deadline
  | .fork _ => true
  | _ => false

/-- The world after context `c`, in state `x` with the move already taken off its code, makes
move `op`, which does not wait (`waits`). -/
def exec (w : World) (c : Ctx) (x : Context) : Op → World
  | .acquire l => (w.put c x).modifyLock l fun cell => { cell with owner := some c }
  | .assign l =>
    if w.owns l c then w.record c x l fun x => { x with guards := l :: x.guards }
    else w.put c x
  | .unassign l =>
    if l ∈ x.guards then
      (w.put c { x with guards := x.guards.erase l }).modifyLock l
        fun cell => { cell with holder := 0 }
    else w.put c x
  | .release l =>
    if w.owns l c && l ∉ x.guards && x.waitingOn != some l then
      (w.put c x).modifyLock l fun cell => { cell with owner := none }
    else w.put c x
  | .vacate l =>
    if l ∈ x.guards && w.owns l c then
      (w.put c { x with waitingOn := some l }).modifyLock l fun cell => { cell with holder := 0 }
    else w.put c x
  | .park cv l =>
    if w.owns l c && x.waitingOn == some l then
      ({ w with ticket := w.ticket + 1 }.put c { x with parked := some (cv, w.ticket) }).modifyLock l
        fun cell => { cell with owner := none }
    else w.put c x
  | .reclaim l =>
    if w.owns l c && x.waitingOn == some l then w.record c x l fun x => { x with waitingOn := none }
    else w.put c x
  | .waitWhile cv l p =>
    if w.owns l c && p (w.guarded l) then
      w.put c { x with code := [.vacate l, .park cv l, .acquire l, .reclaim l, .waitWhile cv l p] ++
        x.code }
    else w.put c x
  | .signal cv => (w.put c x).signal cv
  | .broadcast cv => (w.put c x).broadcast cv
  | .read m =>
    if w.owns (.mutex m) c then w.put c { x with loaded := w.value m } else w.put c x
  | .write m f =>
    if w.owns (.mutex m) c then (w.put c x).update m f (f x.loaded) else w.put c x
  | .countDown k =>
    if w.owns (.latch k) c then
      let w := (w.put c x).modifyLatch k fun l => { l with downs := l.downs + 1 }
      match w.count k with
      | 0 => w
      | 1 => (w.modifyLatch k fun l => { l with count := 0 }).broadcast (.latch k)
      | n + 2 => w.modifyLatch k fun l => { l with count := n + 1 }
    else w.put c x
  | .keep m => w.put c { x with held := m :: x.held }
  | .unkeep m => w.put c { x with held := x.held.erase m }
  | .note q =>
    if q.needsTid then
      let (t, x, p) := x.requestTid w.process
      { w with process := p }.put c { x with reply := w.query t q }
    else w.put c { x with reply := w.query 0 q }
  | .complete => w.put c (x.answer x.reply)
  | .publish i =>
    let (t, x, p) := x.requestTid w.process
    ({ w with process := p }.put c x).modifySlot i fun s => { s with published := t }
  | .rename name => w.put c { x with self := x.self.rename name }
  | .adopt i =>
    match w.slots[i]? with
    | some s =>
      ({ w with labels := (s.published, s.id) :: w.labels }.put c
          { x with reply := .started s.published }).modifySlot i fun s => { s with tid := s.published }
    | none => w.put c x
  | .awaitEnd i =>
    match (w.slots[i]?).bind (·.ctx) with
    | some y =>
      match y.ended with
      | some .returned => w.put c { x with reply := .records y.replies }
      | some .exited => w.put c { x with reply := .exited y.replies }
      | none => w.put c x
    | none => w.put c x
  | .pause _ => w.put c x
  | .fork _ => w.put c x
  | .finish f => w.finish c x f

end World

end ThreadKit
