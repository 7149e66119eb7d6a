import ThreadKit.Machine.Exec

/-! Beginning a step. A context whose moves have run out reads its next step and either answers it
at once, when the step reads or changes shared state only once, or installs the moves that carry
it out, followed by `complete`. Decisions about the guards a context keeps are made here, since
no other context can change them. A context whose steps have run out releases the guards it
keeps and finishes. -/
namespace ThreadKit

open Script

namespace World

/-- The handshake of a thread start: the new thread publishes its tid, counts the start latch
`h` down, and takes its name; its steps follow. -/
def spawnCode (i h : Nat) (name : String) : List Op :=
  .publish i :: Op.scoped (.latch h) [.countDown h] ++ [.rename (Identity.takenName name)]

/-- The starter's side of the handshake: wait for the start latch `h`, then copy the published
tid. -/
def awaitSpawnCode (i h : Nat) : List Op :=
  Op.scoped (.latch h) [.waitWhile (.latch h) (.latch h) (· > 0)] ++ [.adopt i, .complete]

/-- The world after context `c`, in state `x`, answers its step with `r`. -/
def reply (w : World) (c : Ctx) (x : Context) (r : Reply) : World := w.put c (x.answer r)

/-- The world after context `c`, in state `x`, installs `code` for its step. -/
def install (w : World) (c : Ctx) (x : Context) (code : List Op) : World :=
  w.put c { x with code := code }

/-- The world after the step of context `c` failed with `f`: main catches the failure and answers
with it; a managed thread unwinds, releasing the guards it keeps, and finishes. -/
def failStep (w : World) (c : Ctx) (x : Context) (f : Failure) : World :=
  match c with
  | .main => w.reply c x (.caught f)
  | .thread _ =>
    w.install c x (x.held.flatMap Op.unlockKept ++ [.finish (some f)])

/-- The failure of an assertion about thread object `s`. -/
def threadAssert (s : Slot) (what : String) : Failure :=
  .panicked ("thread " ++ s.name ++ " " ++ what)

/-- The world after context `c` starts thread object `i`. An object that lost its function aborts
the process. When the OS refuses the thread, its function goes first, so a held mutex that only the
function still named is destroyed, and that abort is the one reported. -/
def start (w : World) (c : Ctx) (x : Context) (i : Nat) (s : Slot) : World :=
  if s.started then w.failStep c x (threadAssert s "already started")
  else match s.program with
  | none => { w with abort := some (.invariant "unstarted thread lost its function") }
  | some (actions, captured) =>
    match w.host.refusal s.stackSize with
    | some e =>
      let w := (w.modifySlot i fun s => { s with started := true, program := none }).dropRefs
        (captured.mutexes.map (·.2))
      if w.abort.isSome then w else { w with abort := some (.spawnRefused e) }
    | none =>
      let h := w.latches.size
      let thread : Context :=
        { self := { kernel := w.nextTid }, osName := Identity.osLabel s.name, scope := captured,
          plan := actions, code := spawnCode i h s.name }
      let w := { w with latches := w.latches.push { count := 1 }, nextTid := w.nextTid + 1 }
      let w := w.modifySlot i fun s =>
        { s with started := true, program := none, ctx := some thread, latch := some h,
                 handle := true }
      w.install c x (awaitSpawnCode i h)

/-- The world after context `c` joins thread object `i`, which takes the object's handle of its
thread; an object that lost its handle aborts the process. -/
def join (w : World) (c : Ctx) (x : Context) (i : Nat) (s : Slot) : World :=
  if !s.started then w.failStep c x (threadAssert s "joined before start")
  else if s.joined then w.failStep c x (threadAssert s "already joined")
  else if !s.handle then { w with abort := some (.invariant "started thread lost its handle") }
  else
    (w.modifySlot i fun s => { s with joined := true, handle := false }).install c x
      [.awaitEnd i, .complete]

/-- What `current` finds, with the context and process after its requests. -/
def current (w : World) (x : Context) : CurrentReport × Context × Identity.Process :=
  let (t, s, p) := x.self.tid w.process
  let (name, s, p) := s.name p
  let (isMain, s, p) := s.isMain p
  let (text, s, p) := s.text p
  ({ tid := t, name, isMain, textTid := Identity.readTid text,
     shape := text == Identity.tidString t, osName := x.osName }, { x with self := s }, p)

/-- The world after context `c`, in state `x`, begins step `st`. -/
def perform (w : World) (c : Ctx) (x : Context) : Step → World
  | .lock m =>
    if m.key ∈ x.held then w.reply c x (.refused .deadlock)
    else w.install c x (Op.lockKept m.key ++ [.complete])
  | .unlock m =>
    if m.key ∈ x.held then w.install c x (Op.unlockKept m.key ++ [.complete])
    else w.reply c x (.refused (.notHeld m.id))
  | .get m =>
    if m.key ∈ x.held then w.reply c x (.int (w.value m.key).toInt)
    else w.install c x (Op.scoped (.mutex m.key) [.note (.value m.key)] ++ [.complete])
  | .set m v =>
    if m.key ∈ x.held then (w.modifyValue m.key fun _ => v).reply c x (.int v.toInt)
    else
      w.install c x (Op.scoped (.mutex m.key) [.write m.key (fun _ => v), .note (.value m.key)] ++
        [.complete])
  | .add m v times =>
    if m.key ∈ x.held then
      let w := w.modifyValue m.key (· + v * Int64.ofNat times)
      w.reply c x (.int (w.value m.key).toInt)
    else
      w.install c x (Op.scoped (.mutex m.key) [.read m.key, .write m.key (· + v * Int64.ofNat times)] ++
        [.complete])
  | .holder m => w.reply c x (.holder (w.holder (.mutex m.key)))
  | .isLocked m =>
    let (t, x, p) := x.requestTid w.process
    { w with process := p }.reply c x (.flag (w.holder (.mutex m.key) == t))
  | .assertLocked m =>
    let (t, x, p) := x.requestTid w.process
    let w := { w with process := p }
    if w.holder (.mutex m.key) == t then w.reply c x .empty else w.failStep c x (.notHeld t)
  | .mutexDebug m => w.reply c x (.mutexDebug (w.holder (.mutex m.key)))
  | .guardDebug m =>
    if m.key ∈ x.held then w.reply c x (.text (toString (w.value m.key).toInt))
    else w.reply c x (.refused (.notHeld m.id))
  | .countDown l =>
    w.install c x (Op.scoped (.latch l.key) [.countDown l.key] ++ [.complete])
  | .wait l =>
    let lk := LockRef.latch l.key
    w.install c x (Op.scoped lk [.waitWhile (.latch l.key) lk (· > 0)] ++ [.complete])
  | .count l => w.install c x (Op.scoped (.latch l.key) [.note (.count l.key)] ++ [.complete])
  | .latchDebug l =>
    w.install c x (Op.scoped (.latch l.key) [.note (.latchDebug l.key)] ++ [.complete])
  | .notify cv => (w.signal (.cond cv.key)).reply c x .empty
  | .notifyAll cv => (w.broadcast (.cond cv.key)).reply c x .empty
  | .condDebug _ => w.reply c x (.text "Condition \x7b .. \x7d")
  | .waitWhile cv m cmp v =>
    let body := [Op.waitWhile (.cond cv.key) (.mutex m.key) (cmp.holds · v.toInt),
      .note (.waited m.key)]
    if m.key ∈ x.held then w.install c x (body ++ [.complete])
    else w.install c x (Op.scoped (.mutex m.key) body ++ [.complete])
  | .current =>
    let (r, x, p) := w.current x
    { w with process := p }.reply c x (.current r)
  | .sleep usec =>
    if usec ≤ 0 then w.reply c x .empty
    else w.install c x [.pause (w.clock + usec.toNat), .complete]
  | .fail f => w.failStep c x f
  | .fork =>
    let (before, x, p) := x.requestTid w.process
    let (_, s, p) := x.self.text p
    { w with process := p }.install c { x with self := s } [.fork before]
  | .mutexNew id v =>
    let k := w.mutexes.size
    { w with mutexes := w.mutexes.push { value := v } }.reply c
      { x with scope := x.scope.bindMutex id k } .empty
  | .mutexDrop m =>
    let x := { x with held := x.held.erase m.key, scope := x.scope.forgetMutex m.id }
    ((w.put c x).dropRefs [m.key]).reply c x .empty
  | .getMut m set =>
    if w.sharedWithThread m.key then w.reply c x (.refused .shared)
    else
      let w := w.modifyValue m.key fun v => set.getD v
      w.reply c x (.int (w.value m.key).toInt)
  | .latchNew id count =>
    let k := w.latches.size
    { w with latches := w.latches.push { count } }.reply c
      { x with scope := x.scope.bindLatch id k } .empty
  | .condNew id =>
    { w with conds := w.conds + 1 }.reply c { x with scope := x.scope.bindCond id w.conds } .empty
  | .threadNew spec =>
    let i := w.slots.size
    let name := if spec.name.isEmpty then "Thread" ++ toString w.created else spec.name
    let s : Slot := { id := spec.id, name, stackSize := spec.stackSize,
                      program := some (spec.actions, spec.captured) }
    { w with slots := w.slots.push s, created := w.created + 1 }.reply c
      { x with scope := x.scope.bindThread spec.id i } (.made s.view)
  | .threadStart t =>
    match w.slots[t.key]? with
    | some s => w.start c x t.key s
    | none => w.reply c x .empty
  | .threadJoin t =>
    match w.slots[t.key]? with
    | some s => w.join c x t.key s
    | none => w.reply c x .empty
  | .threadInfo t => w.reply c x (.info ((w.slots[t.key]?.map Slot.view).getD default))
  | .threadDrop t =>
    let x := { x with scope := x.scope.forgetThread t.id }
    match w.slots[t.key]? with
    | some s =>
      if s.started then
        (w.modifySlot t.key fun s => { s with handle := false }).reply c x .empty
      else
        let keys := (s.program.map fun p => p.2.mutexes.map (·.2)).getD []
        let w := w.modifySlot t.key fun s => { s with program := none }
        ((w.put c x).dropRefs keys).reply c x .empty
    | none => w.reply c x .empty
  | .numCreated => w.reply c x (.int w.created)
  | .classify f => w.reply c x (.classified f)
  | .exceptionNew what => w.reply c x (.exception what w.host.backtrace)

/-- The world after context `c`, in state `x` with no moves left, begins its next step, or, when
its steps have run out, releases the guards it keeps and finishes. -/
def begin (w : World) (c : Ctx) (x : Context) : World :=
  match x.plan with
  | [] => w.install c x (x.held.flatMap Op.unlockKept ++ [.finish none])
  | v :: rest =>
    let x := { x with plan := rest }
    match Step.read x.scope x.held (c != .main) w.host.threadsManage v with
    | .error e => w.reply c x (.refused e)
    | .ok st => w.perform c x st

end World

end ThreadKit
