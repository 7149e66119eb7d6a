import ThreadKit.Machine.Fork

/-! Running a process. A context can move unless it has ended, sleeps on a condition, or waits in
its next move. The relation `Moves` lets any context that can move do so, lets a sleeping context
wake without a signal, as condition waits may, lets the clock go forward, and lets a fork end once
its child has run; the schedule `run` is one path through it that ends a fork first, then always
moves the first managed thread that can, in creation order, and main only when none can. When
nothing can move, the clock jumps to the earliest deadline of a timed pause, so a pause lets every
other context run as far as it can first; once main has ended the process exits and the clock
stops. Scripts wait for what they need, so their answers do not depend on the path. The worlds of
a process history (`History`) are those of its runs and of the runs of the children its forks
make. -/
namespace ThreadKit

namespace World

/-- The world after context `c` makes its next move, with `true`; or the world unchanged, with
`false`, when `c` cannot move now. -/
def advance (w : World) (c : Ctx) : World × Bool :=
  match w.ctx? c with
  | none => (w, false)
  | some x =>
    if x.ended.isSome || x.parked.isSome then (w, false)
    else
      match x.code with
      | op :: rest => if w.waits op then (w, false) else (w.exec c { x with code := rest } op, true)
      | [] => (w.begin c x, true)

/-- The world after context `c` makes its next move, or `none` when it cannot move now. -/
def move? (w : World) (c : Ctx) : Option World :=
  match w.advance c with
  | (w', true) => some w'
  | (_, false) => none

/-- The world after the first of the `n` managed threads from object `i` on that can move does
so, or else main, with whether any context moved. -/
def nextFrom (w : World) : Nat → Nat → World × Bool
  | _, 0 => w.advance .main
  | i, n + 1 =>
    match w.advance (.thread i) with
    | (w, true) => (w, true)
    | (w, false) => w.nextFrom (i + 1) n

/-- The world after the first context that can move does so, managed threads in creation order
and then main, with whether any context moved. -/
def next (w : World) : World × Bool := w.nextFrom 0 w.slots.size

/-- The earliest deadline of a timed pause that a context waits for in its next move. -/
def nextDeadline? (w : World) : Option Nat :=
  w.contexts.foldl (fun best c =>
    match (w.ctx? c).map (·.code) with
    | some (Op.pause t :: _) =>
      match best with
      | some b => some (min b t)
      | none => some t
    | _ => best) none

/-- A context that can fork now, with its tid before the fork and the rest of its moves. -/
def forking? (w : World) : Option (Ctx × Context × Tid × List Op) :=
  w.contexts.findSome? fun c =>
    match w.ctx? c with
    | some x =>
      match x.code with
      | .fork before :: rest =>
        if x.ended.isSome || x.parked.isSome then none else some (c, x, before, rest)
      | _ => none
    | none => none

/-- Run for at most `fuel` moves, stopping early when the process aborts, or when nothing can
move and either main has ended or no context waits for the clock. A fork runs its child first, on
the fuel left. -/
def run : Nat → World → World
  | 0, w => w
  | fuel + 1, w =>
    if w.abort.isSome then w
    else
      match w.forking? with
      | some (c, x, before, rest) =>
        run fuel (w.forked c { x with code := rest } before (run fuel (w.forkChild x)))
      | none =>
      match w.next with
      | (w, true) => run fuel w
      | (w, false) =>
        if w.main.ended.isSome then w
        else
          match w.nextDeadline? with
          | some t => run fuel { w with clock := t }
          | none => w

/-- One move of a process that has not aborted: some context moves, a sleeping one wakes, the
clock goes forward, or a fork ends once its child has run as far as `run` takes it. -/
inductive Moves : World → World → Prop where
  | move {w w' : World} (c : Ctx) : w.abort = none → w.move? c = some w' → Moves w w'
  | wakeUp {w : World} (c : Ctx) (x : Context) :
      w.abort = none → w.ctx? c = some x → x.parked.isSome → Moves w (w.wake c)
  | tick {w : World} (t : Nat) : w.abort = none → w.clock < t → Moves w { w with clock := t }
  | fork {w : World} (c : Ctx) (x : Context) (before : Tid) (rest : List Op) (n : Nat) :
      w.abort = none → w.ctx? c = some x → x.ended = none → x.parked = none →
      x.code = .fork before :: rest →
      Moves w (w.forked c { x with code := rest } before ((w.forkChild x).run n))

/-- The worlds a process can reach from `w₀` in any number of moves. -/
inductive Reachable (w₀ : World) : World → Prop where
  | refl : Reachable w₀ w₀
  | tail {w w' : World} : Reachable w₀ w → Moves w w' → Reachable w₀ w'

/-- The worlds of a process history from `w₀`: those its runs reach, and those the runs of the
children its forks make reach. -/
inductive History (w₀ : World) : World → Prop where
  | refl : History w₀ w₀
  | tail {w w' : World} : History w₀ w → Moves w w' → History w₀ w'
  | fork {w : World} (c : Ctx) (x : Context) (before : Tid) (rest : List Op) :
      History w₀ w → w.abort = none → w.ctx? c = some x → x.ended = none → x.parked = none →
      x.code = .fork before :: rest → History w₀ (w.forkChild x)

theorem Reachable.history {w₀ w : World} (h : Reachable w₀ w) : History w₀ w := by
  induction h with
  | refl => exact .refl
  | tail _ hm ih => exact ih.tail hm

theorem History.reachable {w₀ w w' : World} (h : History w₀ w) (hr : Reachable w w') :
    History w₀ w' := by
  induction hr with
  | refl => exact h
  | tail _ hm ih => exact ih.tail hm

/-- The world after the contexts `cs` make one move each, in turn, or `none` when one of them
cannot move or the process has aborted before its turn. -/
def replay : World → List Ctx → Option World
  | w, [] => some w
  | w, c :: cs => if w.abort.isSome then none else (w.move? c).bind fun w' => replay w' cs

theorem Reachable.replay {w₀ w : World} (h : Reachable w₀ w) :
    ∀ {cs : List Ctx} {w' : World}, w.replay cs = some w' → Reachable w₀ w'
  | [], _, hr => by
    cases hr
    exact h
  | c :: cs, w', hr => by
    simp only [World.replay] at hr
    cases ha : w.abort with
    | some _ => simp [ha] at hr
    | none =>
      simp only [ha, Option.isSome_none, Bool.false_eq_true, ↓reduceIte] at hr
      obtain ⟨w₁, hm, hr⟩ := Option.bind_eq_some_iff.mp hr
      exact (h.tail (.move c ha hm)).replay hr

/-- A schedule that replays from `w₀` reaches the world it ends in. -/
theorem Reachable.of_replay {w₀ : World} {cs : List Ctx} (h : (w₀.replay cs).isSome) :
    Reachable w₀ ((w₀.replay cs).getD w₀) := by
  obtain ⟨w', hw'⟩ := Option.isSome_iff_exists.mp h
  rw [hw']
  exact Reachable.refl.replay hw'

/-- A bound on the moves a script needs: every step costs a bounded number of moves, and a wait
a bounded number per wake-up, of which there are at most as many as contexts times wake-ups
sent. -/
def budget (steps : List Script.Value) : Nat :=
  64 * Nat.pow (Script.Value.weightAll steps + 1) 2

end World

end ThreadKit
