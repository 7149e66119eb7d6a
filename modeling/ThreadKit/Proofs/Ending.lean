import ThreadKit.Proofs.Handshake
import ThreadKit.Script.Run

/-! How the function of a managed thread ends. Its last move comes after it has let go of every
guard, unwinding or not. That move drops the function's captures, which aborts the process when it
destroys a mutex still recorded as held. Otherwise a fatal failure is contained: it aborts the
process with the thread's report, so no join ever sees it. A function that returned, or left with
the exit signal, ends its thread, and a join answers accordingly. -/
namespace ThreadKit

open Script

namespace World

section
variable {w w' : World} {i : Nat} {x : Context}

/-- A context that moves has not ended and does not sleep. -/
theorem awake_of_move? {c : Ctx} (hx : w.ctx? c = some x) (hm : w.move? c = some w') :
    x.ended = none ∧ x.parked = none := by
  have h := advance_of_move? hm
  unfold World.advance at h
  simp only [hx] at h
  split at h
  · cases h
  · rename_i hidle
    exact ⟨by cases he : x.ended <;> simp_all, by cases hp : x.parked <;> simp_all⟩

/-- A managed thread about to end its function owns no lock and has no guard: it has let go of
every guard it kept, and never names a lock whose guard it forgot. -/
theorem Sound.free_at_finish (hs : w.Sound) (hx : w.ctx? (.thread i) = some x)
    (hend : x.ended = none) {f : Option Failure} {rest : List Op}
    (hcode : x.code = .finish f :: rest) (l : LockRef) :
    (w.cell l).owner ≠ some (.thread i) ∧ l ∉ x.guards := by
  obtain ⟨-, p, hfit, hp⟩ := (hs.follows _ x hx l).finish hcode
  have hfree : p = .free := by
    rcases hp with rfl | ⟨rfl, hn⟩
    · rfl
    · cases l with
      | mutex m =>
        have := hs.named i x hx hend m (.inl (hfit.owner.mpr rfl))
        simp [Context.names, this] at hn
      | latch k => simp [Context.names] at hn
  subst hfree
  obtain ⟨hcount, -, -⟩ := Context.grip_eq_iff.mp hfit.grip
  refine ⟨fun ho => by simpa [Phase.owned] using hfit.owner.mp ho, fun hg => ?_⟩
  have := List.count_pos_iff.mpr hg
  simp only [Phase.grip] at hcount
  omega

/-- An ended thread owns no lock, and no lock records its tid as holder. -/
theorem Sound.ended_free (hs : w.Sound) (hx : w.ctx? (.thread i) = some x)
    (he : x.ended.isSome) (l : LockRef) :
    (w.cell l).owner ≠ some (.thread i) ∧ w.holder l ≠ x.self.kernel := by
  refine ⟨hs.ended i x hx he l, fun hh => ?_⟩
  rw [holder_eq] at hh
  have hpos := (hs.self _ x hx).2.1
  cases ho : (w.cell l).owner with
  | none =>
    rw [hs.unowned l ho] at hh
    exact Nat.ne_of_lt hpos hh
  | some d =>
    obtain ⟨y, hy, h0 | hk⟩ := hs.holder_of_owner ho
    · rw [h0] at hh
      exact Nat.ne_of_lt hpos hh
    · -- the owner is another context, whose tid is not the thread's
      have hd : d = .thread i := hs.distinct d _ y x hy hx (hk.symm.trans hh)
      exact hs.ended i x hx he l (hd ▸ ho)

@[simp] theorem put_abort (w : World) (c : Ctx) (x : Context) : (w.put c x).abort = w.abort := by
  cases c <;> rfl

/-- Setting the abort of a world leaves what its contexts, locks and references read. -/
@[simp] theorem ctx?_with_abort (w : World) (a : Option Abort) (c : Ctx) :
    ({ w with abort := a } : World).ctx? c = w.ctx? c := by
  cases c <;> rfl

@[simp] theorem referenced_with_abort (w : World) (a : Option Abort) (k : Nat) :
    ({ w with abort := a } : World).referenced k = w.referenced k := rfl

@[simp] theorem holder_with_abort (w : World) (a : Option Abort) (l : LockRef) :
    ({ w with abort := a } : World).holder l = w.holder l := rfl

/-- Dropping references only ever sets the abort: to a mutex destroyed while held, when one of the
dropped mutexes is left unnamed with a holder recorded. -/
theorem dropRefs_eq (w : World) (keys : List Nat) :
    w.dropRefs keys = { w with
      abort := if keys.any (fun k => !w.referenced k && w.holder (.mutex k) != 0)
        then some .destroyedWhileHeld else w.abort } := by
  unfold dropRefs
  split <;> rfl

theorem name_put (w : World) (c : Ctx) (x : Context) (i : Nat) :
    (w.put c x).slots[i]?.map (·.name) = w.slots[i]?.map (·.name) := by
  rw [slots_put_eq]
  cases w.slots[i]? with
  | none => rfl
  | some s =>
    simp only [Option.map_some]
    split <;> rfl

/-- The abort a failure of a managed thread named `n` sets: the thread's report when the failure
is fatal, and none otherwise. -/
def containedAbort (n : String) (f : Option Failure) : Option Abort :=
  f.bind fun g => if g.isFatal then some (.contained n g) else none

theorem containedAbort_ne (n : String) (f : Option Failure) :
    containedAbort n f ≠ some .destroyedWhileHeld := by
  cases f with
  | none => simp [containedAbort]
  | some g =>
    simp only [containedAbort, Option.bind_some]
    split <;> simp

theorem name_release (w : World) (keys : List Nat) (i : Nat) :
    (w.release keys).slots[i]?.map (·.name) = w.slots[i]?.map (·.name) :=
  release_of_modifySlot (R := fun a b => b.slots[i]?.map (·.name) = a.slots[i]?.map (·.name))
    (fun _ => rfl) (fun h₁ h₂ => h₂.trans h₁)
    (fun w j => by
      simp only [modifySlot, Array.getElem?_modify]
      split <;> cases w.slots[i]? <;> rfl) w keys

/-- The last move of thread `i`'s function: the thread ends with its records and lets go of its
objects, and only the abort changes besides. -/
theorem finish_thread_eq (hab : w.abort = none) (x : Context) (f : Option Failure) :
    ∃ y : Context, y.replies = x.replies ∧ y.ended = some (if f.isSome then .exited else .returned) ∧
      let u := (w.put (.thread i) y).release (x.scope.threads.map (·.2))
      w.finish (.thread i) x f = { u with
        abort := if (x.scope.mutexes.map (·.2) ++ w.capturedBy (x.scope.threads.map (·.2))).any
            (fun k => !u.referenced k && u.holder (.mutex k) != 0)
          then some .destroyedWhileHeld
          else containedAbort ((w.slots[i]?.map (·.name)).getD "") f } := by
  refine ⟨{ x with
    scope := {}
    self := x.self.rename (if f.isSome then Identity.crashedName else Identity.finishedName)
    ended := some (if f.isSome then Ending.exited else Ending.returned) }, rfl, rfl, ?_⟩
  cases f with
  | none =>
    simp only [finish, dropRefs_eq, release_abort, put_abort, hab]
    rfl
  | some g =>
    -- a destroyed mutex aborts the process before the failure is looked at
    simp only [finish, dropRefs_eq, release_abort, put_abort, hab, name_release, name_put,
      containedAbort, Option.bind_some]
    split_ifs <;> simp_all

/-- The last move of thread `i`'s function ends the thread with its records, aborting first if its
captures destroy a mutex still held, and else exactly on a fatal failure. -/
theorem finish_thread (hab : w.abort = none) (hx : w.ctx? (.thread i) = some x) {s : Slot}
    (hsl : w.slots[i]? = some s) (f : Option Failure) :
    (∃ y', (w.exec (.thread i) { x with code := [] } (.finish f)).ctx? (.thread i) = some y' ∧
      y'.replies = x.replies ∧ y'.ended = some (if f.isSome then .exited else .returned)) ∧
    ((w.exec (.thread i) { x with code := [] } (.finish f)).abort = some .destroyedWhileHeld ↔
      ∃ k ∈ x.scope.mutexes.map (·.2) ++ w.capturedBy (x.scope.threads.map (·.2)),
        (w.exec (.thread i) { x with code := [] } (.finish f)).referenced k = false ∧
        (w.exec (.thread i) { x with code := [] } (.finish f)).holder (.mutex k) ≠ 0) ∧
    ((w.exec (.thread i) { x with code := [] } (.finish f)).abort ≠ some .destroyedWhileHeld →
      (w.exec (.thread i) { x with code := [] } (.finish f)).abort =
        f.bind fun g => if g.isFatal then some (.contained s.name g) else none) := by
  obtain ⟨y, hrep, hend, heq⟩ := finish_thread_eq (i := i) hab { x with code := [] } f
  have hsome : (w.ctx? (.thread i)).isSome := by simp [hx]
  have hname : (w.slots[i]?.map (·.name)).getD "" = s.name := by simp [hsl]
  rw [exec, heq, hname]
  simp only [ctx?_with_abort, referenced_with_abort, holder_with_abort, ctx?_release,
    ctx_put_self _ _ _ hsome]
  refine ⟨⟨y, rfl, hrep, hend⟩, ?_, ?_⟩
  · split
    · rename_i hD
      obtain ⟨k, hk, hp⟩ := List.any_eq_true.mp hD
      exact iff_of_true rfl ⟨k, hk, by simpa using hp⟩
    · rename_i hD
      refine iff_of_false (containedAbort_ne _ _) fun hex => hD ?_
      obtain ⟨k, hk, hr, hh⟩ := hex
      exact List.any_eq_true.mpr ⟨k, hk, by simp [hr, hh]⟩
  · split
    · simp
    · exact fun _ => rfl

/-- A join of thread object `i` answers once the thread has ended: with the thread's records when
its function returned, and with them as an early exit when it left with a failure. -/
theorem awaitEnd_answer {c : Ctx} {rest : List Op} (hx : w.ctx? c = some x)
    (hcode : x.code = .awaitEnd i :: rest) (hm : w.move? c = some w') {y : Context}
    (hy : w.ctx? (.thread i) = some y) :
    ∃ x', w'.ctx? c = some x' ∧ ((y.ended = some .returned ∧ x'.reply = .records y.replies) ∨
      (y.ended = some .exited ∧ x'.reply = .exited y.replies)) := by
  have h := advance_of_move? hm
  have hc : (w.ctx? c).isSome := by simp [hx]
  unfold World.advance at h
  simp only [hx, hcode] at h
  have hy' : (w.slots[i]?).bind (·.ctx) = some y := hy
  split at h
  · cases h
  · split at h
    · cases h
    · -- the join does not wait, so the thread has ended
      rename_i hwait
      simp only [waits, hy', Option.any_some, Bool.not_eq_true, Option.isNone_eq_false_iff] at hwait
      cases h
      simp only [exec, hy']
      rcases hend : y.ended with _ | _ | _
      · simp [hend] at hwait
      · exact ⟨_, ctx_put_self _ _ _ hc, .inl ⟨rfl, rfl⟩⟩
      · exact ⟨_, ctx_put_self _ _ _ hc, .inr ⟨rfl, rfl⟩⟩

end

/-- How a managed thread's function ends: it lets go of every guard; dropping its captures aborts
first if that destroys a mutex still held; otherwise a fatal failure aborts with the thread's
report, and a return or the exit signal ends the thread for the join to answer. -/
theorem thread_ending {host : Host} {steps : List Value} {w : World} (h : Reachable (World.init host steps) w) :
    (∀ (i : Nat) (y : Context) (f : Option Failure) (s : Slot) w', w.abort = none →
      w.ctx? (.thread i) = some y → y.code = [.finish f] → w.slots[i]? = some s →
      w.move? (.thread i) = some w' →
      (∀ l, (w.cell l).owner ≠ some (.thread i) ∧ l ∉ y.guards) ∧
      (∃ y', w'.ctx? (.thread i) = some y' ∧ y'.replies = y.replies ∧
        y'.ended = some (if f.isSome then .exited else .returned)) ∧
      (w'.abort = some .destroyedWhileHeld ↔
        ∃ k ∈ y.scope.mutexes.map (·.2) ++ w.capturedBy (y.scope.threads.map (·.2)),
          w'.referenced k = false ∧ w'.holder (.mutex k) ≠ 0) ∧
      (w'.abort ≠ some .destroyedWhileHeld →
        w'.abort = f.bind fun g => if g.isFatal then some (.contained s.name g) else none)) ∧
    (∀ c x (i : Nat) rest w', w.ctx? c = some x → x.code = .awaitEnd i :: rest →
      w.move? c = some w' → ∀ y, w.ctx? (.thread i) = some y →
        ∃ x', w'.ctx? c = some x' ∧ ((y.ended = some .returned ∧ x'.reply = .records y.replies) ∨
          (y.ended = some .exited ∧ x'.reply = .exited y.replies))) ∧
    (∀ (i : Nat) (y : Context), w.ctx? (.thread i) = some y → y.ended.isSome →
      ∀ l, (w.cell l).owner ≠ some (.thread i) ∧ w.holder l ≠ (y.requestTid w.process).1) := by
  have hs := (Sound.init host steps).reachable h
  refine ⟨fun i y f s w' hab hy hcode hsl hm => ?_, fun c x i rest w' hx hcode hm y hy => awaitEnd_answer hx hcode hm hy,
    fun i y hy he l => ?_⟩
  · have hend := (awake_of_move? hy hm).1
    rw [advance_of_code hy hcode (advance_of_move? hm)]
    exact ⟨hs.free_at_finish hy hend hcode, finish_thread hab hy hsl f⟩
  · rw [Context.requestTid_fst _ (hs.self _ y hy).1]
    exact hs.ended_free hy he l

/-- A script that starts a thread `a` with nothing to do and a thread `b` that leaves with the exit
signal, then joins `a`. -/
def endings : List Value :=
  [.obj [("op", .str "thread_new"), ("id", .str "a")],
    .obj [("op", .str "thread_new"), ("id", .str "b"), ("actions", .arr [.obj [("op", .str "exit")]])],
    .obj [("op", .str "thread_start"), ("thread", .str "a")],
    .obj [("op", .str "thread_start"), ("thread", .str "b")],
    .obj [("op", .str "thread_join"), ("thread", .str "a")]]

/-- Thread `a` has returned, `b` is about to end with the exit signal, and main is about to
collect `a`'s end. -/
def joining : World :=
  ((World.init .tested endings).replay
    (List.replicate 3 .main ++ List.replicate 9 (.thread 0) ++ List.replicate 8 .main ++
      List.replicate 8 (.thread 1) ++ List.replicate 8 .main)).getD (World.init .tested endings)

/-- Thread `b` leaves with the exit signal owning no lock, and main's join of `a`, which returned,
answers with its records. -/
theorem thread_ending_join :
    Reachable (World.init .tested endings) joining ∧
    (∀ l, (joining.cell l).owner ≠ some (.thread 1)) ∧
    (∃ y y', joining.ctx? (.thread 1) = some y ∧
      (joining.advance (.thread 1)).1.ctx? (.thread 1) = some y' ∧ y'.replies = y.replies ∧
      y'.ended = some .exited) ∧
    (joining.advance (.thread 1)).1.abort = none ∧
    ∃ y, joining.ctx? (.thread 0) = some y ∧ y.ended = some .returned ∧
      (joining.advance .main).1.main.reply = .records y.replies ∧
      ∀ l, (joining.cell l).owner ≠ some (.thread 0) ∧
        joining.holder l ≠ (y.requestTid joining.process).1 := by
  have h : Reachable (World.init .tested endings) joining := .of_replay (by decide)
  obtain ⟨hfinish, hjoin, hended⟩ := thread_ending h
  obtain ⟨y, hy⟩ : ∃ y, joining.ctx? (.thread 1) = some y := Option.isSome_iff_exists.mp (by decide)
  obtain ⟨s, hs⟩ : ∃ s, joining.slots[1]? = some s := Option.isSome_iff_exists.mp (by decide)
  have hcode : y.code = [.finish (some .exited)] := by
    have : (joining.ctx? (.thread 1)).map (·.code) = some [.finish (some .exited)] := rfl
    rw [hy] at this
    exact Option.some.inj this
  obtain ⟨hfree, ⟨y', hy', hrep, hend⟩, -, habort⟩ :=
    hfinish 1 y (some .exited) s _ (by decide) hy hcode hs rfl
  obtain ⟨a, ha⟩ : ∃ a, joining.ctx? (.thread 0) = some a := Option.isSome_iff_exists.mp (by decide)
  have hret : a.ended = some .returned := by
    have : (joining.ctx? (.thread 0)).map (·.ended) = some (some .returned) := by decide
    rw [ha] at this
    exact Option.some.inj this
  have hcode₀ : joining.main.code = [.awaitEnd 0, .complete] := rfl
  have hrec : (joining.advance .main).1.main.reply = .records a.replies := by
    obtain ⟨x', hx', hr | ⟨hx, -⟩⟩ := hjoin .main _ 0 _ _ rfl hcode₀ rfl a ha
    · cases hx'
      exact hr.2
    · rw [hret] at hx
      cases hx
  exact ⟨h, fun l => (hfree l).1, ⟨y, y', hy, hy', hrep, hend⟩,
    habort (by decide), a, ha, hret, hrec, hended 0 a ha (by rw [hret]; rfl)⟩

end World

namespace Script

/-- A thread whose function panics first, capturing a mutex that main locks and then lets go of
without unlocking it. -/
def panicDropsHeld : List Value :=
  [.obj [("id", .str "m"), ("op", .str "mutex_new")],
   .obj [("mutex", .str "m"), ("op", .str "lock")],
   .obj [("actions", .arr [.obj [("message", .str "late"), ("op", .str "panic")],
                          .obj [("mutex", .str "m"), ("op", .str "get")]]),
         ("id", .str "t"), ("op", .str "thread_new")],
   .obj [("mutex", .str "m"), ("op", .str "mutex_drop")],
   .obj [("op", .str "thread_start"), ("thread", .str "t")],
   .obj [("op", .str "thread_join"), ("thread", .str "t")]]

/-- The panic is not what the process reports: dropping the function's last reference to a mutex
still recorded as held aborts it first. -/
theorem panic_preempted_by_destroyed_mutex :
    (runScript panicDropsHeld).write =
        "\x7b\"abort\":\"SIGABRT\",\"stderr\":[\"invariant violated: mutex destroyed while held\"]\x7d" ∧
      (runScript panicDropsHeld).write ≠
        "\x7b\"abort\":\"SIGABRT\",\"stderr\":[\"exception caught in Thread Thread0\",\"reason: late\"]\x7d" := by
  decide +kernel

end Script

end ThreadKit
