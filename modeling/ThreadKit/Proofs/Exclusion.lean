import ThreadKit.Proofs.Steps

/-! Every world a script can reach is sound (`World.Sound.reachable`): the fresh process is, and
each move, wake-up and tick keeps it so. Mutual exclusion follows: a lock has at most one owner, its
recorded holder is no one or the owner's tid, and a context with a live guard outside a condition
wait is the holder, so that the question "do I hold this lock" is answered yes for it alone. -/
namespace ThreadKit

namespace World

section
variable {w w' : World} {c : Ctx}

/-- A process at its start is sound: main alone, with no lock, no guard and no moves. -/
theorem Sound.of_begins (hb : w.Begins) : w.Sound := by
  constructor
  · intro c x h
    obtain ⟨rfl, rfl⟩ := hb.ctx h
    exact ⟨hb.self, hb.pos, hb.fresh⟩
  · intro c d x y hx hy _
    rw [(hb.ctx hx).1, (hb.ctx hy).1]
  · intro l _
    rw [hb.cell]
  · intro l d h
    rw [hb.cell] at h
    cases h
  · intro c x h l
    obtain ⟨rfl, rfl⟩ := hb.ctx h
    refine ⟨.free, ⟨?_, ?_, fun h => by cases h⟩, by rw [hb.code]; trivial⟩
    · rw [Context.grip_eq_iff]
      refine ⟨by simp [hb.guards, Phase.grip], by simp [hb.waitingOn, Phase.grip], ?_⟩
      cases l <;> simp [LockRef.kept, hb.held, Phase.grip]
    · rw [hb.cell]
      exact iff_of_false (by simp) (by simp [Phase.owned])
  · intro c x h op hop
    obtain ⟨rfl, rfl⟩ := hb.ctx h
    rw [hb.code] at hop
    cases hop
  · intro c x h
    obtain ⟨rfl, rfl⟩ := hb.ctx h
    rw [hb.scope]
    exact ⟨fun _ h => (List.not_mem_nil h).elim, fun _ h => (List.not_mem_nil h).elim⟩
  · intro i s p h
    simp [hb.slot] at h
  · intro i s h
    simp [hb.slot] at h
  · intro i x h
    exact absurd (hb.ctx h).1 (by simp)
  · intro i x h
    exact absurd (hb.ctx h).1 (by simp)
  · rw [hb.scope]
    exact List.nodup_nil

theorem Sound.init (host : Host) (steps : List Script.Value) : (World.init host steps).Sound :=
  .of_begins (.init host steps)

/-- A move of a context keeps the invariant: a move of its code, or the beginning of a step. -/
theorem Sound.advance (hs : w.Sound) (c : Ctx) : (w.advance c).1.Sound := by
  unfold World.advance
  split
  · exact hs
  · rename_i x hx
    split
    · exact hs
    · rename_i hidle
      have hend : x.ended = none := by
        cases h : x.ended <;> simp_all
      have hpk : x.parked = none := by
        cases h : x.parked <;> simp_all
      split
      · rename_i op rest hcode
        split
        · exact hs
        · rename_i hwait
          exact hs.exec hx hcode hend hpk (by simpa using hwait)
      · exact hs.begin hx ‹_› hend hpk

theorem Sound.moves (hs : w.Sound) (h : Moves w w') : w'.Sound := by
  cases h with
  | move c _ hm =>
    unfold World.move? at hm
    split at hm
    · rename_i w₁ hadv
      cases hm
      have := hs.advance c
      rwa [hadv] at this
    · cases hm
  | wakeUp c x _ _ _ => exact hs.quiet (Quiet.wake w c)
  | tick t _ _ => exact hs.quiet (Quiet.of_views rfl rfl rfl rfl rfl)
  | fork c x b rest n _ hx hend hpk hcode => exact hs.forked _ hx hcode hend hpk

/-- Every world a process reaches from a sound one is sound. -/
theorem Sound.reachable {w₀ : World} (h₀ : w₀.Sound) (h : Reachable w₀ w) : w.Sound := by
  induction h with
  | refl => exact h₀
  | tail _ hm ih => exact ih.moves hm

/-- The recorded holder of an owned lock is no one or its owner's tid. -/
theorem Sound.holder_of_owner (hs : w.Sound) {l : LockRef} (ho : (w.cell l).owner = some c) :
    ∃ x, w.ctx? c = some x ∧ ((w.cell l).holder = 0 ∨ (w.cell l).holder = x.self.kernel) := by
  obtain ⟨x, hx⟩ := Option.isSome_iff_exists.mp (hs.owner l c ho)
  obtain ⟨p, hfit, -⟩ := hs.follows c x hx l
  refine ⟨x, hx, ?_⟩
  rw [hfit.holder (hfit.owner.mp ho)]
  cases p <;> simp [Phase.holder]

/-- A context with a live guard of a lock, outside a condition wait on it, owns the lock and is its
recorded holder. -/
theorem Sound.holder_of_guard (hs : w.Sound) {x : Context} {l : LockRef} (hx : w.ctx? c = some x)
    (hg : l ∈ x.guards) (hw : x.waitingOn ≠ some l) :
    (w.cell l).owner = some c ∧ (w.cell l).holder = x.self.kernel := by
  obtain ⟨p, hfit, -⟩ := hs.follows c x hx l
  obtain ⟨hcount, hwait, -⟩ := Context.grip_eq_iff.mp hfit.grip
  have hpos : 0 < x.guards.count l := List.count_pos_iff.mpr hg
  cases p with
  | free | taken =>
    simp only [Phase.grip] at hcount
    omega
  | guarded k => exact ⟨hfit.owner.mpr rfl, hfit.holder rfl⟩
  | vacated k | away k =>
    exact absurd (hwait.mpr rfl) hw

/-- The tid a context reports is its kernel tid, and only it reports that tid. -/
theorem Sound.reports_iff (hs : w.Sound) {x y : Context} {d : Ctx} (hx : w.ctx? c = some x)
    (hy : w.ctx? d = some y) (p : Identity.Process) :
    x.self.kernel = (y.requestTid p).1 ↔ d = c := by
  rw [Context.requestTid_fst p (hs.self d y hy).1]
  constructor
  · intro he
    exact hs.distinct d c y x hy hx he.symm
  · rintro rfl
    rw [hx] at hy
    cases hy
    rfl

end

/-- Mutual exclusion with a recorded holder: at most one context owns a lock, the holder is no one
or the owner's tid, and a context with a live guard outside a wait owns the lock and is its
holder. -/
theorem mutual_exclusion {host : Host} {steps : List Script.Value} {w : World}
    (h : Reachable (World.init host steps) w) (l : LockRef) :
    (∀ c d, w.owns l c = true → w.owns l d = true → c = d) ∧
    ((∀ c, w.owns l c = false) → w.holder l = 0) ∧
    (∀ c, w.owns l c = true → ∃ x, w.ctx? c = some x ∧
      (w.holder l = 0 ∨ w.holder l = (x.requestTid w.process).1)) ∧
    (∀ c x, w.ctx? c = some x → l ∈ x.guards → x.waitingOn ≠ some l →
      w.owns l c = true ∧
        ∀ d y, w.ctx? d = some y → (w.holder l = (y.requestTid w.process).1 ↔ d = c)) := by
  have hs := (Sound.init host steps).reachable h
  refine ⟨?_, ?_, ?_, ?_⟩
  · intro c d hc hd
    rw [owns_iff] at hc hd
    rw [hc] at hd
    exact Option.some.inj hd
  · intro hfree
    rw [holder_eq]
    apply hs.unowned
    cases ho : (w.cell l).owner with
    | none => rfl
    | some c =>
      have := hfree c
      rw [← Bool.not_eq_true, owns_iff] at this
      exact absurd ho this
  · intro c hc
    rw [owns_iff] at hc
    obtain ⟨x, hx, hh⟩ := hs.holder_of_owner hc
    refine ⟨x, hx, ?_⟩
    rw [holder_eq, Context.requestTid_fst _ (hs.self c x hx).1]
    exact hh
  · intro c x hx hg hw
    obtain ⟨ho, hh⟩ := hs.holder_of_guard hx hg hw
    refine ⟨(owns_iff w l c).mpr ho, fun d y hy => ?_⟩
    rw [holder_eq, hh]
    exact hs.reports_iff hx hy w.process

/-- A script that makes two mutexes and keeps a guard of the first. -/
def lockOne : List Script.Value :=
  [.obj [("op", .str "mutex_new"), ("id", .str "m")],
    .obj [("op", .str "mutex_new"), ("id", .str "n")],
    .obj [("op", .str "lock"), ("mutex", .str "m")]]

/-- Main keeping that guard, seven moves in. -/
def oneLocked : World :=
  ((World.init .tested lockOne).replay (List.replicate 7 .main)).getD (World.init .tested lockOne)

/-- Main, keeping a guard of the first mutex, alone owns it as holder; the second records no holder. -/
theorem mutual_exclusion_one_locked :
    Reachable (World.init .tested lockOne) oneLocked ∧ oneLocked.owns (.mutex 0) .main = true ∧
    LockRef.mutex 0 ∈ oneLocked.main.guards ∧ oneLocked.main.waitingOn = none ∧
    oneLocked.holder (.mutex 0) = World.pid ∧
    (∀ c, oneLocked.owns (.mutex 0) c = true → c = .main) ∧
    (∀ d y, oneLocked.ctx? d = some y →
      (oneLocked.holder (.mutex 0) = (y.requestTid oneLocked.process).1 ↔ d = .main)) ∧
    (∀ c, oneLocked.owns (.mutex 1) c = false) ∧ oneLocked.holder (.mutex 1) = 0 := by
  have h : Reachable (World.init .tested lockOne) oneLocked := .of_replay (by decide)
  have ho : oneLocked.owns (.mutex 0) .main = true := by decide
  have hg : LockRef.mutex 0 ∈ oneLocked.main.guards := by decide
  have hw : oneLocked.main.waitingOn = none := by decide
  have hfree : ∀ c, oneLocked.owns (.mutex 1) c = false := by
    intro c
    have hnone : (oneLocked.cell (.mutex 1)).owner = none := by decide
    rw [← Bool.not_eq_true, owns_iff, hnone]
    simp
  obtain ⟨huniq, -, -, hguard⟩ := mutual_exclusion h (.mutex 0)
  exact ⟨h, ho, hg, hw, by decide, fun c hc => huniq c .main hc ho,
    (hguard .main _ rfl hg (by simp [hw])).2, hfree, (mutual_exclusion h (.mutex 1)).2.1 hfree⟩

end World

end ThreadKit
