import ThreadKit.Proofs.Sound

/-! Every move of a context's code keeps `World.Sound`. A move on a lock takes the mover one step of
that lock's protocol (`Keeps.touch`); every other move leaves the mover's standing with each lock as
it was (`Keeps.quiet`). The moves whose guard can fail never do so in a sound world: the protocol
puts the mover in the one phase where the guard holds. -/
namespace ThreadKit

namespace World

section
variable {w : World} {c : Ctx} {x : Context} {rest : List Op}

/-- The mover put in its new state and one lock changed, after quiet updates. -/
theorem Local.put_modifyLock {w₁ : World} {l : LockRef} (x' : Context) (hq : Quiet w w₁)
    (hx : w.ctx? c = some x) (hex : (w.lock? l).isSome) (f : LockCell → LockCell) :
    Local w ((w₁.put c x').modifyLock l f) c x' l ∧
      ((w₁.put c x').modifyLock l f).cell l = f (w.cell l) := by
  refine ⟨(Local.put hq hx).modifyLock f, ?_⟩
  rw [cell_modifyLock_self _ _ _ (by simpa [hq.lock l] using hex), cell_put, hq.cell]

/-- Recording the mover's tid as holder of lock `l`. -/
theorem Local.record {y : Context} {l : LockRef} (hx : w.ctx? c = some x)
    (hex : (w.lock? l).isSome) (hsnd : y.self.Sound) (f : Context → Context) :
    Local w (w.record c y l f) c (f (y.requestTid w.process).2.1) l ∧
      (w.record c y l f).cell l = { w.cell l with holder := y.self.kernel } := by
  have hq : Quiet w { w with process := (y.requestTid w.process).2.2 } :=
    Quiet.of_views rfl rfl rfl rfl rfl
  obtain ⟨hloc, hcell⟩ := Local.put_modifyLock (f (y.requestTid w.process).2.1) hq hx hex
    fun cell => { cell with holder := (y.requestTid w.process).1 }
  refine ⟨hloc, ?_⟩
  rw [World.record, hcell, Context.requestTid_fst _ hsnd]

/-- A move on lock `l` keeps the invariant when it changes the mover's standing with `l` alone and
takes the mover to a phase from which the rest of its code is accepted. -/
theorem Sound.touch {w' : World} {x' : Context} {op : Op} {l : LockRef} (hs : w.Sound)
    (hx : w.ctx? c = some x) (hcode : x.code = op :: rest) (hend : x.ended = none)
    (hl₀ : op.lock? = some l) (hloc : Local w w' c x' l) (hself : x'.self.Sound)
    (hk : x'.self.kernel = x.self.kernel) (hsc : x'.scope = x.scope) (hen : x'.ended = none)
    (hguards : ∀ l' ∈ x'.guards, l' ∈ x.guards ∨ l' = l)
    (hgrip : ∀ l', l' ≠ l → x'.grip l' = x.grip l') (hc : x'.code = rest)
    (hcell : LockCell.Passes c (w.cell l) (w'.cell l))
    (hq : ∃ q : Phase, q.Fits (w'.cell l) c x.self.kernel (x'.grip l) ∧
      q.Accepts (x.names l) l rest) : w'.Sound := by
  obtain ⟨q, hfit, hacc⟩ := hq
  refine hs.of_local hx hloc (Keeps.touch hs hx hcode hend hloc hl₀ hself hk hsc hen hguards hgrip
    hc hcell ⟨q, ?_, ?_⟩)
  · rw [hk]
    exact hfit
  · have hn : x'.names l = x.names l := Context.names_of_scope (by rw [hsc]) l
    rw [hn, hc]
    exact hacc

/-- A context outside a wait on the lock of its next move is outside every wait. -/
theorem Sound.waitingOn_eq_none {op : Op} {l : LockRef} (hs : w.Sound) (hx : w.ctx? c = some x)
    (hcode : x.code = op :: rest) (hl : op.lock? = some l) (hnw : x.waitingOn ≠ some l) :
    x.waitingOn = none := by
  cases h : x.waitingOn with
  | none => rfl
  | some l' =>
    have hne : op.lock? ≠ some l' := by
      rw [hl]
      rintro ⟨⟩
      exact hnw h
    exact absurd h ((hs.follows c x hx l').not_waiting hcode hne (Op.ne_finish_of_lock? hl))

/-- Taking a lock nobody owns. -/
theorem Sound.exec_acquire {l : LockRef} (hs : w.Sound) (hx : w.ctx? c = some x)
    (hcode : x.code = .acquire l :: rest) (hend : x.ended = none) (hfree : (w.cell l).owner = none) :
    (w.exec c { x with code := rest } (.acquire l)).Sound := by
  simp only [exec]
  have hex : (w.lock? l).isSome := hs.code c x hx (.acquire l) (by simp [hcode]) l rfl
  obtain ⟨hloc, hcell⟩ := Local.put_modifyLock { x with code := rest } (Quiet.refl w) hx hex
    fun cell => { cell with owner := some c }
  have hholder : (w.cell l).holder = 0 := hs.unowned l hfree
  refine hs.touch hx hcode hend rfl hloc (hs.self c x hx).1 rfl rfl hend (fun _ h => .inl h)
    (fun _ _ => rfl) rfl ?_ ?_
  · refine .inr ⟨.inl hfree, .inr (by rw [hcell]), fun h => ?_⟩
    rw [hcell] at h
    cases h
  · obtain ⟨p, hfit, hacc⟩ := (hs.follows c x hx l).cons hcode rfl
    cases p with
    | free =>
      exact ⟨.taken, ⟨hfit.grip.trans rfl, by simp [hcell, Phase.owned],
        fun _ => by simp [hcell, hholder, Phase.holder]⟩, hacc⟩
    | away k =>
      exact ⟨.vacated k, ⟨hfit.grip.trans rfl, by simp [hcell, Phase.owned],
        fun _ => by simp [hcell, hholder, Phase.holder]⟩, hacc⟩
    | taken | guarded _ | vacated _ =>
      have ho := hfit.owner.mpr rfl
      rw [hfree] at ho
      cases ho

/-- Recording the holder of a lock just taken. -/
theorem Sound.exec_assign {l : LockRef} (hs : w.Sound) (hx : w.ctx? c = some x)
    (hcode : x.code = .assign l :: rest) (hend : x.ended = none) :
    (w.exec c { x with code := rest } (.assign l)).Sound := by
  obtain ⟨p, hfit, hacc⟩ := (hs.follows c x hx l).cons hcode rfl
  -- only a context that has just taken the lock assigns it
  cases p with
  | taken =>
    have hown : (w.cell l).owner = some c := hfit.owner.mpr rfl
    have hex : (w.lock? l).isSome := hs.code c x hx (.assign l) (by simp [hcode]) l rfl
    have hsnd := (hs.self c x hx).1
    have hg := Context.grip_eq_iff.mp hfit.grip
    simp only [Phase.grip] at hg
    simp only [exec, (owns_iff w l c).mpr hown, if_true]
    obtain ⟨hloc, hcell⟩ := Local.record (y := { x with code := rest }) hx hex hsnd
      fun x => { x with guards := l :: x.guards }
    refine hs.touch hx hcode hend rfl hloc (Identity.Self.tid_sound _ hsnd) (by simp) rfl hend
      ?_ ?_ rfl ?_ ⟨.guarded false, ⟨?_, ?_, ?_⟩, hacc⟩
    · intro l' h
      simp only [Context.requestTid_snd, List.mem_cons] at h
      rcases h with rfl | h
      · exact .inr rfl
      · exact .inl h
    · intro l' hne
      dsimp only [Context.grip, Context.requestTid_snd]
      simp [Ne.symm hne]
    · refine .inr ⟨.inr hown, .inr (by rw [hcell]; exact hown), fun h => ?_⟩
      rw [hcell] at h
      simp [hown] at h
    · rw [Context.grip_eq_iff]
      simp [Phase.grip, hg]
    · simp [hcell, hown, Phase.owned]
    · intro _
      simp [hcell, Phase.holder]
  | free | away _ => simp [Phase.step, Outcome.Ends] at hacc
  | guarded k | vacated k => cases k <;> simp [Phase.step, Outcome.Ends] at hacc

/-- Ending a guard the script does not keep. -/
theorem Sound.exec_unassign {l : LockRef} (hs : w.Sound) (hx : w.ctx? c = some x)
    (hcode : x.code = .unassign l :: rest) (hend : x.ended = none) :
    (w.exec c { x with code := rest } (.unassign l)).Sound := by
  obtain ⟨p, hfit, hacc⟩ := (hs.follows c x hx l).cons hcode rfl
  cases p with
  | guarded k =>
    cases k with
    | false =>
      have hown : (w.cell l).owner = some c := hfit.owner.mpr rfl
      have hg := Context.grip_eq_iff.mp hfit.grip
      simp only [Phase.grip, Bool.toNat_false] at hg
      have hin : l ∈ x.guards := List.count_pos_iff.mp (by omega)
      have hex : (w.lock? l).isSome := hs.code c x hx (.unassign l) (by simp [hcode]) l rfl
      have hexec : w.exec c { x with code := rest } (.unassign l) =
          (w.put c { x with code := rest, guards := x.guards.erase l }).modifyLock l
            fun cell => { cell with holder := 0 } := by
        simp [exec, hin]
      obtain ⟨hloc, hcell⟩ := Local.put_modifyLock { x with code := rest, guards := x.guards.erase l }
        (Quiet.refl w) hx hex fun cell => { cell with holder := 0 }
      rw [hexec]
      refine hs.touch hx hcode hend rfl hloc (hs.self c x hx).1 rfl rfl hend
        (fun _ h => .inl (List.mem_of_mem_erase h))
        (fun _ hne => Context.grip_congr (List.count_erase_of_ne hne) .rfl rfl) rfl ?_
        ⟨.taken, ⟨?_, ?_, fun _ => by simp [hcell, Phase.holder]⟩, hacc⟩
      · exact .inr ⟨.inr hown, .inr (by simp [hcell, hown]), fun h => by simp [hcell, hown] at h⟩
      · rw [Context.grip_eq_iff]
        simp [Phase.grip, List.count_erase_self, hg]
      · simp [hcell, hown, Phase.owned]
    | true => simp [Phase.step, Outcome.Ends] at hacc
  | free | taken | away _ => simp [Phase.step, Outcome.Ends] at hacc
  | vacated k => cases k <;> simp [Phase.step, Outcome.Ends] at hacc

/-- Giving up a lock whose guard has ended. -/
theorem Sound.exec_release {l : LockRef} (hs : w.Sound) (hx : w.ctx? c = some x)
    (hcode : x.code = .release l :: rest) (hend : x.ended = none) :
    (w.exec c { x with code := rest } (.release l)).Sound := by
  obtain ⟨p, hfit, hacc⟩ := (hs.follows c x hx l).cons hcode rfl
  cases p with
  | taken =>
    have hown : (w.cell l).owner = some c := hfit.owner.mpr rfl
    have hholder : (w.cell l).holder = 0 := hfit.holder rfl
    have hg := Context.grip_eq_iff.mp hfit.grip
    simp only [Phase.grip] at hg
    have hnin : l ∉ x.guards := List.count_eq_zero.mp hg.1
    have hex : (w.lock? l).isSome := hs.code c x hx (.release l) (by simp [hcode]) l rfl
    have hexec : w.exec c { x with code := rest } (.release l) =
        (w.put c { x with code := rest }).modifyLock l fun cell => { cell with owner := none } := by
      simp [exec, (owns_iff w l c).mpr hown, hnin, hg.2.1]
    obtain ⟨hloc, hcell⟩ := Local.put_modifyLock { x with code := rest } (Quiet.refl w) hx hex
      fun cell => { cell with owner := none }
    rw [hexec]
    refine hs.touch hx hcode hend rfl hloc (hs.self c x hx).1 rfl rfl hend (fun _ h => .inl h)
      (fun _ _ => rfl) rfl ?_ ⟨.free, ⟨hfit.grip.trans rfl, by simp [hcell, Phase.owned],
        fun h => by cases h⟩, hacc⟩
    exact .inr ⟨.inr hown, .inl (by simp [hcell]), fun _ => by simp [hcell, hholder]⟩
  | free | away _ => simp [Phase.step, Outcome.Ends] at hacc
  | guarded k | vacated k => cases k <;> simp [Phase.step, Outcome.Ends] at hacc

/-- Entering a condition wait: the holder is cleared and the guard stays live. -/
theorem Sound.exec_vacate {l : LockRef} (hs : w.Sound) (hx : w.ctx? c = some x)
    (hcode : x.code = .vacate l :: rest) (hend : x.ended = none) :
    (w.exec c { x with code := rest } (.vacate l)).Sound := by
  obtain ⟨p, hfit, hacc⟩ := (hs.follows c x hx l).cons hcode rfl
  cases p with
  | guarded k =>
    have hown : (w.cell l).owner = some c := hfit.owner.mpr rfl
    have hg := Context.grip_eq_iff.mp hfit.grip
    simp only [Phase.grip] at hg
    have hin : l ∈ x.guards := List.count_pos_iff.mp (by omega)
    have hnone : x.waitingOn = none := hs.waitingOn_eq_none hx hcode rfl (by simpa using hg.2.1)
    have hex : (w.lock? l).isSome := hs.code c x hx (.vacate l) (by simp [hcode]) l rfl
    have hexec : w.exec c { x with code := rest } (.vacate l) =
        (w.put c { x with code := rest, waitingOn := some l }).modifyLock l
          fun cell => { cell with holder := 0 } := by
      simp [exec, hin, (owns_iff w l c).mpr hown]
    obtain ⟨hloc, hcell⟩ := Local.put_modifyLock { x with code := rest, waitingOn := some l }
      (Quiet.refl w) hx hex fun cell => { cell with holder := 0 }
    rw [hexec]
    refine hs.touch hx hcode hend rfl hloc (hs.self c x hx).1 rfl rfl hend (fun _ h => .inl h)
      (fun _ hne => Context.grip_congr rfl (by simp [hnone, Ne.symm hne]) rfl) rfl ?_
      ⟨.vacated k, ⟨?_, ?_, fun _ => by simp [hcell, Phase.holder]⟩, hacc⟩
    · exact .inr ⟨.inr hown, .inr (by simp [hcell, hown]), fun h => by simp [hcell, hown] at h⟩
    · rw [Context.grip_eq_iff]
      simp [Phase.grip, hg]
    · simp [hcell, hown, Phase.owned]
  | free | taken | away _ => simp [Phase.step, Outcome.Ends] at hacc
  | vacated k => cases k <;> simp [Phase.step, Outcome.Ends] at hacc

/-- Giving the lock up and sleeping, inside a condition wait. -/
theorem Sound.exec_park {cv : CondRef} {l : LockRef} (hs : w.Sound) (hx : w.ctx? c = some x)
    (hcode : x.code = .park cv l :: rest) (hend : x.ended = none) :
    (w.exec c { x with code := rest } (.park cv l)).Sound := by
  obtain ⟨p, hfit, hacc⟩ := (hs.follows c x hx l).cons hcode rfl
  cases p with
  | vacated k =>
    have hown : (w.cell l).owner = some c := hfit.owner.mpr rfl
    have hholder : (w.cell l).holder = 0 := hfit.holder rfl
    have hg := Context.grip_eq_iff.mp hfit.grip
    simp only [Phase.grip] at hg
    have hwait : x.waitingOn = some l := hg.2.1.mpr trivial
    have hex : (w.lock? l).isSome := hs.code c x hx (.park cv l) (by simp [hcode]) l rfl
    have hexec : w.exec c { x with code := rest } (.park cv l) =
        ({ w with ticket := w.ticket + 1 }.put c
          { x with code := rest, parked := some (cv, w.ticket) }).modifyLock l
            fun cell => { cell with owner := none } := by
      simp [exec, hwait, (owns_iff w l c).mpr hown]
    obtain ⟨hloc, hcell⟩ := Local.put_modifyLock { x with code := rest, parked := some (cv, w.ticket) }
      (Quiet.of_views rfl rfl rfl rfl rfl : Quiet w { w with ticket := w.ticket + 1 }) hx hex
      fun cell => { cell with owner := none }
    rw [hexec]
    refine hs.touch hx hcode hend rfl hloc (hs.self c x hx).1 rfl rfl hend (fun _ h => .inl h)
      (fun _ _ => Context.grip_congr rfl .rfl rfl) rfl ?_
      ⟨.away k, ⟨hfit.grip.trans rfl, by simp [hcell, Phase.owned], fun h => by cases h⟩, hacc⟩
    exact .inr ⟨.inr hown, .inl (by simp [hcell]), fun _ => by simp [hcell, hholder]⟩
  | free | taken | away _ => simp [Phase.step, Outcome.Ends] at hacc
  | guarded k => cases k <;> simp [Phase.step, Outcome.Ends] at hacc

/-- Leaving a condition wait with the lock taken again: the holder is recorded anew. -/
theorem Sound.exec_reclaim {l : LockRef} (hs : w.Sound) (hx : w.ctx? c = some x)
    (hcode : x.code = .reclaim l :: rest) (hend : x.ended = none) :
    (w.exec c { x with code := rest } (.reclaim l)).Sound := by
  obtain ⟨p, hfit, hacc⟩ := (hs.follows c x hx l).cons hcode rfl
  cases p with
  | vacated k =>
    have hown : (w.cell l).owner = some c := hfit.owner.mpr rfl
    have hg := Context.grip_eq_iff.mp hfit.grip
    simp only [Phase.grip] at hg
    have hwait : x.waitingOn = some l := hg.2.1.mpr trivial
    have hex : (w.lock? l).isSome := hs.code c x hx (.reclaim l) (by simp [hcode]) l rfl
    have hsnd := (hs.self c x hx).1
    have hexec : w.exec c { x with code := rest } (.reclaim l) =
        w.record c { x with code := rest } l fun x => { x with waitingOn := none } := by
      simp [exec, hwait, (owns_iff w l c).mpr hown]
    obtain ⟨hloc, hcell⟩ := Local.record (y := { x with code := rest }) hx hex hsnd
      fun x => { x with waitingOn := none }
    rw [hexec]
    refine hs.touch hx hcode hend rfl hloc (Identity.Self.tid_sound _ hsnd) (by simp) rfl hend
      (fun _ h => .inl h) (fun _ hne => Context.grip_congr rfl (by simp [hwait, Ne.symm hne]) rfl)
      rfl ?_ ⟨.guarded k, ⟨?_, by simp [hcell, hown, Phase.owned],
        fun _ => by simp [hcell, Phase.holder]⟩, hacc⟩
    · exact .inr ⟨.inr hown, .inr (by simp [hcell, hown]), fun h => by simp [hcell, hown] at h⟩
    · rw [Context.grip_eq_iff]
      simp [Phase.grip, hg]
  | free | taken | away _ => simp [Phase.step, Outcome.Ends] at hacc
  | guarded k => cases k <;> simp [Phase.step, Outcome.Ends] at hacc

/-- The script keeps a guard just made. -/
theorem Sound.exec_keep {m : Nat} (hs : w.Sound) (hx : w.ctx? c = some x)
    (hcode : x.code = .keep m :: rest) (hend : x.ended = none) :
    (w.exec c { x with code := rest } (.keep m)).Sound := by
  obtain ⟨p, hfit, hacc⟩ := (hs.follows c x hx (.mutex m)).cons hcode rfl
  cases p with
  | guarded k =>
    cases k with
    | false =>
      have hg := Context.grip_eq_iff.mp hfit.grip
      simp only [Phase.grip, Bool.toNat_false] at hg
      have hloc : Local w (w.put c { x with code := rest, held := m :: x.held }) c
          { x with code := rest, held := m :: x.held } (.mutex m) := Local.put (Quiet.refl w) hx
      show (w.put c { x with code := rest, held := m :: x.held }).Sound
      refine hs.touch hx hcode hend rfl hloc (hs.self c x hx).1 rfl rfl hend (fun _ h => .inl h)
        (fun _ hne => Context.grip_congr rfl .rfl ?_) rfl (.inl (cell_put ..))
        ⟨.guarded true, ⟨?_, by rw [cell_put]; exact hfit.owner, by rw [cell_put]; exact hfit.holder⟩, hacc⟩
      · exact LockRef.kept_cons_of_ne hne x.held
      · rw [Context.grip_eq_iff]
        simp_all [Phase.grip, LockRef.kept]
    | true => simp [Phase.step, Outcome.Ends] at hacc
  | free | taken | away _ => simp [Phase.step, Outcome.Ends] at hacc
  | vacated k => cases k <;> simp [Phase.step, Outcome.Ends] at hacc

/-- The script lets go of a guard it kept. -/
theorem Sound.exec_unkeep {m : Nat} (hs : w.Sound) (hx : w.ctx? c = some x)
    (hcode : x.code = .unkeep m :: rest) (hend : x.ended = none) :
    (w.exec c { x with code := rest } (.unkeep m)).Sound := by
  obtain ⟨p, hfit, hacc⟩ := (hs.follows c x hx (.mutex m)).cons hcode rfl
  cases p with
  | guarded k =>
    cases k with
    | true =>
      have hg := Context.grip_eq_iff.mp hfit.grip
      simp only [Phase.grip, Bool.toNat_true] at hg
      have hloc : Local w (w.put c { x with code := rest, held := x.held.erase m }) c
          { x with code := rest, held := x.held.erase m } (.mutex m) := Local.put (Quiet.refl w) hx
      show (w.put c { x with code := rest, held := x.held.erase m }).Sound
      refine hs.touch hx hcode hend rfl hloc (hs.self c x hx).1 rfl rfl hend (fun _ h => .inl h)
        (fun _ hne => Context.grip_congr rfl .rfl (LockRef.kept_erase_of_ne hne x.held)) rfl
        (.inl (cell_put ..))
        ⟨.guarded false, ⟨?_, by rw [cell_put]; exact hfit.owner, by rw [cell_put]; exact hfit.holder⟩,
          hacc⟩
      rw [Context.grip_eq_iff]
      simp_all [Phase.grip, LockRef.kept, List.count_erase_self]
    | false => simp [Phase.step, Outcome.Ends] at hacc
  | free | taken | away _ => simp [Phase.step, Outcome.Ends] at hacc
  | vacated k => cases k <;> simp [Phase.step, Outcome.Ends] at hacc

/-- A move that changes the mover's standing with no lock: a quiet update, the mover put in its
new state, and quiet updates that leave it awake. -/
theorem Sound.put_quiet {w' : World} (w₁ : World) (x' : Context) {op : Op} (hs : w.Sound)
    (hx : w.ctx? c = some x) (hcode : x.code = op :: rest) (hend : x.ended = none)
    (hop : op.keepsPhase = true) (hf : ∀ f, op ≠ .finish f) (hq₀ : Quiet w w₁)
    (hq : Quiet (w₁.put c x') w') (hp : x'.parked = none) (hal : x.Alike x')
    (hself : x'.self.Sound) (hc : x'.code = rest) : w'.Sound := by
  have hput : Local w (w₁.put c x') c x' (.mutex 0) := Local.put hq₀ hx
  have hloc : Local w w' c x' (.mutex 0) := hput.quiet hq (hq.ctx?_of_awake hput.self hp)
  have hcell : w'.cell (.mutex 0) = w.cell (.mutex 0) := by rw [hq.cell, cell_put, hq₀.cell]
  exact hs.of_local hx hloc (Keeps.quiet hs hx hcode hend hloc hcell
    (Phase.step_of_keepsPhase hop) hf hal hself hc)

/-- A move that keeps its lock's phase is made by the lock's owner. -/
theorem Sound.owns_of_keepsPhase {op : Op} {l : LockRef} (hs : w.Sound) (hx : w.ctx? c = some x)
    (hcode : x.code = op :: rest) (hl : op.lock? = some l) (hop : op.keepsPhase = true) :
    (w.cell l).owner = some c := by
  obtain ⟨p, hfit, hacc⟩ := (hs.follows c x hx l).cons hcode hl
  rcases Phase.step_of_keepsPhase hop p with h | h
  · exact hfit.owner.mpr (Phase.owned_of_step_self hop h)
  · rw [h] at hacc
    simp [Outcome.Ends] at hacc

theorem Sound.exec_read {m : Nat} (hs : w.Sound) (hx : w.ctx? c = some x)
    (hcode : x.code = .read m :: rest) (hend : x.ended = none) (hpk : x.parked = none) :
    (w.exec c { x with code := rest } (.read m)).Sound := by
  have hown := hs.owns_of_keepsPhase hx hcode rfl rfl
  have hexec : w.exec c { x with code := rest } (.read m) =
      w.put c { x with code := rest, loaded := w.value m } := by
    simp [exec, (owns_iff _ _ _).mpr hown]
  rw [hexec]
  exact hs.put_quiet w _ hx hcode hend rfl (by simp) (Quiet.refl w) (Quiet.refl _) hpk
    ⟨rfl, rfl, rfl, rfl, rfl, rfl, rfl⟩ (hs.self c x hx).1 rfl

theorem Sound.exec_write {m : Nat} {f : Int64 → Int64} (hs : w.Sound) (hx : w.ctx? c = some x)
    (hcode : x.code = .write m f :: rest) (hend : x.ended = none) (hpk : x.parked = none) :
    (w.exec c { x with code := rest } (.write m f)).Sound := by
  have hown := hs.owns_of_keepsPhase hx hcode rfl rfl
  have hexec : w.exec c { x with code := rest } (.write m f) =
      (w.put c { x with code := rest }).update m f (f x.loaded) := by
    simp [exec, (owns_iff _ _ _).mpr hown]
  rw [hexec]
  exact hs.put_quiet w _ hx hcode hend rfl (by simp) (Quiet.refl w) (Quiet.update _ _ _ _) hpk
    ⟨rfl, rfl, rfl, rfl, rfl, rfl, rfl⟩ (hs.self c x hx).1 rfl

theorem Sound.exec_countDown {k : Nat} (hs : w.Sound) (hx : w.ctx? c = some x)
    (hcode : x.code = .countDown k :: rest) (hend : x.ended = none) (hpk : x.parked = none) :
    (w.exec c { x with code := rest } (.countDown k)).Sound := by
  have hown := hs.owns_of_keepsPhase hx hcode rfl rfl
  have key : ∀ w', Quiet (w.put c { x with code := rest }) w' → w'.Sound := fun _ hq =>
    hs.put_quiet w _ hx hcode hend rfl (by simp) (Quiet.refl w) hq hpk ⟨rfl, rfl, rfl, rfl, rfl, rfl, rfl⟩
      (hs.self c x hx).1 rfl
  have hq₁ := Quiet.modifyLatch (w.put c { x with code := rest }) k
    (fun l => { l with downs := l.downs + 1 }) fun _ => rfl
  simp only [exec, (owns_iff _ _ _).mpr hown, if_true]
  split
  · exact key _ hq₁
  · exact key _ ((hq₁.trans (Quiet.modifyLatch _ k (fun l => { l with count := 0 })
      fun _ => rfl)).trans (Quiet.broadcast _ _))
  · rename_i n _
    exact key _ (hq₁.trans (Quiet.modifyLatch _ k (fun l => { l with count := n + 1 }) fun _ => rfl))

theorem Sound.exec_signal {cv : CondRef} (hs : w.Sound) (hx : w.ctx? c = some x)
    (hcode : x.code = .signal cv :: rest) (hend : x.ended = none) (hpk : x.parked = none) :
    (w.exec c { x with code := rest } (.signal cv)).Sound :=
  hs.put_quiet w _ hx hcode hend rfl (by simp) (Quiet.refl w) (Quiet.signal _ _) hpk
    ⟨rfl, rfl, rfl, rfl, rfl, rfl, rfl⟩ (hs.self c x hx).1 rfl

theorem Sound.exec_broadcast {cv : CondRef} (hs : w.Sound) (hx : w.ctx? c = some x)
    (hcode : x.code = .broadcast cv :: rest) (hend : x.ended = none) (hpk : x.parked = none) :
    (w.exec c { x with code := rest } (.broadcast cv)).Sound :=
  hs.put_quiet w _ hx hcode hend rfl (by simp) (Quiet.refl w) (Quiet.broadcast _ _) hpk
    ⟨rfl, rfl, rfl, rfl, rfl, rfl, rfl⟩ (hs.self c x hx).1 rfl

theorem Sound.exec_note {q : Query} (hs : w.Sound) (hx : w.ctx? c = some x)
    (hcode : x.code = .note q :: rest) (hend : x.ended = none) (hpk : x.parked = none) :
    (w.exec c { x with code := rest } (.note q)).Sound := by
  have hsnd := (hs.self c x hx).1
  by_cases ht : q.needsTid = true
  · have hexec : w.exec c { x with code := rest } (.note q) =
        { w with process := (x.self.tid w.process).2.2 }.put c
          { x with code := rest, self := (x.self.tid w.process).2.1,
                   reply := w.query (x.self.tid w.process).1 q } := by
      simp [exec, ht, Context.requestTid]
    rw [hexec]
    exact hs.put_quiet { w with process := (x.self.tid w.process).2.2 }
      { x with code := rest, self := (x.self.tid w.process).2.1,
               reply := w.query (x.self.tid w.process).1 q }
      hx hcode hend rfl (by simp) (Quiet.of_views rfl rfl rfl rfl rfl) (Quiet.refl _) hpk
      ⟨by simp, rfl, rfl, rfl, rfl, rfl, rfl⟩ (Identity.Self.tid_sound _ hsnd) rfl
  · have hexec : w.exec c { x with code := rest } (.note q) =
        w.put c { x with code := rest, reply := w.query 0 q } := by
      simp [exec, ht]
    rw [hexec]
    exact hs.put_quiet w _ hx hcode hend rfl (by simp) (Quiet.refl w) (Quiet.refl _) hpk
      ⟨rfl, rfl, rfl, rfl, rfl, rfl, rfl⟩ hsnd rfl

theorem Sound.exec_complete (hs : w.Sound) (hx : w.ctx? c = some x)
    (hcode : x.code = .complete :: rest) (hend : x.ended = none) (hpk : x.parked = none) :
    (w.exec c { x with code := rest } .complete).Sound :=
  hs.put_quiet w _ hx hcode hend rfl (by simp) (Quiet.refl w) (Quiet.refl _) hpk
    ⟨rfl, rfl, rfl, rfl, rfl, rfl, rfl⟩ (hs.self c x hx).1 rfl

theorem Sound.exec_rename {n : String} (hs : w.Sound) (hx : w.ctx? c = some x)
    (hcode : x.code = .rename n :: rest) (hend : x.ended = none) (hpk : x.parked = none) :
    (w.exec c { x with code := rest } (.rename n)).Sound :=
  hs.put_quiet w _ hx hcode hend rfl (by simp) (Quiet.refl w) (Quiet.refl _) hpk
    ⟨rfl, rfl, rfl, rfl, rfl, rfl, rfl⟩ (Identity.Self.rename_sound n (hs.self c x hx).1) rfl

theorem Sound.exec_pause {t : Nat} (hs : w.Sound) (hx : w.ctx? c = some x)
    (hcode : x.code = .pause t :: rest) (hend : x.ended = none) (hpk : x.parked = none) :
    (w.exec c { x with code := rest } (.pause t)).Sound :=
  hs.put_quiet w _ hx hcode hend rfl (by simp) (Quiet.refl w) (Quiet.refl _) hpk
    ⟨rfl, rfl, rfl, rfl, rfl, rfl, rfl⟩ (hs.self c x hx).1 rfl

theorem Sound.exec_publish {i : Nat} (hs : w.Sound) (hx : w.ctx? c = some x)
    (hcode : x.code = .publish i :: rest) (hend : x.ended = none) (hpk : x.parked = none) :
    (w.exec c { x with code := rest } (.publish i)).Sound := by
  have hexec : w.exec c { x with code := rest } (.publish i) =
      ({ w with process := (x.self.tid w.process).2.2 }.put c
        { x with code := rest, self := (x.self.tid w.process).2.1 }).modifySlot i
          fun s => { s with published := (x.self.tid w.process).1 } := by
    simp [exec, Context.requestTid]
  rw [hexec]
  refine hs.put_quiet { w with process := (x.self.tid w.process).2.2 }
    { x with code := rest, self := (x.self.tid w.process).2.1 } hx hcode hend rfl
    (by simp) (Quiet.of_views rfl rfl rfl rfl rfl) ?_ hpk
    ⟨by simp, rfl, rfl, rfl, rfl, rfl, rfl⟩ (Identity.Self.tid_sound _ (hs.self c x hx).1) rfl
  exact Quiet.modifySlot _ _ _ (fun _ => rfl) fun _ => ⟨fun h => h, .inl rfl⟩

theorem Sound.exec_adopt {i : Nat} (hs : w.Sound) (hx : w.ctx? c = some x)
    (hcode : x.code = .adopt i :: rest) (hend : x.ended = none) (hpk : x.parked = none) :
    (w.exec c { x with code := rest } (.adopt i)).Sound := by
  cases hsl : w.slots[i]? with
  | some s =>
    have hexec : w.exec c { x with code := rest } (.adopt i) =
        ({ w with labels := (s.published, s.id) :: w.labels }.put c
          { x with code := rest, reply := .started s.published }).modifySlot i
            fun s => { s with tid := s.published } := by
      simp [exec, hsl]
    rw [hexec]
    refine hs.put_quiet { w with labels := (s.published, s.id) :: w.labels }
      { x with code := rest, reply := .started s.published } hx hcode hend rfl
      (by simp) (Quiet.of_views rfl rfl rfl rfl rfl) ?_ hpk
      ⟨rfl, rfl, rfl, rfl, rfl, rfl, rfl⟩ (hs.self c x hx).1 rfl
    exact Quiet.modifySlot _ _ _ (fun _ => rfl) fun _ => ⟨fun h => h, .inl rfl⟩
  | none =>
    have hexec : w.exec c { x with code := rest } (.adopt i) = w.put c { x with code := rest } := by
      simp [exec, hsl]
    rw [hexec]
    exact hs.put_quiet w _ hx hcode hend rfl (by simp) (Quiet.refl w) (Quiet.refl _) hpk
      ⟨rfl, rfl, rfl, rfl, rfl, rfl, rfl⟩ (hs.self c x hx).1 rfl

theorem Sound.exec_awaitEnd {i : Nat} (hs : w.Sound) (hx : w.ctx? c = some x)
    (hcode : x.code = .awaitEnd i :: rest) (hend : x.ended = none) (hpk : x.parked = none) :
    (w.exec c { x with code := rest } (.awaitEnd i)).Sound := by
  have key : ∀ r, (w.put c { x with code := rest, reply := r }).Sound := fun _ =>
    hs.put_quiet w _ hx hcode hend rfl (by simp) (Quiet.refl w) (Quiet.refl _) hpk
      ⟨rfl, rfl, rfl, rfl, rfl, rfl, rfl⟩ (hs.self c x hx).1 rfl
  simp only [exec]
  split
  · split
    · exact key _
    · exact key _
    · exact key x.reply
  · exact key x.reply

/-- A condition wait re-checks its condition: while it holds, the moves of one more wait come
first. -/
theorem Sound.exec_waitWhile {cv : CondRef} {l : LockRef} {pr : Int → Bool} (hs : w.Sound)
    (hx : w.ctx? c = some x) (hcode : x.code = .waitWhile cv l pr :: rest) (hend : x.ended = none)
    (hpk : x.parked = none) : (w.exec c { x with code := rest } (.waitWhile cv l pr)).Sound := by
  have hown := hs.owns_of_keepsPhase hx hcode rfl rfl
  by_cases hp : pr (w.guarded l) = true
  · -- the moves of one wait, then the re-check again
    obtain ⟨x', hx'⟩ : ∃ x', x' = { x with
        code := [Op.vacate l, .park cv l, .acquire l, .reclaim l, .waitWhile cv l pr] ++ rest } :=
      ⟨_, rfl⟩
    have hexec : w.exec c { x with code := rest } (.waitWhile cv l pr) = w.put c x' := by
      simp [exec, (owns_iff _ _ _).mpr hown, hp, hx']
    rw [hexec]
    have hloc : Local w (w.put c x') c x' (.mutex 0) := Local.put (Quiet.refl w) hx
    subst hx'
    refine hs.of_local hx hloc (Keeps.of_code hs hx hcode hend hloc (hs.self c x hx).1 rfl rfl rfl hend
      (fun _ h => .inl h) ?_ (.inl (cell_put ..)) (.inr (cell_put ..)) fun l' => ?_)
    · -- the wait's own moves work on the lock of the re-check
      intro op' hop' l' hl'
      simp only [List.cons_append, List.nil_append, List.mem_cons] at hop'
      rcases hop' with rfl | rfl | rfl | rfl | rfl | hop'
      iterate 5 exact ⟨.waitWhile cv l pr, by simp [hcode], hl'⟩
      exact ⟨op', by simp [hcode, hop'], hl'⟩
    · obtain ⟨p, hfit, hacc⟩ := hs.follows c x hx l'
      refine ⟨p, by rw [cell_put]; exact hfit, ?_⟩
      rw [hcode] at hacc
      unfold Phase.Accepts at hacc ⊢
      simp only [List.cons_append, List.nil_append]
      rw [Outcome.run_waitWhile_expand]
      exact hacc
  · have hexec : w.exec c { x with code := rest } (.waitWhile cv l pr) =
        w.put c { x with code := rest } := by
      simp [exec, hp]
    rw [hexec]
    exact hs.put_quiet w _ hx hcode hend rfl (by simp) (Quiet.refl w) (Quiet.refl _) hpk
      ⟨rfl, rfl, rfl, rfl, rfl, rfl, rfl⟩ (hs.self c x hx).1 rfl

/-- A function ends with its last move, free of each lock or with a guard it can no longer name. -/
theorem Follows.finish {f : Option Failure} {l : LockRef} (h : w.Follows c x l)
    (hcode : x.code = .finish f :: rest) :
    rest = [] ∧ ∃ p : Phase, p.Fits (w.cell l) c x.self.kernel (x.grip l) ∧
      (p = .free ∨ (p = .guarded false ∧ x.names l = false)) := by
  obtain ⟨p, hfit, hacc⟩ := h
  rw [hcode] at hacc
  have hrest : rest = [] := by
    cases rest with
    | nil => rfl
    | cons op rest' =>
      rcases p with _ | _ | ⟨_ | _⟩ | ⟨_ | _⟩ | ⟨_ | _⟩ <;>
        simp [Phase.Accepts, Phase.next, Phase.pass, Op.lock?, Outcome.Ends] at hacc
  subst hrest
  refine ⟨rfl, p, hfit, ?_⟩
  rcases p with _ | _ | ⟨_ | _⟩ | ⟨_ | _⟩ | ⟨_ | _⟩ <;>
    simp_all [Phase.Accepts, Phase.next, Phase.pass, Op.lock?, Outcome.Ends]

/-- What the mover keeps when its function ends: it lets go of its scope and owns no lock but one
whose guard it has forgotten. -/
theorem Keeps.finish {w' : World} {x' : Context} {f : Option Failure} {l₀ : LockRef}
    (hs : w.Sound) (hx : w.ctx? c = some x) (hcode : x.code = .finish f :: rest)
    (hend : x.ended = none) (hcells : ∀ l, w'.cell l = w.cell l) (hself : x'.self.Sound)
    (hk : x'.self.kernel = x.self.kernel) (hsc : x'.scope = {}) (hen : x'.ended.isSome)
    (hg : ∀ l, x'.grip l = x.grip l) (hc : x'.code = rest) : Keeps w w' c x x' l₀ where
  self := ⟨hself, hk⟩
  cell := .inl (hcells l₀)
  follows l := by
    obtain ⟨hrest, p, hfit, hp⟩ := (hs.follows c x hx l).finish hcode
    refine ⟨p, ⟨by rw [hg]; exact hfit.grip, by rw [hcells]; exact hfit.owner,
      by rw [hcells, hk]; exact hfit.holder⟩, ?_⟩
    rw [hc, hrest]
    rcases hp with rfl | ⟨rfl, hn⟩
    · trivial
    · -- a guard left at the end is of a mutex, which the emptied scope no longer names
      cases l with
      | mutex m => simp [Phase.Accepts, Outcome.Ends, Context.names, hsc, Scope.refersTo]
      | latch k => simp [Context.names] at hn
  code op hop := by
    rw [hc, ((hs.follows c x hx l₀).finish hcode).1] at hop
    cases hop
  scope := by
    rw [hsc]
    exact ⟨fun _ h => (List.not_mem_nil h).elim, fun _ h => (List.not_mem_nil h).elim⟩
  named _ _ h := by simp [h] at hen
  ended i hci _ l := by
    -- a managed thread names every mutex it owns, so it leaves no guard behind
    rw [hcells]
    intro ho
    obtain ⟨-, p, hfit, hp⟩ := (hs.follows c x hx l).finish hcode
    rcases hp with rfl | ⟨rfl, hn⟩
    · exact absurd (hfit.owner.mp ho) (by decide)
    · subst hci
      cases l with
      | mutex m =>
        have := hs.named i x hx hend m (.inl ho)
        simp [Context.names, this] at hn
      | latch k => simp [Context.names] at hn
  keys _ := by
    rw [hsc]
    exact List.nodup_nil

theorem Sound.exec_finish {f : Option Failure} (hs : w.Sound) (hx : w.ctx? c = some x)
    (hcode : x.code = .finish f :: rest) (hend : x.ended = none) (hpk : x.parked = none) :
    (w.exec c { x with code := rest } (.finish f)).Sound := by
  have key : ∀ (x' : Context) (w' : World), Quiet (w.put c x') w' → x'.parked = none →
      x'.self.Sound → x'.self.kernel = x.self.kernel → x'.scope = {} → x'.ended.isSome →
      x'.code = rest → (∀ l, x'.grip l = x.grip l) → w'.Sound := by
    intro x' w' hq hp hself hk hsc hen hc hg
    have hput : Local w (w.put c x') c x' (.mutex 0) := Local.put (Quiet.refl w) hx
    have hloc := hput.quiet hq (hq.ctx?_of_awake hput.self hp)
    exact hs.of_local hx hloc (Keeps.finish hs hx hcode hend (fun l => by rw [hq.cell, cell_put])
      hself hk hsc hen hg hc)
  have hsnd := (hs.self c x hx).1
  cases c with
  | main =>
    exact key { x with code := rest, scope := {}, ended := some .returned } _
      ((Quiet.release _ _).trans (Quiet.dropRefs _ _))
      hpk hsnd rfl rfl rfl rfl fun _ => Context.grip_congr rfl .rfl rfl
  | thread i =>
    have thread : ∀ (n : String) (e : Ending) (w' : World),
        Quiet (((w.put (.thread i)
          { x with code := rest, scope := {}, self := x.self.rename n, ended := some e }).release
            (x.scope.threads.map (·.2))).dropRefs
              (x.scope.mutexes.map (·.2) ++ w.capturedBy (x.scope.threads.map (·.2)))) w' →
        w'.Sound := fun n e _ hq =>
      key { x with code := rest, scope := {}, self := x.self.rename n, ended := some e } _
        (((Quiet.release _ _).trans (Quiet.dropRefs _ _)).trans hq) hpk
        (Identity.Self.rename_sound _ hsnd) rfl rfl rfl rfl fun _ => Context.grip_congr rfl .rfl rfl
    cases f with
    | none => exact thread _ _ _ (Quiet.refl _)
    | some f =>
      simp only [exec, World.finish, Option.isSome_some, ↓reduceIte]
      split
      · exact thread _ _ _ (Quiet.of_views rfl rfl rfl rfl rfl)
      · exact thread _ _ _ (Quiet.refl _)

/-- A fork ends with the parent's reply, after it asked for its tid again, whatever its child ran
to. -/
theorem Sound.forked {b : Tid} (e : World) (hs : w.Sound) (hx : w.ctx? c = some x)
    (hcode : x.code = .fork b :: rest) (hend : x.ended = none) (hpk : x.parked = none) :
    (w.forked c { x with code := rest } b e).Sound := by
  let x' := { x with code := rest, self := (x.self.tid w.process).2.1 }.answer
    (.fork (forkReport b (x.self.tid w.process).1 e))
  rw [forked_eq]
  exact hs.put_quiet { w with process := (x.self.tid w.process).2.2 } x' hx hcode hend rfl (by simp)
    (Quiet.of_views rfl rfl rfl rfl rfl)
    (Quiet.refl _) hpk ⟨by simp [x', Context.answer], rfl, rfl, rfl, rfl, rfl, rfl⟩
    (Identity.Self.tid_sound _ (hs.self c x hx).1) rfl

theorem Sound.exec {op : Op} (hs : w.Sound) (hx : w.ctx? c = some x)
    (hcode : x.code = op :: rest) (hend : x.ended = none) (hpk : x.parked = none)
    (hwait : w.waits op = false) : (w.exec c { x with code := rest } op).Sound := by
  cases op with
  | acquire l =>
    refine hs.exec_acquire hx hcode hend ?_
    rw [waits_acquire] at hwait
    simpa using hwait
  | assign l => exact hs.exec_assign hx hcode hend
  | unassign l => exact hs.exec_unassign hx hcode hend
  | release l => exact hs.exec_release hx hcode hend
  | vacate l => exact hs.exec_vacate hx hcode hend
  | park cv l => exact hs.exec_park hx hcode hend
  | reclaim l => exact hs.exec_reclaim hx hcode hend
  | waitWhile cv l p => exact hs.exec_waitWhile hx hcode hend hpk
  | signal cv => exact hs.exec_signal hx hcode hend hpk
  | broadcast cv => exact hs.exec_broadcast hx hcode hend hpk
  | read m => exact hs.exec_read hx hcode hend hpk
  | write m f => exact hs.exec_write hx hcode hend hpk
  | countDown k => exact hs.exec_countDown hx hcode hend hpk
  | keep m => exact hs.exec_keep hx hcode hend
  | unkeep m => exact hs.exec_unkeep hx hcode hend
  | note q => exact hs.exec_note hx hcode hend hpk
  | complete => exact hs.exec_complete hx hcode hend hpk
  | publish i => exact hs.exec_publish hx hcode hend hpk
  | rename n => exact hs.exec_rename hx hcode hend hpk
  | adopt i => exact hs.exec_adopt hx hcode hend hpk
  | awaitEnd i => exact hs.exec_awaitEnd hx hcode hend hpk
  | pause t => exact hs.exec_pause hx hcode hend hpk
  | fork b => simp [World.waits] at hwait
  | finish f => exact hs.exec_finish hx hcode hend hpk

end

end World

end ThreadKit
