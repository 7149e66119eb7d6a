import ThreadKit.Proofs.Wakeup
import ThreadKit.Proofs.Ending

/-! Condition waits. A context sleeps on a condition only inside a condition wait: it gives the
recorded holder of the wait's lock up first, and records itself again only once woken and
relocked (`World.Asleep`). With the lock protocol this is the contract of a wait
(`World.wait_while_contract`): the predicate is checked only by the lock's owner and recorded
holder; a context inside the wait is never the recorded holder; the wait ends only with the
predicate false, the waiter owning the lock and recorded as its holder; and from then on no other
context changes the guarded value until the waiter lets the lock go or waits again. -/
namespace ThreadKit

open Script

namespace World

/-- What a move leaves for the waits: every context asleep after it is inside a wait or sleeps as
it did before, inside the same wait; and no mutex goes away. -/
structure Lulls (w w' : World) : Prop where
  sleepers : ∀ d y', w'.ctx? d = some y' → y'.parked.isSome →
    y'.waitingOn.isSome ∨ ∃ y, w.ctx? d = some y ∧ y'.parked = y.parked ∧ y'.waitingOn = y.waitingOn
  mutexes : w.mutexes.size ≤ w'.mutexes.size

namespace Lulls

variable {w w₁ w' : World}

theorem refl (w : World) : Lulls w w :=
  ⟨fun _ y hy _ => .inr ⟨y, hy, rfl, rfl⟩, Nat.le_refl _⟩

theorem trans (h₁ : Lulls w w₁) (h₂ : Lulls w₁ w') : Lulls w w' where
  sleepers d y' hy' hp := by
    rcases h₂.sleepers d y' hy' hp with hw | ⟨y₁, hy₁, hp₁, hw₁⟩
    · exact .inl hw
    · rcases h₁.sleepers d y₁ hy₁ (hp₁ ▸ hp) with hw | ⟨y, hy, hp₀, hw₀⟩
      · exact .inl (hw₁ ▸ hw)
      · exact .inr ⟨y, hy, hp₁.trans hp₀, hw₁.trans hw₀⟩
  mutexes := Nat.le_trans h₁.mutexes h₂.mutexes

theorem of_quiet (hq : Quiet w w') : Lulls w w' where
  sleepers d y' hy' hp := by
    obtain ⟨y, hy, hw⟩ := rel_some_right (hq.ctx d) hy'
    rcases hw with rfl | rfl
    · exact .inr ⟨y', hy, rfl, rfl⟩
    · simp at hp
  mutexes := Nat.le_of_eq hq.mutexes.symm

theorem of_views (hm : w'.main = w.main) (hs : w'.slots = w.slots)
    (hmu : w.mutexes.size ≤ w'.mutexes.size) : Lulls w w' where
  sleepers d y' hy' _ := .inr ⟨y', by rwa [ctx?_congr hm hs] at hy', rfl, rfl⟩
  mutexes := hmu

theorem modifyLock (w : World) (l : LockRef) (f : LockCell → LockCell) :
    Lulls w (w.modifyLock l f) :=
  of_views (by cases l <;> rfl) (modifyLock_slots w l f) (Nat.le_of_eq (by simp))

theorem update (w : World) (m : Nat) (f : Int64 → Int64) (v : Int64) : Lulls w (w.update m f v) :=
  of_quiet (Quiet.update w m f v)

theorem modifyValue (w : World) (m : Nat) (f : Int64 → Int64) : Lulls w (w.modifyValue m f) :=
  of_quiet (Quiet.modifyValue w m f)

theorem modifyLatch (w : World) (k : Nat) (f : LatchCell → LatchCell) :
    Lulls w (w.modifyLatch k f) :=
  of_views rfl rfl (Nat.le_refl _)

/-- Putting a context that is awake or inside a wait. -/
theorem put (h : Lulls w w₁) {c : Ctx} {x' : Context}
    (hx' : x'.parked.isSome → x'.waitingOn.isSome) : Lulls w (w₁.put c x') where
  sleepers d y' hy' hp := by
    rcases ctx?_put_some hy' with ⟨-, rfl⟩ | ⟨-, hy₁⟩
    · exact .inl (hx' hp)
    · exact h.sleepers d y' hy₁ hp
  mutexes := by rw [put_mutexes]; exact h.mutexes

/-- A change of thread objects that keeps their contexts, or gives one an awake context. -/
theorem modifySlot (w : World) (i : Nat) (f : Slot → Slot)
    (hf : ∀ s, (f s).ctx = s.ctx ∨ ∃ t, (f s).ctx = some t ∧ t.parked = none) :
    Lulls w (w.modifySlot i f) where
  sleepers d y' hy' hp := by
    cases d with
    | main => exact .inr ⟨y', hy', rfl, rfl⟩
    | thread j =>
      simp only [ctx?, World.modifySlot, Array.getElem?_modify] at hy'
      split at hy'
      · subst j
        cases hs : w.slots[i]? with
        | none => simp [hs] at hy'
        | some s =>
          simp only [hs, Option.map_some, Option.bind_some] at hy'
          rcases hf s with he | ⟨t, he, ht⟩
          · rw [he] at hy'
            exact .inr ⟨y', by simp [ctx?, hs, hy'], rfl, rfl⟩
          · rw [he] at hy'
            cases hy'
            simp [ht] at hp
      · exact .inr ⟨y', hy', rfl, rfl⟩
  mutexes := Nat.le_refl _

/-- A thread object given a context that is awake. -/
theorem spawnSlot {u : World} {i : Nat} {f : Slot → Slot} {t : Context} (h : Lulls w u)
    (hf : ∀ s, (f s).ctx = some t) (ht : t.parked = none) : Lulls w (u.modifySlot i f) :=
  h.trans (modifySlot u i f fun s => .inr ⟨t, hf s, ht⟩)

theorem pushSlot (w : World) (s : Slot) (n : Nat) (hs : s.ctx = none) :
    Lulls w { w with slots := w.slots.push s, created := n } where
  sleepers d y' hy' _ := .inr ⟨y', by rwa [ctx?_pushSlot _ _ hs] at hy', rfl, rfl⟩
  mutexes := Nat.le_refl _

/-- A move of the record-keeping kind: the mover, awake, asks for its tid and records itself as
holder. -/
theorem record {c : Ctx} {x : Context} (hpk : x.parked = none) (l : LockRef)
    (f : Context → Context) (hf : ∀ y, (f y).parked = y.parked) : Lulls w (w.record c x l f) := by
  have h₁ : Lulls w { w with process := (x.requestTid w.process).2.2 } :=
    of_views rfl rfl (Nat.le_refl _)
  rw [record_eq]
  exact (h₁.put fun hp => by simp [hf, hpk] at hp).trans (modifyLock _ _ _)

end Lulls

section
variable {w w₁ w' : World} {c : Ctx} {x x' : Context}

/-- Every move of a context's code leaves the waits as `Lulls` says: the only move that goes to
sleep, `park`, does so from inside a wait, and every other leaves the mover awake. -/
theorem Lulls.exec {op : Op} {rest : List Op} (hpk : x.parked = none) :
    Lulls w (w.exec c { x with code := rest } op) := by
  have hput : ∀ {x' : Context} {w₁ w' : World}, Lulls (w₁.put c x') w' → Lulls w w₁ →
      x'.parked = none → Lulls w w' :=
    fun h₂ h₁ hp => (h₁.put fun h => by simp [hp] at h).trans h₂
  have hstay : Lulls w (w.put c { x with code := rest }) := hput (.refl _) (.refl w) hpk
  cases op with
  | acquire l =>
    simp only [World.exec]
    exact hput (.modifyLock _ _ _) (.refl w) hpk
  | assign l =>
    simp only [World.exec]
    split
    · exact Lulls.record (by exact hpk) l _ fun _ => rfl
    · exact hstay
  | unassign l =>
    simp only [World.exec]
    split
    · exact hput (.modifyLock _ _ _) (.refl w) hpk
    · exact hstay
  | release l =>
    simp only [World.exec]
    split
    · exact hput (.modifyLock _ _ _) (.refl w) hpk
    · exact hstay
  | vacate l =>
    simp only [World.exec]
    split
    · exact hput (.modifyLock _ _ _) (.refl w) hpk
    · exact hstay
  | park cv l =>
    simp only [World.exec]
    split
    · -- the mover goes to sleep inside the wait on `l`
      rename_i hwait
      simp only [Bool.and_eq_true, beq_iff_eq] at hwait
      have h₁ : Lulls w { w with ticket := w.ticket + 1 } := .of_views rfl rfl (Nat.le_refl _)
      exact (h₁.put fun _ => by simp [hwait.2]).trans (.modifyLock _ _ _)
    · exact hstay
  | reclaim l =>
    simp only [World.exec]
    split
    · exact Lulls.record (by exact hpk) l _ fun _ => rfl
    · exact hstay
  | waitWhile cv l p =>
    simp only [World.exec]
    split
    · exact hput (.refl _) (.refl w) hpk
    · exact hstay
  | signal cv => exact hput (.of_quiet (Quiet.signal _ _)) (.refl w) hpk
  | broadcast cv => exact hput (.of_quiet (Quiet.broadcast _ _)) (.refl w) hpk
  | read m =>
    simp only [World.exec]
    split
    · exact hput (.refl _) (.refl w) hpk
    · exact hstay
  | write m f =>
    simp only [World.exec]
    split
    · exact hput (.update _ _ _ _) (.refl w) hpk
    · exact hstay
  | countDown k =>
    simp only [World.exec]
    split
    · have h₁ : Lulls w ((w.put c { x with code := rest }).modifyLatch k
          fun l => { l with downs := l.downs + 1 }) :=
        hput (.modifyLatch _ k _) (.refl w) hpk
      split
      · exact h₁
      · exact h₁.trans ((Lulls.modifyLatch _ k _).trans (.of_quiet (Quiet.broadcast _ _)))
      · exact h₁.trans (.modifyLatch _ k _)
    · exact hstay
  | keep m => exact hput (.refl _) (.refl w) hpk
  | unkeep m => exact hput (.refl _) (.refl w) hpk
  | note q =>
    simp only [World.exec]
    split
    · exact hput (.refl _) (by exact .of_views rfl rfl (Nat.le_refl _)) (by simp [hpk])
    · exact hput (.refl _) (.refl w) hpk
  | complete => exact hput (.refl _) (.refl w) hpk
  | publish i =>
    simp only [World.exec]
    exact hput (by exact .modifySlot _ i (fun s => { s with published := _ }) fun _ => .inl rfl)
      (by exact .of_views rfl rfl (Nat.le_refl _))
      (by simp [hpk])
  | rename n => exact hput (.refl _) (.refl w) hpk
  | adopt i =>
    simp only [World.exec]
    split
    · exact hput
        (by exact .modifySlot _ i (fun s => { s with tid := s.published }) fun _ => .inl rfl)
        (by exact .of_views rfl rfl (Nat.le_refl _)) (by exact hpk)
    · exact hstay
  | awaitEnd i =>
    simp only [World.exec]
    split
    · split
      · exact hput (.refl _) (.refl w) hpk
      · exact hput (.refl _) (.refl w) hpk
      · exact hstay
    · exact hstay
  | pause t => exact hstay
  | fork b => exact hstay
  | finish f =>
    cases c with
    | main =>
      simp only [World.exec, World.finish]
      exact hput ((Lulls.of_quiet (Quiet.release _ _)).trans (.of_quiet (Quiet.dropRefs _ _))) (.refl w) hpk
    | thread i =>
      simp only [World.exec, World.finish]
      -- the captures go first; a fatal failure then ends the process
      cases f with
      | some f =>
        simp only [Option.isSome_some, if_true]
        split
        · have habort : ∀ u : World, Lulls u { u with abort := some (.contained
              ((u.slots[i]?.map (·.name)).getD "") f) } :=
            fun _ => .of_views rfl rfl (Nat.le_refl _)
          exact hput (((Lulls.of_quiet (Quiet.release _ _)).trans (.of_quiet (Quiet.dropRefs _ _))).trans (habort _)) (.refl w)
            (by exact hpk)
        · exact hput ((Lulls.of_quiet (Quiet.release _ _)).trans (.of_quiet (Quiet.dropRefs _ _))) (.refl w) (by exact hpk)
      | none => exact hput ((Lulls.of_quiet (Quiet.release _ _)).trans (.of_quiet (Quiet.dropRefs _ _))) (.refl w) (by exact hpk)

/-- A step answered at once, or one that installs moves, leaves the mover awake. -/
theorem Lulls.answer (h₁ : Lulls w w₁) (r : Reply) (hpk : x'.parked = none) :
    Lulls w (w₁.reply c x' r) :=
  h₁.put fun h => by simp [Context.answer, hpk] at h

theorem Lulls.install (h₁ : Lulls w w₁) (code : List Op) (hpk : x'.parked = none) :
    Lulls w (w₁.install c x' code) :=
  h₁.put fun h => by simp [hpk] at h

theorem Lulls.failStep (h₁ : Lulls w w₁) (f : Failure) (hpk : x'.parked = none) :
    Lulls w (w₁.failStep c x' f) := by
  cases c with
  | main => exact Lulls.answer h₁ _ hpk
  | thread i => exact Lulls.install h₁ _ hpk

/-- Starting thread object `i` answers at once, or the OS refuses the thread, or the thread starts
awake. -/
theorem Lulls.start {i : Nat} {s : Slot} (hpk : x'.parked = none) : Lulls w (w.start c x' i s) := by
  unfold World.start
  split
  · exact Lulls.failStep (.refl w) _ hpk
  · split
    · exact .of_views rfl rfl (Nat.le_refl _)
    · rename_i actions captured hp
      split
      · have h₁ := (Lulls.modifySlot w i (fun s => { s with started := true, program := none })
          fun _ => .inl rfl).trans (.of_quiet (Quiet.dropRefs _ (captured.mutexes.map (·.2))))
        dsimp only
        split
        · exact h₁
        · exact h₁.trans (.of_views rfl rfl (Nat.le_refl _))
      · exact Lulls.install (Lulls.spawnSlot (by exact .of_views rfl rfl (Nat.le_refl _))
          (fun _ => rfl) rfl) _ hpk

theorem Lulls.join {i : Nat} {s : Slot} (hpk : x'.parked = none) : Lulls w (w.join c x' i s) := by
  unfold World.join
  split
  · exact Lulls.failStep (.refl w) _ hpk
  · split
    · exact Lulls.failStep (.refl w) _ hpk
    · split
      · exact .of_views rfl rfl (Nat.le_refl _)
      · exact Lulls.install
          (.modifySlot _ i (fun s => { s with joined := true, handle := false }) fun _ => .inl rfl) _
          hpk

/-- Beginning a step leaves every context awake that was, and removes no mutex. -/
theorem Lulls.perform {st : Step} (hpk : x.parked = none) : Lulls w (w.perform c x st) := by
  have hinstall : ∀ code, Lulls w (w.install c x code) :=
    fun code => Lulls.install (.refl w) code hpk
  have hreply : ∀ r, Lulls w (w.reply c x r) := fun r => Lulls.answer (.refl w) r hpk
  cases st with
  | lock m =>
    simp only [World.perform]
    split
    · exact hreply _
    · exact hinstall _
  | unlock m =>
    simp only [World.perform]
    split
    · exact hinstall _
    · exact hreply _
  | get m =>
    simp only [World.perform]
    split
    · exact hreply _
    · exact hinstall _
  | set m v =>
    simp only [World.perform]
    split
    · exact Lulls.answer (.modifyValue _ _ _) _ hpk
    · exact hinstall _
  | add m v times =>
    simp only [World.perform]
    split
    · exact Lulls.answer (.modifyValue _ _ _) _ hpk
    · exact hinstall _
  | holder m => exact hreply _
  | isLocked m =>
    simp only [World.perform]
    exact Lulls.answer (by exact .of_views rfl rfl (Nat.le_refl _)) _ (by simp [hpk])
  | assertLocked m =>
    simp only [World.perform]
    split
    · exact Lulls.answer (by exact .of_views rfl rfl (Nat.le_refl _)) _ (by simp [hpk])
    · exact Lulls.failStep (by exact .of_views rfl rfl (Nat.le_refl _)) _ (by simp [hpk])
  | mutexDebug m => exact hreply _
  | guardDebug m =>
    simp only [World.perform]
    split <;> exact hreply _
  | countDown l => exact hinstall _
  | wait l => exact hinstall _
  | count l => exact hinstall _
  | latchDebug l => exact hinstall _
  | notify cv => exact Lulls.answer (.of_quiet (Quiet.signal _ _)) _ hpk
  | notifyAll cv => exact Lulls.answer (.of_quiet (Quiet.broadcast _ _)) _ hpk
  | condDebug cv => exact hreply _
  | waitWhile cv m cmp v =>
    simp only [World.perform]
    split <;> exact hinstall _
  | current =>
    simp only [World.perform]
    exact Lulls.answer (by exact .of_views rfl rfl (Nat.le_refl _)) _ (by simp [World.current, hpk])
  | sleep usec =>
    simp only [World.perform]
    split
    · exact hreply _
    · exact hinstall _
  | fail f => exact Lulls.failStep (.refl w) f hpk
  | fork => exact Lulls.install (by exact .of_views rfl rfl (Nat.le_refl _)) _ (by exact hpk)
  | mutexNew id v =>
    simp only [World.perform]
    exact Lulls.answer (by exact .of_views rfl rfl (by simp)) _ (by exact hpk)
  | mutexDrop m =>
    simp only [World.perform]
    exact Lulls.answer (((Lulls.refl w).put fun h => by simp [hpk] at h).trans
      (.of_quiet (Quiet.dropRefs _ _))) _ (by exact hpk)
  | getMut m set =>
    simp only [World.perform]
    split
    · exact hreply _
    · exact Lulls.answer (.modifyValue _ _ _) _ hpk
  | latchNew id n =>
    simp only [World.perform]
    exact Lulls.answer (by exact .of_views rfl rfl (Nat.le_refl _)) _ (by exact hpk)
  | condNew id =>
    simp only [World.perform]
    exact Lulls.answer (by exact .of_views rfl rfl (Nat.le_refl _)) _ (by exact hpk)
  | threadNew spec =>
    simp only [World.perform]
    exact Lulls.answer (.pushSlot w _ _ rfl) _ (by exact hpk)
  | threadStart t =>
    simp only [World.perform]
    split
    · exact Lulls.start hpk
    · exact hreply _
  | threadJoin t =>
    simp only [World.perform]
    split
    · exact Lulls.join hpk
    · exact hreply _
  | threadInfo t => exact hreply _
  | threadDrop t =>
    simp only [World.perform]
    split
    · split
      · exact Lulls.answer (.modifySlot w _ (fun s => { s with handle := false })
          fun _ => .inl rfl) _ (by exact hpk)
      · -- the function is dropped, which may destroy a mutex only it named
        exact Lulls.answer (((Lulls.modifySlot w _ (fun s => { s with program := none })
          fun _ => .inl rfl).put fun h => by simp [hpk] at h).trans
            (.of_quiet (Quiet.dropRefs _ _))) _ (by exact hpk)
    · exact Lulls.answer (.refl w) _ (by exact hpk)
  | numCreated => exact hreply _
  | classify f => exact hreply _
  | exceptionNew what => exact hreply _

theorem Lulls.begin (hpk : x.parked = none) : Lulls w (w.begin c x) := by
  unfold World.begin
  split
  · exact Lulls.install (.refl w) _ hpk
  · dsimp only
    split
    · exact Lulls.answer (.refl w) _ hpk
    · exact Lulls.perform hpk

theorem Lulls.advance (h : w.advance c = (w', true)) : Lulls w w' := by
  unfold World.advance at h
  split at h
  · cases h
  · rename_i x hx
    split at h
    · cases h
    · rename_i hidle
      have hpk : x.parked = none := by
        cases hp : x.parked <;> simp_all
      split at h
      · split at h
        · cases h
        · cases h
          exact Lulls.exec hpk
      · cases h
        exact Lulls.begin hpk

theorem Lulls.moves (h : Moves w w') : Lulls w w' := by
  cases h with
  | move c _ hm => exact Lulls.advance (advance_of_move? hm)
  | wakeUp c x _ _ _ => exact .of_quiet (Quiet.wake w c)
  | tick t _ _ => exact .of_views rfl rfl (Nat.le_refl _)
  | fork c x b rest n _ _ _ hpk _ =>
    rw [forked_eq]
    exact Lulls.answer (by exact .of_views rfl rfl (Nat.le_refl _)) _ (by exact hpk)

end

/-- A context asleep on a condition is inside a condition wait. -/
def Asleep (w : World) : Prop :=
  ∀ c x, w.ctx? c = some x → x.parked.isSome → x.waitingOn.isSome

theorem Asleep.of_begins {w : World} (hb : w.Begins) : w.Asleep := by
  intro c x hx hp
  rw [(hb.ctx hx).2, hb.parked] at hp
  cases hp

theorem Asleep.moves {w w' : World} (ha : w.Asleep) (h : Moves w w') : w'.Asleep := by
  intro d y' hy' hp
  rcases (Lulls.moves h).sleepers d y' hy' hp with hw | ⟨y, hy, hpe, hwe⟩
  · exact hw
  · rw [hwe]
    exact ha d y hy (hpe ▸ hp)

theorem Asleep.reachable {host : Host} {steps : List Value} {w : World} (h : Reachable (World.init host steps) w) :
    w.Asleep := by
  induction h with
  | refl => exact .of_begins (.init host steps)
  | tail _ hm ih => exact ih.moves hm

/-! ### The contract of a wait -/

@[simp] theorem owns_put (w : World) (c d : Ctx) (y : Context) (l : LockRef) :
    (w.put c y).owns l d = w.owns l d := by
  simp [owns]

@[simp] theorem holder_put (w : World) (c : Ctx) (y : Context) (l : LockRef) :
    (w.put c y).holder l = w.holder l := by
  simp [holder]

@[simp] theorem guarded_put (w : World) (c : Ctx) (y : Context) (l : LockRef) :
    (w.put c y).guarded l = w.guarded l := by
  cases l <;> simp [guarded, value]

/-- Only the values and counts decide what a lock guards. -/
theorem guarded_congr {w w' : World} (hv : w'.value = w.value) (hc : ∀ k, w'.count k = w.count k)
    (l : LockRef) : w'.guarded l = w.guarded l := by
  cases l <;> simp [guarded, hv, hc]

section
variable {w w' : World} {c : Ctx} {x : Context} {l : LockRef}

/-- A wait's check is made by the owner of the lock, recorded as its holder. -/
theorem Sound.checks_as_holder {cv : CondRef} {p : Int → Bool} {rest : List Op} (hs : w.Sound)
    (hx : w.ctx? c = some x) (hcode : x.code = .waitWhile cv l p :: rest) :
    w.owns l c = true ∧ w.holder l = (x.requestTid w.process).1 := by
  obtain ⟨hg, hw⟩ := hs.live_of_keepsPhase hx hcode rfl rfl
  obtain ⟨hown, hh⟩ := hs.holder_of_guard hx hg hw
  refine ⟨(owns_iff _ _ _).mpr hown, ?_⟩
  rw [holder_eq, hh, Context.requestTid_fst _ (hs.self c x hx).1]

/-- Inside a condition wait a context is never the recorded holder of the wait's lock: it gave the
holder up on entering, and whoever owns the lock since is another context. -/
theorem Sound.holder_ne_of_waiting (hs : w.Sound) (hx : w.ctx? c = some x)
    (hw : x.waitingOn = some l) : w.holder l ≠ (x.requestTid w.process).1 := by
  rw [holder_eq, Context.requestTid_fst _ (hs.self c x hx).1]
  have hpos := (hs.self c x hx).2.1
  obtain ⟨p, hfit, -⟩ := hs.follows c x hx l
  have hwait : p.grip.waiting = true := (Context.grip_eq_iff.mp hfit.grip).2.1.mp hw
  cases p with
  | free | taken | guarded k => simp [Phase.grip] at hwait
  | vacated k =>
    rw [hfit.holder rfl]
    exact Nat.ne_of_lt hpos
  | away k =>
    cases ho : (w.cell l).owner with
    | none =>
      rw [hs.unowned l ho]
      exact Nat.ne_of_lt hpos
    | some d =>
      have hdc : d ≠ c := by
        rintro rfl
        simpa [Phase.owned] using hfit.owner.mp ho
      obtain ⟨y, hy, hh | hh⟩ := hs.holder_of_owner ho
      · rw [hh]
        exact Nat.ne_of_lt hpos
      · rw [hh]
        exact fun he => hdc (hs.distinct d c y x hy hx he)

/-- A wait's check ends it exactly when the predicate is false, leaving the waiter owning the lock
as its holder. -/
theorem Sound.wait_returns {cv : CondRef} {p : Int → Bool} {rest : List Op} (hs : w.Sound)
    (hx : w.ctx? c = some x) (hcode : x.code = .waitWhile cv l p :: rest)
    (hm : w.move? c = some w') :
    ((w'.ctx? c).map (·.code) = some rest ↔ p (w.guarded l) = false) ∧
      ((w'.ctx? c).map (·.code) = some rest → ∃ x', w'.ctx? c = some x' ∧
        w'.owns l c = true ∧ w'.holder l = (x'.requestTid w'.process).1 ∧
          p (w'.guarded l) = false) := by
  obtain ⟨hown, hh⟩ := hs.checks_as_holder hx hcode
  have hself := (hs.self c x hx).1
  rw [Context.requestTid_fst _ hself] at hh
  have hsome : (w.ctx? c).isSome := by simp [hx]
  rw [advance_of_code hx hcode (advance_of_move? hm)]
  by_cases hp : p (w.guarded l) = true
  · -- the predicate holds: the moves of one more wait come before the next check
    have hexec : w.exec c { x with code := rest } (.waitWhile cv l p) = w.put c { x with
        code := [.vacate l, .park cv l, .acquire l, .reclaim l, .waitWhile cv l p] ++ rest } := by
      simp [World.exec, hown, hp]
    have hne : Op.vacate l :: .park cv l :: .acquire l :: .reclaim l :: .waitWhile cv l p :: rest ≠
        rest := fun he => by
      have := congrArg List.length he
      simp only [List.length_cons] at this
      omega
    rw [hexec, ctx_put_self _ _ _ hsome]
    simp [hne, hp]
  · have hp' : p (w.guarded l) = false := by simpa using hp
    have hexec : w.exec c { x with code := rest } (.waitWhile cv l p) =
        w.put c { x with code := rest } := by
      simp [World.exec, hp']
    rw [hexec, ctx_put_self _ _ _ hsome]
    exact ⟨by simp [hp'], fun _ => ⟨_, rfl, by simpa using hown,
      by simpa [Context.requestTid_fst (x := { x with code := rest }) _ hself] using hh,
      by simpa using hp'⟩⟩

/-- While a context keeps a live guard of `l` outside a wait, no other context's move changes the
value `l` guards. -/
theorem guarded_of_other_move (hs : w.Sound) (hf : w.Fresh) (hh : w.Handshake)
    (hx : w.ctx? c = some x) (hg : l ∈ x.guards) (hw : x.waitingOn ≠ some l) {d : Ctx}
    (hd : d ≠ c) (hm : w.move? d = some w') : w'.guarded l = w.guarded l := by
  have hown := (hs.holder_of_guard hx hg hw).1
  have hex := lock?_isSome_of_owner hown
  have hadv := advance_of_move? hm
  cases l with
  | mutex m =>
    have hlt : m < w.mutexes.size := by simpa [lock?_isSome_iff] using hex
    have hlt' : m < w'.mutexes.size := Nat.lt_of_lt_of_le hlt (Lulls.advance hadv).mutexes
    obtain ⟨mc, hmc⟩ : ∃ mc, w.mutexes[m]? = some mc := ⟨_, Array.getElem?_eq_getElem hlt⟩
    obtain ⟨mc', hmc'⟩ : ∃ mc', w'.mutexes[m]? = some mc' := ⟨_, Array.getElem?_eq_getElem hlt'⟩
    rcases (Serial.advance hs hf hadv).logs m mc' hmc' with
      ⟨mc₀, hmc₀, hc | ⟨f, -, -, -, hgr⟩⟩ | ⟨hnone, -⟩
    · rw [hmc] at hmc₀
      cases hmc₀
      simp only [MutexCell.contents, Prod.mk.injEq] at hc
      simp [guarded, value_eq hmc, value_eq hmc', hc.1]
    · -- the mover could change the value only as the lock's owner, which is `c`
      exact absurd (hgr.owner_eq hs hown).symm hd
    · rw [hmc] at hnone
      cases hnone
  | latch k =>
    have hlt : k < w.latches.size := by simpa [lock?_isSome_iff] using hex
    have hct := (Tracks.advance hs hh hadv).counts
    have hlt' : k < w'.latches.size := Nat.lt_of_lt_of_le hlt hct.1
    obtain ⟨lc', hlc'⟩ : ∃ lc', w'.latches[k]? = some lc' := ⟨_, Array.getElem?_eq_getElem hlt'⟩
    rcases hct.2 k lc' hlc' with ⟨lc, hlc, hc | ⟨⟨y, rest, hy, hcode⟩, -⟩⟩ | ⟨hnone, -⟩
    · simp only [LatchCell.contents, Prod.mk.injEq] at hc
      simp [guarded, count_of_latch hlc, count_of_latch hlc', hc.1]
    · -- a count-down is made by the latch lock's owner, which is `c`
      have hd' := hs.owns_of_keepsPhase hy hcode rfl rfl
      rw [hown] at hd'
      exact absurd (Option.some.inj hd').symm hd
    · have : w.latches[k]? ≠ none := by simp [hlt]
      exact absurd hnone this

/-- While a context keeps a live guard of lock `l` outside a wait, only its own moves change the
value `l` guards. -/
theorem guarded_changed_by_self (hs : w.Sound) (hf : w.Fresh) (hh : w.Handshake)
    (hx : w.ctx? c = some x) (hg : l ∈ x.guards) (hw : x.waitingOn ≠ some l) (hm : Moves w w')
    (hne : w'.guarded l ≠ w.guarded l) : w.move? c = some w' := by
  cases hm with
  | move d _ hmd =>
    by_cases hd : d = c
    · subst hd
      exact hmd
    · exact absurd (guarded_of_other_move hs hf hh hx hg hw hd hmd) hne
  | wakeUp d y _ _ _ =>
    exact absurd (guarded_congr (Calm.wake w d).value (Still.wake w d).count_eq l) hne
  | tick t _ _ => exact absurd rfl hne
  | fork d y b rest n _ _ _ _ _ =>
    refine absurd (guarded_congr ?_ (fun k => ?_) l) hne
    · funext k
      simp [forked_eq, World.value]
    · simp [forked_eq, World.count]

end

/-- The contract of a condition wait: its predicate is checked only by the lock's owner as recorded
holder, a sleeping waiter is never the holder, and the wait returns owning the lock as holder
with the predicate false, after which only the waiter changes the value. -/
theorem wait_while_contract {host : Host} {steps : List Value} {w : World} (h : Reachable (World.init host steps) w)
    {c : Ctx} {x : Context} (hx : w.ctx? c = some x) (l : LockRef) :
    (∀ cv p rest, x.code = .waitWhile cv l p :: rest →
      w.owns l c = true ∧ w.holder l = (x.requestTid w.process).1) ∧
    (x.parked.isSome → x.waitingOn.isSome) ∧
    (x.waitingOn = some l → w.holder l ≠ (x.requestTid w.process).1) ∧
    (∀ cv p rest w', x.code = .waitWhile cv l p :: rest → w.move? c = some w' →
      ((w'.ctx? c).map (·.code) = some rest ↔ p (w.guarded l) = false) ∧
      ((w'.ctx? c).map (·.code) = some rest → ∃ x', w'.ctx? c = some x' ∧
        w'.owns l c = true ∧ w'.holder l = (x'.requestTid w'.process).1 ∧
          p (w'.guarded l) = false)) ∧
    (l ∈ x.guards → x.waitingOn ≠ some l → ∀ w', Moves w w' →
      w'.guarded l ≠ w.guarded l → w.move? c = some w') := by
  have hs := (Sound.init host steps).reachable h
  exact ⟨fun _ _ _ hcode => hs.checks_as_holder hx hcode, Asleep.reachable h c x hx,
    hs.holder_ne_of_waiting hx, fun _ _ _ _ hcode hm => hs.wait_returns hx hcode hm,
    fun hg hw _ hm hne => guarded_changed_by_self hs (Fresh.reachable h) (Handshake.reachable h) hx
      hg hw hm hne⟩

/-- A script in which main waits on condition `cv` while mutex `m` holds 0, and a thread sets
`m` to 1 and signals `cv`. -/
def waitForSet : List Value :=
  [.obj [("op", .str "mutex_new"), ("id", .str "m")],
    .obj [("op", .str "cond_new"), ("id", .str "cv")],
    .obj [("op", .str "thread_new"), ("id", .str "t"),
      ("actions", .arr [.obj [("op", .str "set"), ("mutex", .str "m"), ("value", .int 1)],
        .obj [("op", .str "notify"), ("cond", .str "cv")]])],
    .obj [("op", .str "thread_start"), ("thread", .str "t")],
    .obj [("op", .str "wait_while"), ("cond", .str "cv"), ("mutex", .str "m"), ("cmp", .str "eq"),
      ("value", .int 0)]]

/-- Main checking the predicate of its wait for the first time, with `m` at 0. -/
def firstCheck : World :=
  ((World.init .tested waitForSet).replay
    (List.replicate 4 .main ++ List.replicate 7 (.thread 0) ++ List.replicate 10 .main)).getD
    (World.init .tested waitForSet)

/-- Main asleep on `cv`. -/
def asleepOnCv : World := (firstCheck.replay (List.replicate 3 .main)).getD firstCheck

/-- Main checking again, once the thread has set `m` to 1 and signalled. -/
def secondCheck : World :=
  (asleepOnCv.replay (List.replicate 9 (.thread 0) ++ List.replicate 2 .main)).getD asleepOnCv

/-- Main's wait on `m` checks as owner, sleeps as no holder, and returns at `m = 1` with the
predicate false. -/
theorem wait_while_contract_signalled :
    Reachable (World.init .tested waitForSet) firstCheck ∧ Reachable (World.init .tested waitForSet) asleepOnCv ∧
    Reachable (World.init .tested waitForSet) secondCheck ∧
    firstCheck.owns (.mutex 0) .main = true ∧ firstCheck.holder (.mutex 0) = World.pid ∧
    (∀ w', Moves firstCheck w' → w'.guarded (.mutex 0) ≠ firstCheck.guarded (.mutex 0) →
      firstCheck.move? .main = some w') ∧
    asleepOnCv.main.waitingOn = some (.mutex 0) ∧ asleepOnCv.holder (.mutex 0) ≠ World.pid ∧
    ∃ x', (secondCheck.advance .main).1.ctx? .main = some x' ∧
      (secondCheck.advance .main).1.owns (.mutex 0) .main = true ∧
      (secondCheck.advance .main).1.holder (.mutex 0) =
        (x'.requestTid (secondCheck.advance .main).1.process).1 ∧
      (secondCheck.advance .main).1.guarded (.mutex 0) = 1 := by
  have hE : Reachable (World.init .tested waitForSet) firstCheck := .of_replay (by decide)
  have hF : Reachable (World.init .tested waitForSet) asleepOnCv := hE.trans (.of_replay (by decide))
  have hG : Reachable (World.init .tested waitForSet) secondCheck := hF.trans (.of_replay (by decide))
  have hcE : firstCheck.main.code =
      .waitWhile (.cond 0) (.mutex 0) (Cmp.eq.holds · (Int64.ofInt 0).toInt) ::
        [.note (.waited 0), .unassign (.mutex 0), .release (.mutex 0), .complete] := rfl
  have hcG : secondCheck.main.code =
      .waitWhile (.cond 0) (.mutex 0) (Cmp.eq.holds · (Int64.ofInt 0).toInt) ::
        [.note (.waited 0), .unassign (.mutex 0), .release (.mutex 0), .complete] := rfl
  have hgE : LockRef.mutex 0 ∈ firstCheck.main.guards := by decide
  have hwE : firstCheck.main.waitingOn = none := by decide
  obtain ⟨hcheck, -, -, -, honly⟩ := wait_while_contract hE (c := .main) rfl (.mutex 0)
  obtain ⟨-, -, hasleep, -, -⟩ := wait_while_contract hF (c := .main) rfl (.mutex 0)
  obtain ⟨-, -, -, hret, -⟩ := wait_while_contract hG (c := .main) rfl (.mutex 0)
  have hpid : (firstCheck.main.requestTid firstCheck.process).1 = World.pid := by decide
  have hpid' : (asleepOnCv.main.requestTid asleepOnCv.process).1 = World.pid := by decide
  have hwF : asleepOnCv.main.waitingOn = some (.mutex 0) := by decide
  obtain ⟨ho, hh⟩ := hcheck _ _ _ hcE
  have hends := (hret _ _ _ _ hcG rfl).1
  obtain ⟨x', hx', ho', hh', -⟩ := (hret _ _ _ _ hcG rfl).2 (hends.mpr (by decide))
  exact ⟨hE, hF, hG, ho, hh.trans hpid, fun w' hm hne => honly hgE (by simp [hwE]) w' hm hne, hwF,
    hpid' ▸ hasleep hwF, x', hx', ho', hh', by decide⟩

end World

end ThreadKit
