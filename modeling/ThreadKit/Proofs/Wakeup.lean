import ThreadKit.Proofs.Latch

/-! No wake-up on a latch is lost. A context goes to sleep on a latch's condition only after it
found the count above `0` with the latch's lock, which it keeps until it sleeps; the count-down
that brings the count to `0` owns that lock and wakes every sleeper; and nothing raises a count.
So in every world a process reaches, no context sleeps on a latch whose count is `0`
(`World.Alert.reachable`): once as many count-downs as its first count have been made, nothing
sleeps on the latch. -/
namespace ThreadKit

open Script

theorem rel_mono {α : Type} {r s : α → α → Prop} (hrs : ∀ {a b}, r a b → s a b) :
    ∀ {a b : Option α}, Option.Rel r a b → Option.Rel s a b
  | _, _, .none => .none
  | _, _, .some h => .some (hrs h)

namespace Op

/-- A move that may stand anywhere in a context's moves: neither half of going to sleep in a
condition wait, and a wait on a latch's condition made with that latch's lock and only while the
count is above `0`. -/
def Tame : Op → Prop
  | .vacate _ => False
  | .park _ _ => False
  | .waitWhile (.latch k) l p => l = .latch k ∧ ∀ n : Nat, p n = true → 0 < n
  | _ => True

theorem tame_waitWhile_latch {k : Nat} {l : LockRef} {p : Int → Bool} :
    (Op.waitWhile (.latch k) l p).Tame ↔ l = .latch k ∧ ∀ n : Nat, p n = true → 0 < n :=
  Iff.rfl

end Op

namespace Context

/-- Context `y'` is `y` as the sleepers on a latch see it: the same moves, and asleep only as `y`
was. -/
def Hushed (y y' : Context) : Prop := y'.code = y.code ∧ (y'.parked = y.parked ∨ y'.parked = none)

theorem Hushed.refl (y : Context) : Hushed y y := ⟨rfl, .inl rfl⟩

theorem Hushed.trans {a b c : Context} (h₁ : Hushed a b) (h₂ : Hushed b c) : Hushed a c := by
  refine ⟨h₂.1.trans h₁.1, ?_⟩
  rcases h₂.2 with h | h
  · rw [h]
    exact h₁.2
  · exact .inr h

theorem Wakes.hushed {y y' : Context} (h : Wakes y y') : Hushed y y' := by
  rcases h with rfl | rfl
  · exact .refl _
  · exact ⟨rfl, .inr rfl⟩

theorem Hushed.parked {y y' : Context} (h : Hushed y y') {cv : CondRef} {n : Nat}
    (hp : y'.parked = some (cv, n)) : y.parked = some (cv, n) := by
  rcases h.2 with h' | h'
  · rw [← h', hp]
  · rw [hp] at h'
    cases h'

end Context

namespace World

/-- The moves a context may have left: tame ones, or tame ones after going to sleep on a
condition, possibly after giving the lock's holder up first. A sleep on a latch's condition is
with that latch's lock. -/
def Shape (code : List Op) : Prop :=
  (∀ op ∈ code, op.Tame) ∨
    ∃ cv l rest, (∀ k, cv = .latch k → l = .latch k) ∧ (∀ op ∈ rest, op.Tame) ∧
      (code = .park cv l :: rest ∨ code = .vacate l :: .park cv l :: rest)

/-- The next move goes to sleep on latch `k`'s condition, or gives the latch's holder up right
before that. -/
def Armed (k : Nat) (code : List Op) : Prop :=
  ∃ rest, code = .park (.latch k) (.latch k) :: rest ∨
    code = .vacate (.latch k) :: .park (.latch k) (.latch k) :: rest

theorem Armed.not_tame {k : Nat} {code : List Op} (h : Armed k code) : ¬ ∀ op ∈ code, op.Tame := by
  intro ht
  obtain ⟨rest, rfl | rfl⟩ := h
  · exact ht _ List.mem_cons_self
  · exact ht _ List.mem_cons_self

namespace Shape

variable {op : Op} {rest : List Op}

/-- Moves that begin with anything but going to sleep are tame. -/
theorem tame_of_head (h : Shape (op :: rest)) (hv : ∀ l, op ≠ .vacate l)
    (hp : ∀ cv l, op ≠ .park cv l) : ∀ o ∈ op :: rest, o.Tame := by
  rcases h with h | ⟨cv, l, r, -, -, he | he⟩
  · exact h
  · exact absurd (List.cons.inj he).1 (hp cv l)
  · exact absurd (List.cons.inj he).1 (hv l)

theorem pop (h : Shape (op :: rest)) : Shape rest := by
  rcases h with h | ⟨cv, l, r, hs, ht, he | he⟩
  · exact .inl fun o ho => h o (List.mem_cons_of_mem op ho)
  · obtain ⟨-, rfl⟩ := List.cons.inj he
    exact .inl ht
  · obtain ⟨-, rfl⟩ := List.cons.inj he
    exact .inr ⟨cv, l, r, hs, ht, .inl rfl⟩

/-- A sleep on a latch's condition is with that latch's lock, and tame moves follow it. -/
theorem park {cv : CondRef} {l : LockRef} (h : Shape (.park cv l :: rest)) :
    (∀ k, cv = .latch k → l = .latch k) ∧ ∀ o ∈ rest, o.Tame := by
  rcases h with h | ⟨cv', l', r, hs, ht, he | he⟩
  · exact absurd (h _ List.mem_cons_self) id
  · obtain ⟨hpk, rfl⟩ := List.cons.inj he
    cases hpk
    exact ⟨hs, ht⟩
  · cases (List.cons.inj he).1

/-- Moves that go to sleep on a latch after one more move come right after that move gave the
latch's holder up. -/
theorem armed_pop {k : Nat} (h : Shape (op :: rest)) (ha : Armed k rest) :
    op = .vacate (.latch k) ∧ Armed k (op :: rest) := by
  rcases h with h | ⟨cv, l, r, -, ht, he | he⟩
  · exact absurd (fun o ho => h o (List.mem_cons_of_mem op ho)) ha.not_tame
  · obtain ⟨-, rfl⟩ := List.cons.inj he
    exact absurd ht ha.not_tame
  · obtain ⟨rfl, rfl⟩ := List.cons.inj he
    obtain ⟨r', he' | he'⟩ := ha
    · obtain ⟨hpk, -⟩ := List.cons.inj he'
      cases hpk
      exact ⟨rfl, r, .inr rfl⟩
    · cases (List.cons.inj he').1

/-- A wait that goes to sleep starts with the two moves of going to sleep. -/
theorem expand {cv : CondRef} {l : LockRef} {p : Int → Bool}
    (h : Shape (.waitWhile cv l p :: rest)) :
    Shape ([.vacate l, .park cv l, .acquire l, .reclaim l, .waitWhile cv l p] ++ rest) := by
  have ht := h.tame_of_head (fun _ => by simp) (fun _ _ => by simp)
  refine .inr ⟨cv, l, .acquire l :: .reclaim l :: .waitWhile cv l p :: rest, ?_, ?_, .inr rfl⟩
  · intro k hk
    subst hk
    exact (Op.tame_waitWhile_latch.mp (ht _ List.mem_cons_self)).1
  · intro o ho
    rw [List.mem_cons, List.mem_cons] at ho
    rcases ho with rfl | rfl | ho
    · trivial
    · trivial
    · exact ht o ho

end Shape

/-- No wake-up on a latch is lost: a context asleep on a latch's condition finds the count above
`0`, and so does one that owns the latch's lock and goes to sleep on it next; and every context's
moves have the shape that keeps this so. -/
structure Alert (w : World) : Prop where
  parked : ∀ c x k n, w.ctx? c = some x → x.parked = some (.latch k, n) → 0 < w.count k
  armed : ∀ c x k, w.ctx? c = some x → (w.cell (.latch k)).owner = some c → Armed k x.code →
    0 < w.count k
  shape : ∀ c x, w.ctx? c = some x → Shape x.code

@[simp] theorem count_put (w : World) (c : Ctx) (x : Context) (k : Nat) :
    (w.put c x).count k = w.count k := by
  simp [count]

/-- Only a latch that exists has a count above `0`. -/
theorem lt_size_of_count_pos {w : World} {k : Nat} (hk : 0 < w.count k) : k < w.latches.size := by
  by_contra hge
  simp [count, Array.getElem?_eq_none (Nat.le_of_not_lt hge)] at hk

/-! ### Changes no sleeper sees -/

/-- From `w` to `w'` no context's moves change and none falls asleep, no lock changes owner, and
no count above `0` changes. -/
structure Hush (w w' : World) : Prop where
  ctx : ∀ d, Option.Rel Context.Hushed (w.ctx? d) (w'.ctx? d)
  owner : ∀ l, (w'.cell l).owner = (w.cell l).owner
  count : ∀ k, 0 < w.count k → w'.count k = w.count k

namespace Hush

variable {w w₁ w' : World}

theorem refl (w : World) : Hush w w :=
  ⟨fun _ => rel_refl Context.Hushed.refl _, fun _ => rfl, fun _ _ => rfl⟩

theorem trans (h₁ : Hush w w₁) (h₂ : Hush w₁ w') : Hush w w' where
  ctx d := rel_trans (h₁.ctx d) (h₂.ctx d) Context.Hushed.trans
  owner l := (h₂.owner l).trans (h₁.owner l)
  count k hk := by
    have h₁k := h₁.count k hk
    exact (h₂.count k (by rw [h₁k]; exact hk)).trans h₁k

theorem ctx_back (h : Hush w w') {d : Ctx} {y' : Context} (hy' : w'.ctx? d = some y') :
    ∃ y, w.ctx? d = some y ∧ y.Hushed y' :=
  rel_some_right (h.ctx d) hy'

theorem count_pos (h : Hush w w') {k : Nat} (hk : 0 < w.count k) : 0 < w'.count k := by
  rw [h.count k hk]
  exact hk

theorem of_frame (hq : Quiet w w') (hs : Still w w') : Hush w w' where
  ctx d := rel_mono Context.Wakes.hushed (hq.ctx d)
  owner l := by rw [hq.cell l]
  count k _ := hs.count_eq k

theorem of_views (hm : w'.main = w.main) (hs : w'.slots = w.slots)
    (hmu : w'.mutexes = w.mutexes) (hl : w'.latches = w.latches) : Hush w w' where
  ctx d := by
    rw [ctx?_congr hm hs]
    exact rel_refl Context.Hushed.refl _
  owner l := by rw [cell_congr hmu hl]
  count k _ := by simp only [World.count, hl]

theorem modifyLock (w : World) (l : LockRef) (f : LockCell → LockCell)
    (hf : ∀ cell, (f cell).owner = cell.owner) : Hush w (w.modifyLock l f) where
  ctx d := by
    rw [ctx?_modifyLock]
    exact rel_refl Context.Hushed.refl _
  owner l' := by
    by_cases hl : l' = l
    · subst hl
      cases h : (w.lock? l').isSome with
      | true => rw [cell_modifyLock_self _ _ _ h, hf]
      | false =>
        rw [cell_of_lock?_none h, cell_of_lock?_none (by rw [lock?_isSome_modifyLock]; exact h)]
    · rw [cell_modifyLock_ne _ _ hl]
  count k _ := (Still.modifyLock w l f).count_eq k

theorem modifySlot (w : World) (i : Nat) (f : Slot → Slot) (hc : ∀ s, (f s).ctx = s.ctx) :
    Hush w (w.modifySlot i f) where
  ctx d := by
    rw [ctx?_modifySlot_of_ctx w i hc]
    exact rel_refl Context.Hushed.refl _
  owner _ := rfl
  count _ _ := rfl

theorem release (w : World) (keys : List Nat) : Hush w (w.release keys) :=
  of_frame (Quiet.release w keys) (Still.release w keys)

theorem pushSlot (w : World) (s : Slot) (n : Nat) (hs : s.ctx = none) :
    Hush w { w with slots := w.slots.push s, created := n } where
  ctx d := by
    rw [ctx?_pushSlot _ _ hs]
    exact rel_refl Context.Hushed.refl _
  owner _ := rfl
  count _ _ := rfl

theorem pushMutex (w : World) (v : Int64) :
    Hush w { w with mutexes := w.mutexes.push { value := v } } where
  ctx _ := rel_refl Context.Hushed.refl _
  owner l := congrArg LockCell.owner (cell_push_mutex (by rfl) (by rfl) l)
  count _ _ := rfl

theorem pushLatch (w : World) (n : Nat) :
    Hush w { w with latches := w.latches.push { count := n } } where
  ctx _ := rel_refl Context.Hushed.refl _
  owner l := congrArg LockCell.owner (cell_push_latch (by rfl) (by rfl) l)
  count k hk := by
    have hlt := lt_size_of_count_pos hk
    simp [World.count, Array.getElem?_push, Nat.ne_of_lt hlt]

theorem update (w : World) (m : Nat) (f : Int64 → Int64) (v : Int64) :
    Hush w (w.update m f v) :=
  of_frame (Quiet.update w m f v) (Still.modifyMutex w m _)

theorem modifyValue (w : World) (m : Nat) (f : Int64 → Int64) : Hush w (w.modifyValue m f) :=
  of_frame (Quiet.modifyValue w m f) (Still.modifyMutex w m _)

theorem dropRefs (w : World) (keys : List Nat) : Hush w (w.dropRefs keys) :=
  of_frame (Quiet.dropRefs w keys) (Still.dropRefs w keys)

theorem wake (w : World) (c : Ctx) : Hush w (w.wake c) :=
  of_frame (Quiet.wake w c) (Still.wake w c)

theorem signal (w : World) (cv : CondRef) : Hush w (w.signal cv) :=
  of_frame (Quiet.signal w cv) (Still.signal w cv)

theorem broadcast (w : World) (cv : CondRef) : Hush w (w.broadcast cv) :=
  of_frame (Quiet.broadcast w cv) (Still.broadcast w cv)

/-- Putting a context in a state no sleeper tells from the one it had. -/
theorem put {c : Ctx} {x x' : Context} (h : Hush w w₁) (hx : w.ctx? c = some x)
    (hs : x.Hushed x') : Hush w (w₁.put c x') where
  ctx := rel_ctx_put h.ctx hx hs
  owner l := by rw [cell_put]; exact h.owner l
  count k hk := by rw [count_put]; exact h.count k hk

end Hush

/-! ### Broadcasts -/

theorem ctx?_wake (w : World) (c d : Ctx) :
    (w.wake c).ctx? d = if d = c then (w.ctx? d).map ({ · with parked := none }) else w.ctx? d := by
  unfold World.wake
  split
  · rename_i x hx
    rw [ctx?_put _ _ _ _ (by simp [hx])]
    split
    · subst d
      simp [hx]
    · rfl
  · rename_i hx
    split
    · subst d
      simp [hx]
    · rfl

/-- A wake-up leaves the context it wakes asleep nowhere, and no other context asleep where it was
not. -/
theorem wake_unparked (w : World) (c d : Ctx) (cv : CondRef)
    (h : d = c ∨ ∀ y n, w.ctx? d = some y → y.parked ≠ some (cv, n)) :
    ∀ y n, (w.wake c).ctx? d = some y → y.parked ≠ some (cv, n) := by
  intro y n hy
  rw [ctx?_wake] at hy
  split at hy
  · obtain ⟨y₀, -, rfl⟩ := Option.map_eq_some_iff.mp hy
    simp
  · rename_i hd
    rcases h with rfl | h
    · exact absurd rfl hd
    · exact h y n hy

theorem mem_contexts {w : World} {d : Ctx} {y : Context} (h : w.ctx? d = some y) :
    d ∈ w.contexts := by
  cases d with
  | main => simp [contexts]
  | thread i =>
    have hi : i < w.slots.size := by
      simp only [ctx?] at h
      cases hs : w.slots[i]? with
      | none => simp [hs] at h
      | some s => exact (Array.getElem?_eq_some_iff.mp hs).1
    simp [contexts, hi]

/-- A broadcast on `cv` leaves no context asleep on `cv`. -/
theorem broadcast_unparked (w : World) (cv : CondRef) {d : Ctx} {y : Context}
    (hy : (w.broadcast cv).ctx? d = some y) (n : Nat) : y.parked ≠ some (cv, n) := by
  obtain ⟨y₀, hy₀, -⟩ := rel_some_right ((Quiet.broadcast w cv).ctx d) hy
  unfold World.broadcast at hy
  -- every context is visited, and one visited no longer sleeps on `cv` afterwards
  suffices h : ∀ (cs : List Ctx) (u : World),
      (d ∈ cs ∨ ∀ y n, u.ctx? d = some y → y.parked ≠ some (cv, n)) →
      ∀ y n, (cs.foldl (fun w c =>
        if ((w.ctx? c).bind (·.parked)).any (·.1 == cv) then w.wake c else w) u).ctx? d =
          some y → y.parked ≠ some (cv, n) from
    h w.contexts w (.inl (mem_contexts hy₀)) y n hy
  intro cs
  induction cs with
  | nil =>
    intro u hu
    simpa using hu
  | cons e rest ih =>
    intro u hu
    apply ih
    by_cases hde : d ∈ rest
    · exact .inl hde
    · have hu' : d = e ∨ ∀ y n, u.ctx? d = some y → y.parked ≠ some (cv, n) := by
        simpa [hde] using hu
      refine .inr ?_
      dsimp only
      split
      · exact wake_unparked u e d cv hu'
      · rename_i hno
        rcases hu' with rfl | hu'
        · intro y' n' hy' hp
          exact hno (by simp [hy', hp])
        · exact hu'


/-! ### One move -/

section
variable {w w₁ w' : World} {c : Ctx} {x x' : Context}

/-- A change that no sleeper sees keeps the invariant. -/
theorem Alert.hush (ha : w.Alert) (h : Hush w w') : w'.Alert where
  parked d y' k n hy' hp := by
    obtain ⟨y, hy, hh⟩ := h.ctx_back hy'
    exact h.count_pos (ha.parked d y k n hy (hh.parked hp))
  armed d y' k hy' ho harmed := by
    obtain ⟨y, hy, hh⟩ := h.ctx_back hy'
    rw [h.owner] at ho
    exact h.count_pos (ha.armed d y k hy ho (hh.1 ▸ harmed))
  shape d y' hy' := by
    obtain ⟨y, hy, hh⟩ := h.ctx_back hy'
    rw [hh.1]
    exact ha.shape d y hy

/-- A move of `c` to `x'` keeps the invariant when other contexts are at most woken, only the mover
takes a lock, and a positive count drops to `0` only as the mover leaves no sleeper. -/
theorem Alert.moved (ha : w.Alert) (hx' : w'.ctx? c = some x')
    (hctx : ∀ d y', d ≠ c → w'.ctx? d = some y' →
      (∃ y, w.ctx? d = some y ∧ y.Hushed y') ∨ (y'.parked = none ∧ ∀ op ∈ y'.code, op.Tame))
    (howner : ∀ l d, d ≠ c → (w'.cell l).owner = some d → (w.cell l).owner = some d)
    (hcount : ∀ k, 0 < w.count k → 0 < w'.count k ∨ ((w.cell (.latch k)).owner = some c ∧
      ∀ d y n, w'.ctx? d = some y → y.parked ≠ some (.latch k, n)))
    (hpk : ∀ k n, x'.parked = some (.latch k, n) → 0 < w'.count k)
    (harm : ∀ k, (w'.cell (.latch k)).owner = some c → Armed k x'.code → 0 < w'.count k)
    (hsh : Shape x'.code) : w'.Alert where
  parked d y' k n hy' hp := by
    by_cases hd : d = c
    · subst hd
      rw [hx'] at hy'
      cases hy'
      exact hpk k n hp
    · rcases hctx d y' hd hy' with ⟨y, hy, hh⟩ | ⟨hnone, -⟩
      · rcases hcount k (ha.parked d y k n hy (hh.parked hp)) with hpos | ⟨-, hno⟩
        · exact hpos
        · exact absurd hp (hno d y' n hy')
      · rw [hnone] at hp
        cases hp
  armed d y' k hy' ho harmed := by
    by_cases hd : d = c
    · subst hd
      rw [hx'] at hy'
      cases hy'
      exact harm k ho harmed
    · rcases hctx d y' hd hy' with ⟨y, hy, hh⟩ | ⟨-, htame⟩
      · -- the lock was the context's before, and the latch's count can only have stayed
        have ho' := howner _ d hd ho
        rcases hcount k (ha.armed d y k hy ho' (hh.1 ▸ harmed)) with hpos | ⟨hoc, -⟩
        · exact hpos
        · rw [ho'] at hoc
          exact absurd (Option.some.inj hoc) hd
      · exact absurd htame harmed.not_tame
  shape d y' hy' := by
    by_cases hd : d = c
    · subst hd
      rw [hx'] at hy'
      cases hy'
      exact hsh
    · rcases hctx d y' hd hy' with ⟨y, hy, hh⟩ | ⟨-, htame⟩
      · rw [hh.1]
        exact ha.shape d y hy
      · exact .inl htame

/-- A move of context `c` to state `x'`, between changes no sleeper sees. -/
theorem Alert.put (ha : w.Alert) (hc : (w.ctx? c).isSome) (h₁ : Hush w w₁)
    (h₂ : Hush (w₁.put c x') w')
    (hpk : ∀ k n, x'.parked = some (.latch k, n) → 0 < w'.count k)
    (harm : ∀ k, (w'.cell (.latch k)).owner = some c → Armed k x'.code → 0 < w'.count k)
    (hsh : Shape x'.code) : w'.Alert := by
  obtain ⟨x, hx⟩ := Option.isSome_iff_exists.mp hc
  obtain ⟨x₁, hx₁, -⟩ := rel_some_left (h₁.ctx c) hx
  have hput : (w₁.put c x').ctx? c = some x' := ctx_put_self _ _ _ (by simp [hx₁])
  obtain ⟨x'', hx'', hh⟩ := rel_some_left (h₂.ctx c) hput
  refine ha.moved hx'' (fun d y' hd hy' => ?_) (fun l d _ ho => ?_) (fun k hk => ?_)
    (fun k n hp => hpk k n (hh.parked hp)) (fun k ho harmed => harm k ho (hh.1 ▸ harmed))
    (hh.1 ▸ hsh)
  · obtain ⟨y₂, hy₂, hh₂⟩ := h₂.ctx_back hy'
    rw [ctx?_put_ne _ _ hd] at hy₂
    obtain ⟨y, hy, hh₁⟩ := h₁.ctx_back hy₂
    exact .inl ⟨y, hy, hh₁.trans hh₂⟩
  · rwa [h₂.owner, cell_put, h₁.owner] at ho
  · exact .inl (h₂.count_pos (by simpa using h₁.count_pos hk))

/-- A move that gives the mover tame moves, asleep nowhere, between changes no sleeper sees. -/
theorem Alert.install (ha : w.Alert) (hc : (w.ctx? c).isSome) (hpk : x'.parked = none)
    (ht : ∀ op ∈ x'.code, op.Tame) (h₁ : Hush w w₁) (h₂ : Hush (w₁.put c x') w') : w'.Alert :=
  ha.put hc h₁ h₂ (fun k n hp => by rw [hpk] at hp; cases hp)
    (fun _ _ harmed => absurd ht harmed.not_tame) (.inl ht)

/-- A step answered at once. -/
theorem Alert.reply (ha : w.Alert) (hc : (w.ctx? c).isSome) (hpk : x'.parked = none)
    (hcode : x'.code = []) (h₁ : Hush w w₁) (r : Reply) : (w₁.reply c x' r).Alert :=
  ha.install hc (by simpa [Context.answer] using hpk) (by simp [Context.answer, hcode]) h₁
    (.refl (w₁.put c (x'.answer r)))

/-- A step that installs tame moves. -/
theorem Alert.install_code (ha : w.Alert) (hc : (w.ctx? c).isSome) (hpk : x'.parked = none)
    (h₁ : Hush w w₁) {code : List Op} (ht : ∀ op ∈ code, op.Tame) :
    (w₁.install c x' code).Alert :=
  ha.install hc (by exact hpk) (by exact ht) h₁ (.refl (w₁.put c { x' with code := code }))

/-- A move that takes its own move off the mover's code keeps the invariant. -/
theorem Alert.pop {op : Op} {rest : List Op} (ha : w.Alert) (hx : w.ctx? c = some x)
    (hcode : x.code = op :: rest) (hpk : x'.parked = none) (hc : x'.code = rest) (h₁ : Hush w w₁)
    (h₂ : Hush (w₁.put c x') w') : w'.Alert := by
  have hsh := ha.shape c x hx
  rw [hcode] at hsh
  refine ha.put (by simp [hx]) h₁ h₂ (fun k n hp => by rw [hpk] at hp; cases hp)
    (fun k ho harmed => ?_) (hc ▸ hsh.pop)
  obtain ⟨-, harmed'⟩ := hsh.armed_pop (hc ▸ harmed)
  have ho' : (w.cell (.latch k)).owner = some c := by rwa [h₂.owner, cell_put, h₁.owner] at ho
  exact h₂.count_pos (by simpa using h₁.count_pos (ha.armed c x k hx ho' (hcode ▸ harmed')))

/-- A move to tame moves, asleep nowhere, keeps the invariant when no positive count drops to `0`
but by the mover leaving no sleeper. -/
theorem Alert.quiet (ha : w.Alert) (hx : w.ctx? c = some x) (hq : Quiet (w.put c x') w')
    (hpk : x'.parked = none) (ht : ∀ op ∈ x'.code, op.Tame)
    (hcount : ∀ k, 0 < w.count k → 0 < w'.count k ∨ ((w.cell (.latch k)).owner = some c ∧
      ∀ d y n, w'.ctx? d = some y → y.parked ≠ some (.latch k, n))) : w'.Alert := by
  obtain ⟨x'', hx'', hw⟩ := rel_some_left (hq.ctx c) (ctx_put_self _ _ _ (by simp [hx]))
  have hh := hw.hushed
  refine ha.moved hx'' (fun d y' hd hy' => ?_) (fun l d _ ho => ?_) hcount
    (fun k n hp => ?_) (fun _ _ harmed => absurd (hh.1 ▸ ht) harmed.not_tame) (.inl (hh.1 ▸ ht))
  · obtain ⟨y, hy, hwy⟩ := rel_some_right (hq.ctx d) hy'
    rw [ctx?_put_ne _ _ hd] at hy
    exact .inl ⟨y, hy, hwy.hushed⟩
  · rwa [hq.cell, cell_put] at ho
  · rw [hh.parked hp] at hpk
    cases hpk

/-- A tame move that takes lock `l` for the mover or gives it up. -/
theorem Alert.relock {op : Op} {rest : List Op} (ha : w.Alert) (hx : w.ctx? c = some x)
    (hpk : x.parked = none) (hcode : x.code = op :: rest) (hv : ∀ l, op ≠ .vacate l)
    (hp : ∀ cv l, op ≠ .park cv l) (l : LockRef) {o : Option Ctx} (ho : ∀ d, o = some d → d = c) :
    ((w.put c { x with code := rest }).modifyLock l fun cell => { cell with owner := o }).Alert := by
  have hsh := ha.shape c x hx
  rw [hcode] at hsh
  have ht : ∀ o ∈ rest, o.Tame := fun o ho => hsh.tame_of_head hv hp o (List.mem_cons_of_mem op ho)
  have hx' : ((w.put c { x with code := rest }).modifyLock l
      fun cell => { cell with owner := o }).ctx? c = some { x with code := rest } := by
    rw [ctx?_modifyLock, ctx_put_self _ _ _ (by simp [hx])]
  refine ha.moved hx' (fun d y' hd hy' => ?_) (fun l' d hd hown => ?_) (fun k hk => .inl ?_)
    (fun k n hp' => ?_) (fun _ _ harmed => absurd ht harmed.not_tame) (.inl ht)
  · rw [ctx?_modifyLock, ctx?_put_ne _ _ hd] at hy'
    exact .inl ⟨y', hy', .refl y'⟩
  · -- the lock the move changes has the mover or no one as its owner
    by_cases hl : l' = l
    · subst hl
      cases h : ((w.put c { x with code := rest }).lock? l').isSome with
      | true =>
        rw [cell_modifyLock_self _ _ _ h] at hown
        exact absurd (ho d hown) hd
      | false =>
        rw [cell_of_lock?_none (by rw [lock?_isSome_modifyLock]; exact h)] at hown
        cases hown
    · rwa [cell_modifyLock_ne _ _ hl, cell_put] at hown
  · rw [(Still.modifyLock _ l _).count_eq, count_put]
    exact hk
  · simp [hpk] at hp'

/-- Going to sleep on a condition gives the lock up; on a latch's condition, the lock is the
latch's and the count is above `0`. -/
theorem Alert.park {cv : CondRef} {l : LockRef} {rest : List Op} (ha : w.Alert)
    (hx : w.ctx? c = some x) (hcode : x.code = .park cv l :: rest) (hown : w.owns l c = true) :
    (({ w with ticket := w.ticket + 1 }.put c
      { x with code := rest, parked := some (cv, w.ticket) }).modifyLock l
        fun cell => { cell with owner := none }).Alert := by
  have hsh := ha.shape c x hx
  rw [hcode] at hsh
  obtain ⟨hsl, ht⟩ := hsh.park
  have hctx : ({ w with ticket := w.ticket + 1 } : World).ctx? = w.ctx? := ctx?_congr rfl rfl
  have hx' : (({ w with ticket := w.ticket + 1 }.put c
      { x with code := rest, parked := some (cv, w.ticket) }).modifyLock l
        fun cell => { cell with owner := none }).ctx? c =
      some { x with code := rest, parked := some (cv, w.ticket) } := by
    rw [ctx?_modifyLock, ctx_put_self _ _ _ (by rw [hctx]; simp [hx])]
  refine ha.moved hx' (fun d y' hd hy' => ?_) (fun l' d hd hown => ?_) (fun k hk => .inl ?_)
    (fun k n hp => ?_) (fun _ _ harmed => absurd ht harmed.not_tame) (.inl ht)
  · rw [ctx?_modifyLock, ctx?_put_ne _ _ hd, hctx] at hy'
    exact .inl ⟨y', hy', .refl y'⟩
  · by_cases hl : l' = l
    · subst hl
      cases h : (({ w with ticket := w.ticket + 1 }.put c
          { x with code := rest, parked := some (cv, w.ticket) }).lock? l').isSome with
      | true =>
        rw [cell_modifyLock_self _ _ _ h] at hown
        cases hown
      | false =>
        rw [cell_of_lock?_none (by rw [lock?_isSome_modifyLock]; exact h)] at hown
        cases hown
    · rw [cell_modifyLock_ne _ _ hl, cell_put] at hown
      exact hown
  · rw [(Still.modifyLock _ l _).count_eq, count_put]
    exact hk
  · -- a sleep on latch `k`'s condition is with its lock, which the mover owns with its next move
    simp only [Option.some.injEq, Prod.mk.injEq] at hp
    obtain ⟨rfl, -⟩ := hp
    obtain rfl := hsl k rfl
    have hpos := ha.armed c x k hx ((owns_iff _ _ _).mp hown) ⟨rest, .inl hcode⟩
    rw [(Still.modifyLock _ _ _).count_eq, count_put]
    exact hpos

/-- A wait whose condition holds goes to sleep next, with a lock it owns: on a latch's condition,
that latch's lock, whose count is then above `0`. -/
theorem Alert.expand {cv : CondRef} {l : LockRef} {p : Int → Bool} {rest : List Op}
    (ha : w.Alert) (hx : w.ctx? c = some x) (hpk : x.parked = none)
    (hcode : x.code = .waitWhile cv l p :: rest) (hp : p (w.guarded l) = true) :
    (w.put c { x with code :=
      [.vacate l, .park cv l, .acquire l, .reclaim l, .waitWhile cv l p] ++ rest }).Alert := by
  have hsh := ha.shape c x hx
  rw [hcode] at hsh
  refine ha.put (by simp [hx]) (.refl w) (.refl _) (fun k n hp' => by simp [hpk] at hp')
    (fun k _ harmed => ?_) hsh.expand
  obtain ⟨r, he | he⟩ := harmed
  · cases (List.cons.inj he).1
  · -- the wait is on latch `k`'s condition with its lock, and holds only of a count above `0`
    have h₁ := (List.cons.inj he).1
    have h₂ := (List.cons.inj (List.cons.inj he).2).1
    cases h₁
    cases h₂
    have ht := hsh.tame_of_head (fun _ => by simp) (fun _ _ => by simp) _ List.mem_cons_self
    rw [count_put]
    exact (Op.tame_waitWhile_latch.mp ht).2 (w.count k) hp

theorem count_set {w : World} {k : Nat} (hk : k < w.latches.size) (n : Nat) :
    (w.modifyLatch k fun l => { l with count := n }).count k = n := by
  simp [count_modifyLatch, Array.getElem?_eq_getElem hk]

/-- A count-down keeps the invariant, waking every sleeper when it brings the count to `0`. -/
theorem Alert.countDown {k : Nat} {rest : List Op} (ha : w.Alert) (hx : w.ctx? c = some x)
    (hpk : x.parked = none) (hcode : x.code = .countDown k :: rest) :
    (w.exec c { x with code := rest } (.countDown k)).Alert := by
  have hsh := ha.shape c x hx
  rw [hcode] at hsh
  have ht : ∀ o ∈ rest, o.Tame := fun o ho =>
    hsh.tame_of_head (fun _ => by simp) (fun _ _ => by simp) o (List.mem_cons_of_mem _ ho)
  have hpk' : ({ x with code := rest } : Context).parked = none := hpk
  simp only [World.exec]
  split
  · rename_i hown
    have ho : (w.cell (.latch k)).owner = some c := (owns_iff _ _ _).mp hown
    generalize hw₀ : (w.put c { x with code := rest }).modifyLatch k
      (fun l => { l with downs := l.downs + 1 }) = w₀
    have hq₀ : Quiet (w.put c { x with code := rest }) w₀ :=
      hw₀ ▸ Quiet.modifyLatch _ k _ fun _ => rfl
    have hc₀ : ∀ k', w₀.count k' = w.count k' := by
      intro k'
      rw [← hw₀, count_modifyLatch, count_put]
      split
      · subst k'
        simp [World.count]
      · rfl
    split
    · exact ha.quiet hx hq₀ hpk' ht fun k' hk' => .inl (by rwa [hc₀])
    · -- the count reaches `0`, and every sleeper on the latch is woken
      refine ha.quiet hx ((hq₀.trans (Quiet.modifyLatch _ k (fun l => { l with count := 0 })
        fun _ => rfl)).trans (Quiet.broadcast _ _)) hpk' ht fun k' hk' => ?_
      by_cases hk : k' = k
      · subst hk
        exact .inr ⟨ho, fun d y n hy => broadcast_unparked _ _ hy n⟩
      · left
        rw [(Still.broadcast _ _).count_eq, count_modifyLatch, if_neg (Ne.symm hk), hc₀]
        exact hk'
    · rename_i n hn
      have hlt : k < w₀.latches.size := lt_size_of_count_pos (by rw [hn]; omega)
      refine ha.quiet hx (hq₀.trans (Quiet.modifyLatch _ k (fun l => { l with count := n + 1 })
        fun _ => rfl)) hpk' ht fun k' hk' => .inl ?_
      by_cases hk : k' = k
      · subst hk
        rw [count_set hlt]
        omega
      · rw [count_modifyLatch, if_neg (Ne.symm hk), hc₀]
        exact hk'
  · exact ha.pop hx hcode hpk' rfl (.refl w) (.refl _)

theorem Alert.exec {op : Op} {rest : List Op} (ha : w.Alert) (hx : w.ctx? c = some x)
    (hpk : x.parked = none) (hcode : x.code = op :: rest) :
    (w.exec c { x with code := rest } op).Alert := by
  have hpop : ∀ {x' : Context} {w₁ w' : World}, Hush (w₁.put c x') w' → Hush w w₁ →
      x'.parked = none → x'.code = rest → w'.Alert :=
    fun h₂ h₁ hp hc => ha.pop hx hcode hp hc h₁ h₂
  have hput : (w.put c { x with code := rest }).Alert :=
    ha.pop hx hcode (by exact hpk) (by rfl) (.refl w) (.refl _)
  cases op with
  | acquire l =>
    exact ha.relock hx hpk hcode (by simp) (by simp) l fun _ h => (Option.some.inj h).symm
  | assign l =>
    simp only [World.exec]
    split
    · rw [record_eq]
      exact hpop (by exact .modifyLock _ _ _ fun _ => rfl) (by exact .of_views rfl rfl rfl rfl)
        (by simp [hpk]) (by rfl)
    · exact hput
  | unassign l =>
    simp only [World.exec]
    split
    · exact hpop (by exact .modifyLock _ _ _ fun _ => rfl) (.refl w) (by simp [hpk]) (by rfl)
    · exact hput
  | release l =>
    simp only [World.exec]
    split
    · exact ha.relock hx hpk hcode (by simp) (by simp) l fun _ h => by cases h
    · exact hput
  | vacate l =>
    simp only [World.exec]
    split
    · exact hpop (by exact .modifyLock _ _ _ fun _ => rfl) (.refl w) (by simp [hpk]) (by rfl)
    · exact hput
  | park cv l =>
    simp only [World.exec]
    split
    · rename_i hown
      simp only [Bool.and_eq_true] at hown
      exact ha.park hx hcode hown.1
    · exact hput
  | reclaim l =>
    simp only [World.exec]
    split
    · rw [record_eq]
      exact hpop (by exact .modifyLock _ _ _ fun _ => rfl) (by exact .of_views rfl rfl rfl rfl)
        (by simp [hpk]) (by rfl)
    · exact hput
  | waitWhile cv l p =>
    simp only [World.exec]
    split
    · rename_i hwait
      simp only [Bool.and_eq_true] at hwait
      exact ha.expand hx hpk hcode hwait.2
    · exact hput
  | signal cv => exact hpop (by exact .signal _ _) (.refl w) (by exact hpk) (by rfl)
  | broadcast cv => exact hpop (by exact .broadcast _ _) (.refl w) (by exact hpk) (by rfl)
  | read m =>
    simp only [World.exec]
    split
    · exact hpop (.refl _) (.refl w) (by simp [hpk]) (by rfl)
    · exact hput
  | write m f =>
    simp only [World.exec]
    split
    · exact hpop (by exact .update _ _ _ _) (.refl w) (by exact hpk) (by rfl)
    · exact hput
  | countDown k => exact ha.countDown hx hpk hcode
  | keep m => exact hpop (.refl _) (.refl w) (by simp [hpk]) (by rfl)
  | unkeep m => exact hpop (.refl _) (.refl w) (by simp [hpk]) (by rfl)
  | note q =>
    simp only [World.exec]
    split
    · exact hpop (.refl _) (by exact .of_views rfl rfl rfl rfl) (by simp [hpk]) (by rfl)
    · exact hpop (.refl _) (.refl w) (by simp [hpk]) (by rfl)
  | complete => exact hpop (.refl _) (.refl w) (by simp [Context.answer, hpk]) (by rfl)
  | publish i =>
    simp only [World.exec]
    exact hpop (by exact .modifySlot _ i _ fun _ => rfl) (by exact .of_views rfl rfl rfl rfl)
      (by simp [hpk]) (by rfl)
  | rename n => exact hpop (.refl _) (.refl w) (by simp [hpk]) (by rfl)
  | adopt i =>
    simp only [World.exec]
    split
    · exact hpop (by exact .modifySlot _ i _ fun _ => rfl) (by exact .of_views rfl rfl rfl rfl)
        (by simp [hpk]) (by rfl)
    · exact hput
  | awaitEnd i =>
    simp only [World.exec]
    split
    · split
      · exact hpop (.refl _) (.refl w) (by simp [hpk]) (by rfl)
      · exact hpop (.refl _) (.refl w) (by simp [hpk]) (by rfl)
      · exact hput
    · exact hput
  | pause t => exact hput
  | fork b => exact hput
  | finish f =>
    cases c with
    | main =>
      simp only [World.exec, World.finish]
      exact hpop (by exact (Hush.release _ _).trans (.dropRefs _ _)) (.refl w) (by simp [hpk])
        (by rfl)
    | thread i =>
      cases f with
      | some f =>
        simp only [World.exec, World.finish, Option.isSome_some, if_true]
        split
        · exact hpop ((((Hush.release _ _).trans (.dropRefs _ _))).trans
            (.of_views rfl rfl rfl rfl)) (.refl w) (by simp [hpk]) (by rfl)
        · exact hpop (by exact (Hush.release _ _).trans (.dropRefs _ _)) (.refl w)
            (by simp [hpk]) (by rfl)
      | none =>
        simp only [World.exec, World.finish]
        exact hpop (by exact (Hush.release _ _).trans (.dropRefs _ _)) (.refl w) (by simp [hpk])
          (by rfl)

theorem tame_unlockAll (held : List Nat) (f : Option Failure) :
    ∀ op ∈ held.flatMap Op.unlockKept ++ [.finish f], op.Tame := by
  intro op hop
  simp only [List.mem_append, List.mem_flatMap, Op.unlockKept, List.mem_cons, List.not_mem_nil,
    or_false] at hop
  rcases hop with ⟨m, -, rfl | rfl | rfl⟩ | rfl <;> trivial

/-- A failed step: main answers with the failure, a managed thread unwinds with tame moves. -/
theorem Alert.failStep (ha : w.Alert) (hc : (w.ctx? c).isSome) (hpk : x'.parked = none)
    (hcode : x'.code = []) (h₁ : Hush w w₁) (f : Failure) : (w₁.failStep c x' f).Alert := by
  cases c with
  | main => exact ha.reply hc hpk hcode h₁ _
  | thread i => exact ha.install_code hc hpk h₁ (tame_unlockAll _ _)

/-- A new thread, asleep nowhere and with tame moves, on a new latch that no one owns, and its
starter with tame moves, asleep nowhere. -/
theorem Alert.spawn (ha : w.Alert) {u : World} {i n : Nat} {t : Context} {f : Slot → Slot}
    (hl : u.latches = w.latches.push { count := n }) (hmu : u.mutexes = w.mutexes)
    (hm : u.main = w.main) (hs : u.slots = w.slots) (hf : ∀ s, (f s).ctx = some t)
    (htp : t.parked = none) (htt : ∀ op ∈ t.code, op.Tame) (hc : (w.ctx? c).isSome)
    (hpk : x'.parked = none) (ht : ∀ op ∈ x'.code, op.Tame) : ((u.modifySlot i f).put c x').Alert := by
  have hctx : u.ctx? = w.ctx? := ctx?_congr hm hs
  have hc' : ((u.modifySlot i f).ctx? c).isSome := isSome_ctx?_modifySlot hf (by rwa [hctx])
  have hcell : ∀ l, ((u.modifySlot i f).put c x').cell l = w.cell l := fun l => by
    rw [cell_put]
    exact (cell_push_latch hmu hl l : u.cell l = w.cell l)
  refine ha.moved ((ctx?_put _ c c x' hc').trans (if_pos rfl))
    (fun d y' hd hy' => ?_) (fun l d _ ho => by rwa [hcell] at ho) (fun k hk => .inl ?_)
    (fun k n hp => absurd (hp.symm.trans hpk) (by simp))
    (fun _ _ harmed => absurd ht harmed.not_tame) (.inl ht)
  · -- the new thread, or a context there was
    rw [ctx?_put_ne _ _ hd] at hy'
    rcases ctx?_modifySlot_some hf hy' with ⟨-, rfl⟩ | hy'
    · exact .inr ⟨htp, htt⟩
    · exact .inl ⟨y', by rwa [hctx] at hy', .refl y'⟩
  · -- a count above `0` is of a latch there was
    have hlt := lt_size_of_count_pos hk
    have hu : (u.modifySlot i f).count k = w.count k := by
      simp [World.count, modifySlot, hl, Array.getElem?_push, Nat.ne_of_lt hlt]
    rw [count_put, hu]
    exact hk

/-- Starting object `i` keeps the invariant. -/
theorem Alert.start {i : Nat} {s : Slot} (ha : w.Alert) (hc : (w.ctx? c).isSome)
    (hpk : x'.parked = none) (hcode : x'.code = []) : (w.start c x' i s).Alert := by
  unfold World.start
  split
  · exact ha.failStep hc hpk hcode (.refl w) _
  · split
    · exact ha.hush (.of_views rfl rfl rfl rfl)
    · rename_i actions captured hp
      split
      · have h₁ := (Hush.modifySlot w i (fun s => { s with started := true, program := none })
          fun _ => rfl).trans (.dropRefs _ (captured.mutexes.map (·.2)))
        dsimp only
        split
        · exact ha.hush h₁
        · exact ha.hush (h₁.trans (.of_views rfl rfl rfl rfl))
      · exact ha.spawn rfl rfl rfl rfl (fun _ => rfl) rfl (by simp [spawnCode, Op.scoped, Op.Tame])
          hc (by exact hpk) (by simp [awaitSpawnCode, Op.scoped, Op.Tame])

/-- Context `c` joins thread object `i`: it answers at once, or waits with tame moves. -/
theorem Alert.join {i : Nat} {s : Slot} (ha : w.Alert) (hc : (w.ctx? c).isSome)
    (hpk : x'.parked = none) (hcode : x'.code = []) : (w.join c x' i s).Alert := by
  unfold World.join
  split
  · exact ha.failStep hc hpk hcode (.refl w) _
  · split
    · exact ha.failStep hc hpk hcode (.refl w) _
    · split
      · exact ha.hush (.of_views rfl rfl rfl rfl)
      · exact ha.install_code hc hpk
          (.modifySlot w i (fun s => { s with joined := true, handle := false }) fun _ => rfl)
          (by simp [Op.Tame])

/-- Beginning any step keeps the invariant: the step is answered at once, or installs tame moves,
or starts a thread with tame moves on a new latch. -/
theorem Alert.perform {st : Step} {rest : List Value} (ha : w.Alert) (hx : w.ctx? c = some x)
    (hpk : x.parked = none) (hcode : x.code = []) :
    (w.perform c { x with plan := rest } st).Alert := by
  have hc : (w.ctx? c).isSome := by simp [hx]
  have hpk' : ({ x with plan := rest } : Context).parked = none := hpk
  have hcode' : ({ x with plan := rest } : Context).code = [] := hcode
  have hhush : x.Hushed { x with plan := rest } := ⟨rfl, .inl rfl⟩
  have hreply : ∀ r : Reply, (w.reply c { x with plan := rest } r).Alert :=
    fun r => ha.reply hc hpk' hcode' (.refl w) r
  have hinstall : ∀ {code : List Op}, (∀ op ∈ code, op.Tame) →
      (w.install c { x with plan := rest } code).Alert :=
    fun ht => ha.install_code hc hpk' (.refl w) ht
  cases st with
  | lock m =>
    simp only [World.perform]
    split
    · exact hreply _
    · exact hinstall (by simp [Op.lockKept, Op.Tame])
  | unlock m =>
    simp only [World.perform]
    split
    · exact hinstall (by simp [Op.unlockKept, Op.Tame])
    · exact hreply _
  | get m =>
    simp only [World.perform]
    split
    · exact hreply _
    · exact hinstall (by simp [Op.scoped, Op.Tame])
  | set m v =>
    simp only [World.perform]
    split
    · exact ha.reply hc hpk' hcode' (.modifyValue _ _ _) _
    · exact hinstall (by simp [Op.scoped, Op.Tame])
  | add m v times =>
    simp only [World.perform]
    split
    · exact ha.reply hc hpk' hcode' (.modifyValue _ _ _) _
    · exact hinstall (by simp [Op.scoped, Op.Tame])
  | holder m => exact hreply _
  | isLocked m =>
    exact ha.reply hc (by simpa using hpk) (by simpa using hcode) (by exact .of_views rfl rfl rfl rfl) _
  | assertLocked m =>
    simp only [World.perform]
    split
    · exact ha.reply hc (by simpa using hpk) (by simpa using hcode)
        (by exact .of_views rfl rfl rfl rfl) _
    · exact ha.failStep hc (by simpa using hpk) (by simpa using hcode)
        (by exact .of_views rfl rfl rfl rfl) _
  | mutexDebug m => exact hreply _
  | guardDebug m =>
    simp only [World.perform]
    split <;> exact hreply _
  | countDown l => exact hinstall (by simp [Op.scoped, Op.Tame])
  | wait l => exact hinstall (by simp [Op.scoped, Op.Tame])
  | count l => exact hinstall (by simp [Op.scoped, Op.Tame])
  | latchDebug l => exact hinstall (by simp [Op.scoped, Op.Tame])
  | notify cv => exact ha.reply hc hpk' hcode' (.signal w _) _
  | notifyAll cv => exact ha.reply hc hpk' hcode' (.broadcast w _) _
  | condDebug cv => exact hreply _
  | waitWhile cv m cmp v =>
    simp only [World.perform]
    split
    · exact hinstall (by simp [Op.Tame])
    · exact hinstall (by simp [Op.scoped, Op.Tame])
  | current =>
    simp only [World.perform]
    exact ha.reply hc (by exact hpk) (by exact hcode) (by exact .of_views rfl rfl rfl rfl) _
  | sleep usec =>
    simp only [World.perform]
    split
    · exact hreply _
    · exact hinstall (by simp [Op.Tame])
  | fail f => exact ha.failStep hc hpk' hcode' (.refl w) f
  | fork => exact ha.install_code hc (by exact hpk) (by exact .of_views rfl rfl rfl rfl) (by simp [Op.Tame])
  | mutexNew id v =>
    simp only [World.perform]
    exact ha.reply hc (by exact hpk) (by exact hcode) (.pushMutex w v) _
  | mutexDrop m =>
    simp only [World.perform]
    exact ha.reply hc (by exact hpk) (by exact hcode)
      (((Hush.refl w).put hx (by exact hhush)).trans (.dropRefs _ _)) _
  | getMut m set =>
    simp only [World.perform]
    split
    · exact hreply _
    · exact ha.reply hc hpk' hcode' (.modifyValue _ _ _) _
  | latchNew id n =>
    simp only [World.perform]
    exact ha.reply hc (by exact hpk) (by exact hcode) (.pushLatch w n) _
  | condNew id =>
    simp only [World.perform]
    exact ha.reply hc (by exact hpk) (by exact hcode) (by exact .of_views rfl rfl rfl rfl) _
  | threadNew spec =>
    simp only [World.perform]
    exact ha.reply hc (by exact hpk) (by exact hcode) (.pushSlot w _ _ rfl) _
  | threadStart t =>
    simp only [World.perform]
    split
    · exact ha.start hc hpk' hcode'
    · exact hreply _
  | threadJoin t =>
    simp only [World.perform]
    split
    · exact ha.join hc hpk' hcode'
    · exact hreply _
  | threadInfo t => exact hreply _
  | threadDrop t =>
    simp only [World.perform]
    split
    · split
      · exact ha.reply hc (by exact hpk) (by exact hcode)
          (.modifySlot w _ (fun s => { s with handle := false }) fun _ => rfl) _
      · -- the function is dropped, which may destroy a mutex only it named
        exact ha.reply hc (by exact hpk) (by exact hcode)
          (((Hush.modifySlot w _ (fun s => { s with program := none }) fun _ => rfl).put hx
            (by exact hhush)).trans (.dropRefs _ _)) _
    · exact ha.reply hc (by exact hpk) (by exact hcode) (.refl w) _
  | numCreated => exact hreply _
  | classify f => exact hreply _
  | exceptionNew what => exact hreply _

/-- A context whose moves have run out begins its next step, or drops its kept guards and
finishes, with tame moves. -/
theorem Alert.begin (ha : w.Alert) (hx : w.ctx? c = some x) (hpk : x.parked = none)
    (hcode : x.code = []) : (w.begin c x).Alert := by
  unfold World.begin
  split
  · exact ha.install_code (by simp [hx]) hpk (.refl w) (tame_unlockAll _ _)
  · dsimp only
    split
    · exact ha.reply (by simp [hx]) (by exact hpk) (by exact hcode) (.refl w) _
    · exact ha.perform hx hpk hcode

theorem Alert.advance (ha : w.Alert) (h : w.advance c = (w', true)) : w'.Alert := by
  unfold World.advance at h
  split at h
  · cases h
  · rename_i x hx
    split at h
    · cases h
    · rename_i hidle
      have hpk : x.parked = none := by
        cases hp : x.parked <;> simp_all
      split at h
      · rename_i op rest hcode
        split at h
        · cases h
        · cases h
          exact ha.exec hx hpk hcode
      · rename_i hcode
        cases h
        exact ha.begin hx hpk hcode

end

theorem Alert.of_begins {w : World} (hb : w.Begins) : w.Alert := by
  refine ⟨fun c x k n h hp => ?_, fun c x k h _ harmed => ?_, fun c x h => ?_⟩
  · rw [(hb.ctx h).2, hb.parked] at hp
    cases hp
  · rw [(hb.ctx h).2, hb.code] at harmed
    obtain ⟨r, he | he⟩ := harmed <;> simp at he
  · rw [(hb.ctx h).2, hb.code]
    exact .inl (by simp)

theorem Alert.moves {w w' : World} (ha : w.Alert) (h : Moves w w') : w'.Alert := by
  cases h with
  | move c _ hm => exact ha.advance (advance_of_move? hm)
  | wakeUp c x _ _ _ => exact ha.hush (.wake w c)
  | tick t _ _ => exact ha.hush (.of_views rfl rfl rfl rfl)
  | fork c x b rest n _ hx _ hpk hcode =>
    rw [forked_eq]
    exact ha.pop hx hcode (by exact hpk) (by rfl) (by exact .of_views rfl rfl rfl rfl) (.refl _)

/-- No wake-up on a latch is lost in any world a process reaches. -/
theorem Alert.reachable {host : Host} {steps : List Value} {w : World} (h : Reachable (World.init host steps) w) :
    w.Alert := by
  induction h with
  | refl => exact .of_begins (.init host steps)
  | tail _ hm ih => exact ih.moves hm

/-- No wake-up on a latch is lost: a context asleep on a latch with no wake-up pending finds its
count above `0`, so once enough count-downs are made nothing sleeps on it. -/
theorem no_lost_wakeup {host : Host} {steps : List Value} {w : World} (h : Reachable (World.init host steps) w) :
    (∀ c x k n, w.ctx? c = some x → x.parked = some (.latch k, n) → 0 < w.count k) ∧
    (∀ (k : Nat) (l : LatchCell), w.latches[k]? = some l → l.initial ≤ l.downs →
      ∀ c x n, w.ctx? c = some x → x.parked ≠ some (.latch k, n)) ∧
    (∀ c x k rest, w.ctx? c = some x → w.owns (.latch k) c = true →
      x.code = .park (.latch k) (.latch k) :: rest → 0 < w.count k) := by
  have ha := Alert.reachable h
  refine ⟨ha.parked, fun k l hl hdone c x n hx hp => ?_,
    fun c x k rest hx ho hcode => ha.armed c x k hx ((owns_iff _ _ _).mp ho) ⟨rest, .inl hcode⟩⟩
  have hpos := ha.parked c x k n hx hp
  rw [count_of_latch hl, Counted.reachable h k l hl] at hpos
  omega

/-- Main about to go to sleep on latch `a`, two moves after its check. -/
def aboutToPark : World := (checkingWait.replay [.main, .main]).getD checkingWait

/-- Main asleep on latch `a`. -/
def parkedOnA : World := (aboutToPark.replay [.main]).getD aboutToPark

/-- Main sleeps on `a` at count 1, while `b`, counted down to 0, has nobody asleep on it. -/
theorem no_lost_wakeup_work :
    Reachable (World.init .tested latchWork) aboutToPark ∧ Reachable (World.init .tested latchWork) parkedOnA ∧
    aboutToPark.owns (.latch 0) .main = true ∧ 0 < aboutToPark.count 0 ∧
    parkedOnA.main.parked = some (.latch 0, 0) ∧ 0 < parkedOnA.count 0 ∧
    (∃ l, parkedOnA.latches[1]? = some l ∧ l.initial ≤ l.downs) ∧
    ∀ c x n, parkedOnA.ctx? c = some x → x.parked ≠ some (.latch 1, n) := by
  have hC : Reachable (World.init .tested latchWork) aboutToPark :=
    ((Reachable.of_replay (by decide)).trans (Reachable.of_replay (by decide))).trans
      (Reachable.of_replay (by decide))
  have hD : Reachable (World.init .tested latchWork) parkedOnA := hC.trans (.of_replay (by decide))
  have ho : aboutToPark.owns (.latch 0) .main = true := by decide
  have hp : parkedOnA.main.parked = some (.latch 0, 0) := by decide
  obtain ⟨-, -, harmed⟩ := no_lost_wakeup hC
  obtain ⟨hparked, hopen, -⟩ := no_lost_wakeup hD
  obtain ⟨l, hl⟩ : ∃ l, parkedOnA.latches[1]? = some l := Option.isSome_iff_exists.mp (by decide)
  have hdone : l.initial ≤ l.downs := by
    have : (parkedOnA.latches[1]?).map (fun l => decide (l.initial ≤ l.downs)) = some true := by
      decide
    rw [hl] at this
    simpa using this
  exact ⟨hC, hD, ho, harmed .main _ 0 _ rfl ho rfl, hp, hparked .main _ 0 0 rfl hp,
    ⟨l, hl, hdone⟩, fun c x n hx => hopen 1 l hl hdone c x n hx⟩

end World

end ThreadKit
