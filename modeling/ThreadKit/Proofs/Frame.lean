import ThreadKit.Machine.Schedule

/-! What each update of a world leaves alone. Proofs read a world through its contexts
(`World.ctx?`) and its lock cells (`World.cell`); every update changes one context or one lock,
and the lemmas here say which, so that later proofs cite them and never unfold an update. -/
namespace ThreadKit

/-! ### Optional values related where both are present

The frames below relate a world's contexts to another's one context at a time, as
`Option.Rel r (w.ctx? d) (w'.ctx? d)`; these are the facts about `Option.Rel` they share. -/

theorem rel_refl {α : Type} {r : α → α → Prop} (hr : ∀ a, r a a) : ∀ o : Option α, Option.Rel r o o
  | none => .none
  | some a => .some (hr a)

theorem rel_trans {α : Type} {r : α → α → Prop} :
    ∀ {a b c : Option α}, Option.Rel r a b → Option.Rel r b c →
      (∀ {a b c}, r a b → r b c → r a c) → Option.Rel r a c
  | _, _, _, .none, .none, _ => .none
  | _, _, _, .some h₁, .some h₂, ht => .some (ht h₁ h₂)

theorem rel_some_left {α : Type} {r : α → α → Prop} {a b : Option α} {x : α}
    (h : Option.Rel r a b) (ha : a = some x) : ∃ y, b = some y ∧ r x y := by
  subst ha
  cases h with
  | some h => exact ⟨_, rfl, h⟩

theorem rel_some_right {α : Type} {r : α → α → Prop} {a b : Option α} {y : α}
    (h : Option.Rel r a b) (hb : b = some y) : ∃ x, a = some x ∧ r x y := by
  subst hb
  cases h with
  | some h => exact ⟨_, rfl, h⟩

namespace Context

/-- The context `y'` is `y`, possibly woken from a condition sleep. -/
def Wakes (y y' : Context) : Prop := y' = y ∨ y' = { y with parked := none }

theorem Wakes.refl (y : Context) : Wakes y y := .inl rfl

theorem Wakes.trans {a b c : Context} (h₁ : Wakes a b) (h₂ : Wakes b c) : Wakes a c := by
  rcases h₁ with rfl | rfl <;> rcases h₂ with rfl | rfl <;> simp [Wakes]

end Context

/-- Thread object `s'` is `s` later on: started if `s` was, with the same function or none. -/
def Slot.Later (s s' : Slot) : Prop :=
  (s.started = true → s'.started = true) ∧ (s'.program = s.program ∨ s'.program = none)

theorem Slot.Later.refl (s : Slot) : Slot.Later s s := ⟨fun h => h, .inl rfl⟩

theorem Slot.Later.trans {s₁ s₂ s₃ : Slot} (h₁ : Slot.Later s₁ s₂) (h₂ : Slot.Later s₂ s₃) :
    Slot.Later s₁ s₃ := by
  refine ⟨fun h => h₂.1 (h₁.1 h), ?_⟩
  rcases h₂.2 with hp₂ | hp₂
  · rcases h₁.2 with hp₁ | hp₁
    · exact .inl (hp₂.trans hp₁)
    · exact .inr (hp₂.trans hp₁)
  · exact .inr hp₂

namespace World

/-- The cell of lock `l`; a lock that does not exist reads as a free cell. -/
def cell (w : World) (l : LockRef) : LockCell := (w.lock? l).getD {}

theorem owns_iff (w : World) (l : LockRef) (c : Ctx) :
    w.owns l c = true ↔ (w.cell l).owner = some c := by
  unfold owns cell
  cases w.lock? l <;> simp

theorem holder_eq (w : World) (l : LockRef) : w.holder l = (w.cell l).holder := by
  unfold holder cell
  cases w.lock? l <;> rfl

theorem waits_acquire (w : World) (l : LockRef) :
    w.waits (.acquire l) = (w.cell l).owner.isSome := by
  simp only [waits, cell]
  cases w.lock? l <;> rfl

/-! ### Contexts -/

@[simp] theorem ctx?_put_ne (w : World) {c d : Ctx} (x : Context) (h : d ≠ c) :
    (w.put c x).ctx? d = w.ctx? d := by
  cases c with
  | main =>
    cases d with
    | main => exact absurd rfl h
    | thread j => rfl
  | thread i =>
    cases d with
    | main => rfl
    | thread j =>
      have hij : i ≠ j := fun e => h (by rw [e])
      simp [put, modifySlot, ctx?, Array.getElem?_modify, hij]

/-- The contexts depend on main and the thread objects alone. -/
theorem ctx?_congr {w w' : World} (hm : w'.main = w.main) (hs : w'.slots = w.slots) :
    w'.ctx? = w.ctx? := by
  funext d
  cases d <;> simp [ctx?, hm, hs]

theorem ctx?_put (w : World) (c d : Ctx) (x : Context) (h : (w.ctx? c).isSome) :
    (w.put c x).ctx? d = if d = c then some x else w.ctx? d := by
  by_cases hd : d = c
  · subst hd
    simp [ctx_put_self w d x h]
  · simp [hd]

/-- Putting context `c` in a state related to the one it had keeps a relation that holds context
by context. -/
theorem rel_ctx_put {r : Context → Context → Prop} {w w₁ : World} {c : Ctx} {x x' : Context}
    (h : ∀ d, Option.Rel r (w.ctx? d) (w₁.ctx? d)) (hx : w.ctx? c = some x) (hs : r x x')
    (d : Ctx) : Option.Rel r (w.ctx? d) ((w₁.put c x').ctx? d) := by
  by_cases hd : d = c
  · subst hd
    obtain ⟨x₁, hx₁, -⟩ := rel_some_left (h d) hx
    rw [hx, ctx_put_self _ _ _ (by simp [hx₁])]
    exact .some hs
  · rw [ctx?_put_ne _ _ hd]
    exact h d

/-- The other way round: after context `c` is put in state `x'` between two changes that keep a
relation context by context, each context is `x'`, or one there was, related to what it became. -/
theorem rel_ctx_back {r : Context → Context → Prop} (htrans : ∀ {a b c}, r a b → r b c → r a c)
    {w w₁ w' : World} {c : Ctx} {x x' : Context} (h₁ : ∀ d, Option.Rel r (w.ctx? d) (w₁.ctx? d))
    (h₂ : ∀ d, Option.Rel r ((w₁.put c x').ctx? d) (w'.ctx? d)) (hx : w.ctx? c = some x)
    {d : Ctx} {y' : Context} (hy' : w'.ctx? d = some y') :
    (d = c ∧ r x' y') ∨ ∃ y, w.ctx? d = some y ∧ r y y' := by
  obtain ⟨y₂, hy₂, hs₂⟩ := rel_some_right (h₂ d) hy'
  by_cases hd : d = c
  · subst hd
    obtain ⟨x₁, hx₁, -⟩ := rel_some_left (h₁ d) hx
    rw [ctx_put_self _ _ _ (by simp [hx₁])] at hy₂
    cases hy₂
    exact .inl ⟨rfl, hs₂⟩
  · rw [ctx?_put_ne _ _ hd] at hy₂
    obtain ⟨y, hy, hs₁⟩ := rel_some_right (h₁ d) hy₂
    exact .inr ⟨y, hy, htrans hs₁ hs₂⟩

/-- Changing thread objects without touching their threads leaves every context where it was. -/
theorem ctx?_modifySlot_of_ctx (w : World) (i : Nat) {f : Slot → Slot}
    (hc : ∀ s, (f s).ctx = s.ctx) (d : Ctx) : (w.modifySlot i f).ctx? d = w.ctx? d := by
  cases d with
  | main => rfl
  | thread j =>
    simp only [ctx?, World.modifySlot, Array.getElem?_modify]
    split
    · cases w.slots[j]? <;> simp [hc]
    · rfl

/-- Changing a thread object leaves every context but its thread where it was. -/
theorem ctx?_modifySlot_ne (w : World) {i : Nat} (f : Slot → Slot) {d : Ctx} (h : d ≠ .thread i) :
    (w.modifySlot i f).ctx? d = w.ctx? d := by
  cases d with
  | main => rfl
  | thread j =>
    have hij : i ≠ j := fun he => h (he ▸ rfl)
    simp [ctx?, World.modifySlot, Array.getElem?_modify, hij]

/-- Letting go of thread objects leaves every context where it was. -/
@[simp] theorem ctx?_release (w : World) (keys : List Nat) (d : Ctx) :
    (w.release keys).ctx? d = w.ctx? d := by
  unfold World.release
  induction keys generalizing w with
  | nil => rfl
  | cons i rest ih =>
    simp only [List.foldl_cons]
    rw [ih, ctx?_modifySlot_of_ctx w i (f := fun s => { s with program := none, handle := false })
      (fun _ => rfl)]

/-- Dropping references leaves every context where it was. -/
@[simp] theorem ctx?_dropRefs (w : World) (keys : List Nat) (d : Ctx) :
    (w.dropRefs keys).ctx? d = w.ctx? d := by
  unfold World.dropRefs
  split <;> cases d <;> rfl

/-- Putting a context that is there commutes with making a thread object. -/
theorem put_pushSlot (w : World) {c : Ctx} (hc : (w.ctx? c).isSome) (s : Slot) (n : Nat)
    (y : Context) :
    ({ w with slots := w.slots.push s, created := n } : World).put c y =
      { w.put c y with slots := (w.put c y).slots.push s, created := n } := by
  cases c with
  | main => rfl
  | thread j =>
    have hj : j < w.slots.size := by
      cases hs : w.slots[j]? with
      | none => simp [ctx?, hs] at hc
      | some _ => exact (Array.getElem?_eq_some_iff.mp hs).1
    show ({ w with slots := (w.slots.push s).modify j _, created := n } : World) =
      { w with slots := (w.slots.modify j _).push s, created := n }
    congr 1
    apply Array.ext_getElem?
    intro k
    simp only [Array.getElem?_modify, Array.getElem?_push, Array.size_modify]
    by_cases hk : k = w.slots.size
    · subst hk
      simp [Nat.ne_of_lt hj]
    · simp [hk]

/-- A new thread object, pushed at the end, has no context yet, so it changes no context. -/
theorem ctx?_pushSlot (w : World) {s : Slot} (n : Nat) (hc : s.ctx = none) (d : Ctx) :
    ({ w with slots := w.slots.push s, created := n } : World).ctx? d = w.ctx? d := by
  cases d with
  | main => rfl
  | thread j =>
    simp only [ctx?, Array.getElem?_push]
    split
    · subst j
      simp [hc]
    · rfl

@[simp] theorem lock?_put (w : World) (c : Ctx) (x : Context) (l : LockRef) :
    (w.put c x).lock? l = w.lock? l := by
  cases c <;> cases l <;> rfl

@[simp] theorem cell_put (w : World) (c : Ctx) (x : Context) (l : LockRef) :
    (w.put c x).cell l = w.cell l := by
  simp [cell]

/-- A lock's cell depends on the stores alone. -/
theorem cell_congr {w w' : World} (hm : w'.mutexes = w.mutexes) (hl : w'.latches = w.latches)
    (l : LockRef) : w'.cell l = w.cell l := by
  cases l <;> simp [cell, lock?, hm, hl]

/-- A new mutex, pushed at the end of the store, changes no lock's cell: it has none before and
a cell with no owner after. -/
theorem cell_push_mutex {w w' : World} {v : Int64}
    (hm : w'.mutexes = w.mutexes.push { value := v }) (hl : w'.latches = w.latches)
    (l : LockRef) : w'.cell l = w.cell l := by
  cases l with
  | mutex k =>
    simp only [cell, lock?, hm, Array.getElem?_push]
    split
    · subst k
      simp
    · rfl
  | latch k => simp [cell, lock?, hl]

theorem cell_push_latch {w w' : World} {n : Nat} (hm : w'.mutexes = w.mutexes)
    (hl : w'.latches = w.latches.push { count := n }) (l : LockRef) : w'.cell l = w.cell l := by
  cases l with
  | mutex k => simp [cell, lock?, hm]
  | latch k =>
    simp only [cell, lock?, hl, Array.getElem?_push]
    split
    · subst k
      simp
    · rfl

theorem cell_of_lock?_none {w : World} {l : LockRef} (h : (w.lock? l).isSome = false) :
    w.cell l = {} := by
  unfold cell
  cases hl : w.lock? l with
  | none => rfl
  | some _ => simp [hl] at h

@[simp] theorem ctx?_modifyLock (w : World) (l : LockRef) (f : LockCell → LockCell) (c : Ctx) :
    (w.modifyLock l f).ctx? c = w.ctx? c := by
  cases l <;> cases c <;> rfl

theorem lock?_modifyLock (w : World) (l l' : LockRef) (f : LockCell → LockCell) :
    (w.modifyLock l f).lock? l' = if l' = l then (w.lock? l).map f else w.lock? l' := by
  cases l with
  | mutex k =>
    cases l' with
    | mutex k' =>
      by_cases h : k' = k
      · subst h
        simp [modifyLock, modifyMutex, lock?, Array.getElem?_modify, Option.map_map,
          Function.comp_def]
      · simp [modifyLock, modifyMutex, lock?, Array.getElem?_modify, Ne.symm h, h]
    | latch k' => simp [modifyLock, modifyMutex, lock?]
  | latch k =>
    cases l' with
    | mutex k' => simp [modifyLock, modifyLatch, lock?]
    | latch k' =>
      by_cases h : k' = k
      · subst h
        simp [modifyLock, modifyLatch, lock?, Array.getElem?_modify, Option.map_map,
          Function.comp_def]
      · simp [modifyLock, modifyLatch, lock?, Array.getElem?_modify, Ne.symm h, h]

theorem cell_modifyLock_self (w : World) (l : LockRef) (f : LockCell → LockCell)
    (h : (w.lock? l).isSome) : (w.modifyLock l f).cell l = f (w.cell l) := by
  obtain ⟨cl, hc⟩ := Option.isSome_iff_exists.mp h
  simp [cell, lock?_modifyLock, hc]

theorem cell_modifyLock_ne (w : World) {l l' : LockRef} (f : LockCell → LockCell) (h : l' ≠ l) :
    (w.modifyLock l f).cell l' = w.cell l' := by
  simp [cell, lock?_modifyLock, h]

theorem lock?_isSome_modifyLock (w : World) (l l' : LockRef) (f : LockCell → LockCell) :
    ((w.modifyLock l f).lock? l').isSome = (w.lock? l').isSome := by
  rw [lock?_modifyLock]
  split
  · subst l'
    simp
  · rfl

theorem slots_put {w : World} {c : Ctx} {x : Context} {i : Nat} {s' : Slot}
    (h : (w.put c x).slots[i]? = some s') :
    ∃ s, w.slots[i]? = some s ∧ s'.started = s.started ∧ s'.program = s.program := by
  cases c with
  | main => exact ⟨s', h, rfl, rfl⟩
  | thread j =>
    simp only [World.put, World.modifySlot, Array.getElem?_modify] at h
    split at h
    · obtain ⟨s, hs0, rfl⟩ := Option.map_eq_some_iff.mp h
      exact ⟨s, hs0, rfl, rfl⟩
    · exact ⟨s', h, rfl, rfl⟩

/-! ### Wake-ups in sequence -/

section
variable {R : World → World → Prop}

/-- A signal wakes at most one context, so a reflexive relation between worlds that holds across
every wake-up holds across a signal. -/
theorem signal_of_wake (hrefl : ∀ w, R w w) (hwake : ∀ w c, R w (w.wake c)) (w : World)
    (cv : CondRef) : R w (w.signal cv) := by
  unfold World.signal
  split
  · exact hwake w _
  · exact hrefl w

/-- A broadcast is wake-ups in sequence, so a preorder on worlds that holds across every wake-up
holds across a broadcast. -/
theorem broadcast_of_wake (hrefl : ∀ w, R w w) (htrans : ∀ {a b c}, R a b → R b c → R a c)
    (hwake : ∀ w c, R w (w.wake c)) (w : World) (cv : CondRef) : R w (w.broadcast cv) := by
  unfold World.broadcast
  generalize w.contexts = cs
  induction cs generalizing w with
  | nil => exact hrefl w
  | cons d rest ih =>
    simp only [List.foldl_cons]
    split
    · exact htrans (hwake w d) (ih _)
    · exact ih w

/-- Letting go of thread objects changes them one at a time, so a preorder on worlds that holds
across every such change holds across the release. -/
theorem release_of_modifySlot (hrefl : ∀ w, R w w) (htrans : ∀ {a b c}, R a b → R b c → R a c)
    (hslot : ∀ w i, R w (w.modifySlot i fun s => { s with program := none, handle := false }))
    (w : World) (keys : List Nat) : R w (w.release keys) := by
  unfold World.release
  induction keys generalizing w with
  | nil => exact hrefl w
  | cons i rest ih => exact htrans (hslot w i) (ih _)

@[simp] theorem release_abort (w : World) (keys : List Nat) : (w.release keys).abort = w.abort :=
  release_of_modifySlot (R := fun a b => b.abort = a.abort) (fun _ => rfl) (fun h₁ h₂ => h₂.trans h₁)
    (fun _ _ => rfl) w keys

@[simp] theorem release_process (w : World) (keys : List Nat) :
    (w.release keys).process = w.process :=
  release_of_modifySlot (R := fun a b => b.process = a.process) (fun _ => rfl)
    (fun h₁ h₂ => h₂.trans h₁) (fun _ _ => rfl) w keys

end

/-! ### Quiet updates -/

/-- The world `w'` shows what the lock protocol looks at as `w` does, except that contexts may
have been woken and thread objects may have been started or lost their functions. -/
structure Quiet (w w' : World) : Prop where
  ctx : ∀ d, Option.Rel Context.Wakes (w.ctx? d) (w'.ctx? d)
  lock : ∀ l, w'.lock? l = w.lock? l
  mutexes : w'.mutexes.size = w.mutexes.size
  latches : w'.latches.size = w.latches.size
  nextTid : w'.nextTid = w.nextTid
  slots : ∀ (i : Nat) (s' : Slot), w'.slots[i]? = some s' → ∃ s, w.slots[i]? = some s ∧ Slot.Later s s'

namespace Quiet

theorem refl (w : World) : Quiet w w :=
  ⟨fun _ => rel_refl Context.Wakes.refl _, fun _ => rfl, rfl, rfl, rfl, fun _ s h => ⟨s, h, .refl s⟩⟩

theorem trans {w₁ w₂ w₃ : World} (h₁ : Quiet w₁ w₂) (h₂ : Quiet w₂ w₃) : Quiet w₁ w₃ where
  ctx _ := rel_trans (h₁.ctx _) (h₂.ctx _) Context.Wakes.trans
  lock l := (h₂.lock l).trans (h₁.lock l)
  mutexes := h₂.mutexes.trans h₁.mutexes
  latches := h₂.latches.trans h₁.latches
  nextTid := h₂.nextTid.trans h₁.nextTid
  slots i s₃ h := by
    obtain ⟨s₂, h₂', hl₂⟩ := h₂.slots i s₃ h
    obtain ⟨s₁, h₁', hl₁⟩ := h₁.slots i s₂ h₂'
    exact ⟨s₁, h₁', hl₁.trans hl₂⟩

theorem cell {w w' : World} (h : Quiet w w') (l : LockRef) : w'.cell l = w.cell l := by
  simp [World.cell, h.lock l]

theorem of_views {w w' : World} (hm : w'.main = w.main) (hs : w'.slots = w.slots)
    (hmu : w'.mutexes = w.mutexes) (hla : w'.latches = w.latches)
    (hn : w'.nextTid = w.nextTid) : Quiet w w' where
  ctx d := by
    cases d with
    | main => simp only [ctx?, hm]; exact .some (.refl _)
    | thread i => simp only [ctx?, hs]; exact rel_refl Context.Wakes.refl _
  lock l := by cases l <;> simp [lock?, hmu, hla]
  mutexes := by rw [hmu]
  latches := by rw [hla]
  nextTid := hn
  slots i s h := ⟨s, by rwa [hs] at h, .refl s⟩

theorem modifyMutex (w : World) (m : Nat) (f : MutexCell → MutexCell)
    (hf : ∀ c, (f c).lock = c.lock) : Quiet w (w.modifyMutex m f) where
  ctx _ := rel_refl Context.Wakes.refl _
  lock l := by
    cases l with
    | mutex k =>
      simp only [lock?, World.modifyMutex, Array.getElem?_modify]
      split <;> simp [Option.map_map, Function.comp_def, hf]
    | latch k => rfl
  mutexes := by simp [World.modifyMutex]
  latches := rfl
  nextTid := rfl
  slots i s h := ⟨s, h, .refl s⟩

theorem modifyValue (w : World) (m : Nat) (f : Int64 → Int64) : Quiet w (w.modifyValue m f) :=
  modifyMutex w m _ fun _ => rfl

theorem update (w : World) (m : Nat) (f : Int64 → Int64) (v : Int64) :
    Quiet w (w.update m f v) :=
  modifyMutex w m _ fun _ => rfl

theorem modifyLatch (w : World) (k : Nat) (f : LatchCell → LatchCell)
    (hf : ∀ c, (f c).lock = c.lock) : Quiet w (w.modifyLatch k f) where
  ctx _ := rel_refl Context.Wakes.refl _
  lock l := by
    cases l with
    | mutex k' => rfl
    | latch k' =>
      simp only [lock?, World.modifyLatch, Array.getElem?_modify]
      split <;> simp [Option.map_map, Function.comp_def, hf]
  mutexes := rfl
  latches := by simp [World.modifyLatch]
  nextTid := rfl
  slots i s h := ⟨s, h, .refl s⟩

theorem modifySlot (w : World) (i : Nat) (f : Slot → Slot) (hc : ∀ s, (f s).ctx = s.ctx)
    (hs : ∀ s, Slot.Later s (f s)) :
    Quiet w (w.modifySlot i f) where
  ctx d := by
    rw [ctx?_modifySlot_of_ctx w i hc]
    exact rel_refl Context.Wakes.refl _
  lock l := by cases l <;> rfl
  mutexes := rfl
  latches := rfl
  nextTid := rfl
  slots j s' h := by
    simp only [World.modifySlot, Array.getElem?_modify] at h
    split at h
    · obtain ⟨s, hs0, rfl⟩ := Option.map_eq_some_iff.mp h
      exact ⟨s, hs0, hs s⟩
    · exact ⟨s', h, .refl s'⟩

theorem release (w : World) (keys : List Nat) : Quiet w (w.release keys) :=
  release_of_modifySlot refl (fun h₁ h₂ => h₁.trans h₂)
    (fun w i => modifySlot w i _ (fun _ => rfl) fun _ => ⟨id, .inr rfl⟩) w keys

theorem dropRefs (w : World) (keys : List Nat) : Quiet w (w.dropRefs keys) := by
  unfold World.dropRefs
  split
  · exact of_views rfl rfl rfl rfl rfl
  · exact refl w

/-- Replacing a context by itself, possibly woken. -/
theorem put {w : World} {c : Ctx} {x x' : Context} (hx : w.ctx? c = some x)
    (hw : Context.Wakes x x') : Quiet w (w.put c x') where
  ctx := rel_ctx_put (fun _ => rel_refl Context.Wakes.refl _) hx hw
  lock l := lock?_put w c x' l
  mutexes := by cases c <;> rfl
  latches := by cases c <;> rfl
  nextTid := by cases c <;> rfl
  slots i s' h := by
    cases c with
    | main => exact ⟨s', h, .refl s'⟩
    | thread j =>
      obtain ⟨s, hs0, hst, hp⟩ := slots_put h
      exact ⟨s, hs0, fun h => hst ▸ h, .inl hp⟩

theorem wake (w : World) (c : Ctx) : Quiet w (w.wake c) := by
  unfold World.wake
  split
  · exact put ‹_› (.inr rfl)
  · exact refl w

theorem signal (w : World) (cv : CondRef) : Quiet w (w.signal cv) :=
  signal_of_wake refl wake w cv

theorem broadcast (w : World) (cv : CondRef) : Quiet w (w.broadcast cv) :=
  broadcast_of_wake refl (fun h₁ h₂ => h₁.trans h₂) wake w cv

end Quiet

@[simp] theorem put_mutexes (w : World) (c : Ctx) (x : Context) :
    (w.put c x).mutexes = w.mutexes := by
  cases c <;> rfl

@[simp] theorem put_latches (w : World) (c : Ctx) (x : Context) :
    (w.put c x).latches = w.latches := by
  cases c <;> rfl

@[simp] theorem put_nextTid (w : World) (c : Ctx) (x : Context) :
    (w.put c x).nextTid = w.nextTid := by
  cases c <;> rfl

@[simp] theorem modifyLock_mutexes_size (w : World) (l : LockRef) (f : LockCell → LockCell) :
    (w.modifyLock l f).mutexes.size = w.mutexes.size := by
  cases l <;> simp [modifyLock, modifyMutex, modifyLatch]

@[simp] theorem modifyLock_latches_size (w : World) (l : LockRef) (f : LockCell → LockCell) :
    (w.modifyLock l f).latches.size = w.latches.size := by
  cases l <;> simp [modifyLock, modifyMutex, modifyLatch]

@[simp] theorem modifyLock_nextTid (w : World) (l : LockRef) (f : LockCell → LockCell) :
    (w.modifyLock l f).nextTid = w.nextTid := by
  cases l <;> rfl

@[simp] theorem modifyLock_slots (w : World) (l : LockRef) (f : LockCell → LockCell) :
    (w.modifyLock l f).slots = w.slots := by
  cases l <;> rfl

/-- A quiet update leaves a context that is not asleep as it is. -/
theorem Quiet.ctx?_of_awake {w w' : World} {c : Ctx} {x : Context} (hq : Quiet w w')
    (hx : w.ctx? c = some x) (hp : x.parked = none) : w'.ctx? c = some x := by
  have h := hq.ctx c
  rw [hx] at h
  cases h' : w'.ctx? c with
  | none =>
    rw [h'] at h
    cases h
  | some y =>
    rw [h'] at h
    cases h with
    | some hw =>
      rcases hw with rfl | rfl
      · rfl
      · cases x
        simp_all

@[simp] theorem forkChild_slots (w : World) (x : Context) : (w.forkChild x).slots = #[] := rfl

@[simp] theorem forkChild_mutexes (w : World) (x : Context) : (w.forkChild x).mutexes = #[] := rfl

@[simp] theorem forkChild_latches (w : World) (x : Context) : (w.forkChild x).latches = #[] := rfl

@[simp] theorem forkChild_created (w : World) (x : Context) :
    (w.forkChild x).created = w.created := rfl

@[simp] theorem forkChild_nextTid (w : World) (x : Context) :
    (w.forkChild x).nextTid = w.nextTid + 1 := rfl

@[simp] theorem forkChild_process (w : World) (x : Context) :
    (w.forkChild x).process = (x.self.forkChild w.process w.nextTid).2 := rfl

theorem forkChild_main (w : World) (x : Context) :
    (w.forkChild x).main =
      { self := (x.self.forkChild w.process w.nextTid).1, osName := x.osName, scope := {},
        plan := forkProbe } := rfl

/-- A fork ends as an answer of the parent, after it asked for its tid again. -/
theorem forked_eq (w : World) (c : Ctx) (x : Context) (before : Tid) (e : World) :
    w.forked c x before e = { w with process := (x.self.tid w.process).2.2 }.put c
      ({ x with self := (x.self.tid w.process).2.1 }.answer
        (.fork (forkReport before (x.self.tid w.process).1 e))) := rfl

theorem lock?_isSome_iff (w : World) (l : LockRef) :
    (w.lock? l).isSome ↔ match l with
      | .mutex k => k < w.mutexes.size
      | .latch k => k < w.latches.size := by
  cases l <;> simp [lock?]

/-- Locks only come into being: a world with larger stores has every lock of a smaller one. -/
theorem lock?_isSome_mono {w w' : World} (hm : w.mutexes.size ≤ w'.mutexes.size)
    (hl : w.latches.size ≤ w'.latches.size) {l : LockRef} (h : (w.lock? l).isSome) :
    (w'.lock? l).isSome := by
  rw [lock?_isSome_iff] at h ⊢
  cases l with
  | mutex k => exact Nat.lt_of_lt_of_le h hm
  | latch k => exact Nat.lt_of_lt_of_le h hl

end World

end ThreadKit
