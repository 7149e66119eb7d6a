import ThreadKit.Proofs.History

/-! The start handshake. Main starts a thread with a latch of its own, made with count `1`: the
thread publishes its tid, counts the latch down and takes its name; main waits on the latch and
then adopts the published tid. No scope names the latch and only the thread counts it down, so
main adopts a tid only once the thread has published it, and every move of the handshake, on
either side, locks that latch alone.

`World.Counts` says what one move does to the latches; `World.Handshake` follows every start as
far as it has got. Both come from one case analysis of the moves (`Tracks.advance`). -/
namespace ThreadKit

open Script

namespace LatchCell

/-- What a latch holds apart from its lock: its count, the count it was made with, and the
count-downs made on it. -/
def contents (l : LatchCell) : Nat × Nat × Nat := (l.count, l.initial, l.downs)

end LatchCell

namespace Context

/-- Context `y'` is `y` as far as the handshake sees: the same moves and tid, and a scope that
names no latch `y`'s does not. -/
def Still (y y' : Context) : Prop :=
  y'.code = y.code ∧ (∀ p ∈ y'.scope.latches, p ∈ y.scope.latches) ∧
    y'.self.kernel = y.self.kernel

theorem Still.refl (y : Context) : Still y y := ⟨rfl, fun _ h => h, rfl⟩

theorem Still.trans {a b c : Context} (h₁ : Still a b) (h₂ : Still b c) : Still a c :=
  ⟨h₂.1.trans h₁.1, fun p hp => h₁.2.1 p (h₂.2.1 p hp), h₂.2.2.trans h₁.2.2⟩

end Context

/-- Thread object `s'` is `s` as far as the handshake sees: the same tids and start latch, and
its function kept or dropped. -/
def Slot.Still (s s' : Slot) : Prop :=
  s'.tid = s.tid ∧ s'.published = s.published ∧ s'.latch = s.latch ∧
    (s'.program = s.program ∨ s'.program = none)

theorem Slot.Still.refl (s : Slot) : Slot.Still s s := ⟨rfl, rfl, rfl, .inl rfl⟩

theorem Slot.Still.trans {a b c : Slot} (h₁ : Slot.Still a b) (h₂ : Slot.Still b c) :
    Slot.Still a c := by
  refine ⟨h₂.1.trans h₁.1, h₂.2.1.trans h₁.2.1, h₂.2.2.1.trans h₁.2.2.1, ?_⟩
  rcases h₂.2.2.2 with h | h
  · rw [h]
    exact h₁.2.2.2
  · exact .inr h

namespace World

/-- The wait of main on the start latch `k` of thread object `i`, and what follows it. -/
def waitTail (i k : Nat) : List Op :=
  [.waitWhile (.latch k) (.latch k) (· > 0), .unassign (.latch k), .release (.latch k), .adopt i,
    .complete]

theorem awaitSpawnCode_eq (i k : Nat) :
    awaitSpawnCode i k = [.acquire (.latch k), .assign (.latch k)] ++ waitTail i k := rfl

/-- The moves main has left while it starts thread object `i` with start latch `k`, before its
wait ends: it is taking the latch, or waiting, perhaps asleep, on it. -/
def Awaiting (i k : Nat) (code : List Op) : Prop :=
  ∃ pre, (pre <:+ [.acquire (.latch k), .assign (.latch k)] ∨
      pre <:+ [.vacate (.latch k), .park (.latch k) (.latch k), .acquire (.latch k),
        .reclaim (.latch k)]) ∧ code = pre ++ waitTail i k

/-- The moves main has left after its wait on the start latch `k` of thread object `i`: it lets
the latch go and adopts the tid. -/
def Adopting (i k : Nat) (code : List Op) : Prop :=
  code <:+ [.unassign (.latch k), .release (.latch k), .adopt i, .complete] ∧ .adopt i ∈ code

theorem Awaiting.pop {i k : Nat} {op : Op} {rest : List Op} (h : Awaiting i k (op :: rest)) :
    (op = .waitWhile (.latch k) (.latch k) (· > 0) ∧
      rest = [.unassign (.latch k), .release (.latch k), .adopt i, .complete]) ∨
    Awaiting i k rest := by
  obtain ⟨pre, hpre, heq⟩ := h
  cases pre with
  | nil =>
    simp only [waitTail, List.nil_append, List.cons.injEq] at heq
    exact .inl heq
  | cons a pre =>
    simp only [List.cons_append, List.cons.injEq] at heq
    refine .inr ⟨pre, ?_, heq.2⟩
    rcases hpre with h | h
    · exact .inl ((List.suffix_cons a pre).trans h)
    · exact .inr ((List.suffix_cons a pre).trans h)

/-- A wait of main on the start latch that begins again still awaits the latch. -/
theorem Awaiting.expand {i k : Nat} {cv : CondRef} {l : LockRef} {p : Int → Bool}
    {rest : List Op} (h : Awaiting i k (.waitWhile cv l p :: rest)) :
    Awaiting i k ([.vacate l, .park cv l, .acquire l, .reclaim l, .waitWhile cv l p] ++ rest) := by
  obtain ⟨pre, hpre, heq⟩ := h
  cases pre with
  | nil =>
    simp only [waitTail, List.nil_append, List.cons.injEq] at heq
    obtain ⟨⟨rfl, rfl, rfl⟩, rfl⟩ := heq
    exact ⟨_, .inr (List.suffix_refl _), rfl⟩
  | cons a pre =>
    simp only [List.cons_append, List.cons.injEq] at heq
    rcases hpre with h | h
    · have := heq.1 ▸ h.subset List.mem_cons_self
      simp at this
    · have := heq.1 ▸ h.subset List.mem_cons_self
      simp at this

theorem Adopting.pop {i k : Nat} {op : Op} {rest : List Op} (h : Adopting i k (op :: rest))
    (hm : .adopt i ∈ rest) : Adopting i k rest :=
  ⟨(List.suffix_cons op rest).trans h.1, hm⟩

theorem Adopting.not_waitWhile {i k : Nat} {cv : CondRef} {l : LockRef} {p : Int → Bool}
    {rest : List Op} (h : Adopting i k (.waitWhile cv l p :: rest)) : False := by
  have := h.1.subset List.mem_cons_self
  simp at this

/-- The thread's handshake has no wait. -/
theorem waitWhile_not_suffix_spawnCode {i k : Nat} {name : String} {cv : CondRef} {l : LockRef}
    {p : Int → Bool} {rest : List Op} : ¬ (.waitWhile cv l p :: rest <:+ spawnCode i k name) := by
  intro h
  have := h.subset List.mem_cons_self
  simp [spawnCode, Op.scoped] at this

/-- The thread counts its start latch down once. -/
theorem countDown_not_mem_of_suffix {i k : Nat} {name : String} {rest : List Op}
    (h : .countDown k :: rest <:+ spawnCode i k name) : .countDown k ∉ rest := by
  simp only [spawnCode, Op.scoped, List.cons_append, List.nil_append,
    List.suffix_cons_iff, List.cons.injEq, reduceCtorEq, false_and, false_or] at h
  rcases h with ⟨-, rfl⟩ | h
  · simp
  · simp [List.suffix_nil] at h

/-- From `w` to `w'` nothing the handshake sees changes: each context and thread object is
`Still`, and each latch keeps its count and count-downs. -/
structure Still (w w' : World) : Prop where
  ctx : ∀ d, Option.Rel Context.Still (w.ctx? d) (w'.ctx? d)
  slots : ∀ i : Nat, Option.Rel Slot.Still w.slots[i]? w'.slots[i]?
  latches : ∀ k : Nat,
    (w'.latches[k]?).map LatchCell.contents = (w.latches[k]?).map LatchCell.contents

theorem ctx?_thread (w : World) (i : Nat) : w.ctx? (.thread i) = w.slots[i]?.bind (·.ctx) := rfl

theorem ctx?_of_slot {w : World} {i : Nat} {s : Slot} (hs : w.slots[i]? = some s) :
    w.ctx? (.thread i) = s.ctx := by
  simp [ctx?, hs]

/-- Putting a context changes no thread object but the context's own, and there only the context. -/
theorem slots_put_eq (w : World) (c : Ctx) (x : Context) (i : Nat) :
    (w.put c x).slots[i]? =
      w.slots[i]?.map fun s => if c = .thread i then { s with ctx := some x } else s := by
  cases c with
  | main => simp [put]
  | thread j =>
    simp only [put, modifySlot, Array.getElem?_modify, Ctx.thread.injEq]
    split <;> cases w.slots[i]? <;> simp_all

theorem slots_modifySlot (w : World) (j : Nat) (f : Slot → Slot) (hf : ∀ s, Slot.Still s (f s))
    (i : Nat) : Option.Rel Slot.Still w.slots[i]? (w.modifySlot j f).slots[i]? := by
  simp only [modifySlot, Array.getElem?_modify]
  split
  · cases w.slots[i]? with
    | none => exact .none
    | some s => exact .some (hf s)
  · exact rel_refl Slot.Still.refl _

theorem slots_put_rel (w : World) (c : Ctx) (x : Context) (i : Nat) :
    Option.Rel Slot.Still w.slots[i]? (w.put c x).slots[i]? := by
  rw [slots_put_eq]
  cases w.slots[i]? with
  | none => exact .none
  | some s =>
    refine .some ?_
    split
    · exact ⟨rfl, rfl, rfl, .inl rfl⟩
    · exact Slot.Still.refl s

namespace Still

variable {w w₁ w' : World}

theorem refl (w : World) : Still w w where
  ctx _ := rel_refl Context.Still.refl _
  slots _ := rel_refl Slot.Still.refl _
  latches _ := rfl

theorem trans (h₁ : Still w w₁) (h₂ : Still w₁ w') : Still w w' where
  ctx d := rel_trans (h₁.ctx d) (h₂.ctx d) Context.Still.trans
  slots i := rel_trans (h₁.slots i) (h₂.slots i) Slot.Still.trans
  latches k := (h₂.latches k).trans (h₁.latches k)

theorem of_views (hm : w'.main = w.main) (hs : w'.slots = w.slots)
    (hl : w'.latches = w.latches) : Still w w' where
  ctx d := by
    rw [ctx?_congr hm hs]
    exact rel_refl Context.Still.refl _
  slots i := by rw [hs]; exact rel_refl Slot.Still.refl _
  latches k := by rw [hl]

theorem modifyLock (w : World) (l : LockRef) (f : LockCell → LockCell) :
    Still w (w.modifyLock l f) where
  ctx d := by
    rw [ctx?_modifyLock]
    exact rel_refl Context.Still.refl _
  slots i := by
    rw [modifyLock_slots]
    exact rel_refl Slot.Still.refl _
  latches k := by
    cases l with
    | mutex k' => rfl
    | latch k' =>
      simp only [World.modifyLock, modifyLatch, Array.getElem?_modify]
      split
      · simp only [Option.map_map, Function.comp_def]
        rfl
      · rfl

theorem modifyMutex (w : World) (m : Nat) (f : MutexCell → MutexCell) :
    Still w (w.modifyMutex m f) :=
  of_views rfl rfl rfl

/-- A change of a thread object's fields that the handshake does not read. -/
theorem modifySlot (w : World) (i : Nat) (f : Slot → Slot) (hf : ∀ s, Slot.Still s (f s))
    (hc : ∀ s, (f s).ctx = s.ctx) : Still w (w.modifySlot i f) where
  ctx d := by
    rw [ctx?_modifySlot_of_ctx w i hc]
    exact rel_refl Context.Still.refl _
  slots := slots_modifySlot w i f hf
  latches _ := rfl

theorem release (w : World) (keys : List Nat) : Still w (w.release keys) :=
  release_of_modifySlot refl (fun h₁ h₂ => h₁.trans h₂)
    (fun w i => modifySlot w i _ (fun _ => ⟨rfl, rfl, rfl, .inr rfl⟩) fun _ => rfl) w keys

theorem dropRefs (w : World) (keys : List Nat) : Still w (w.dropRefs keys) := by
  unfold World.dropRefs
  split
  · exact of_views rfl rfl rfl
  · exact refl w

/-- Putting a context in a state the handshake sees as the one it had. -/
theorem put {c : Ctx} {x x' : Context} (h : Still w w₁) (hx : w.ctx? c = some x)
    (hs : Context.Still x x') : Still w (w₁.put c x') where
  ctx := rel_ctx_put h.ctx hx hs
  slots i := rel_trans (h.slots i) (slots_put_rel w₁ c x' i) Slot.Still.trans
  latches k := by rw [put_latches]; exact h.latches k

theorem wake (w : World) (c : Ctx) : Still w (w.wake c) := by
  unfold World.wake
  split
  · rename_i x hx
    exact (refl w).put hx ⟨rfl, fun _ h => h, rfl⟩
  · exact refl w

theorem signal (w : World) (cv : CondRef) : Still w (w.signal cv) :=
  signal_of_wake refl wake w cv

theorem broadcast (w : World) (cv : CondRef) : Still w (w.broadcast cv) :=
  broadcast_of_wake refl (fun h₁ h₂ => h₁.trans h₂) wake w cv

end Still

/-- What a move of context `c` from `w` to `w'` does to the latches: none is removed, and each
keeps its count and count-downs, or takes one count-down that `c` makes as its next move, the
count falling by one and staying at `0`; a latch the move makes has had no count-down. -/
def Counts (w w' : World) (c : Ctx) : Prop :=
  w.latches.size ≤ w'.latches.size ∧ ∀ (k : Nat) (l' : LatchCell), w'.latches[k]? = some l' →
    (∃ l : LatchCell, w.latches[k]? = some l ∧
      (l'.contents = l.contents ∨
        ((∃ x rest, w.ctx? c = some x ∧ x.code = .countDown k :: rest) ∧
          l'.count = l.count - 1 ∧ l'.initial = l.initial ∧ l'.downs = l.downs + 1))) ∨
    (w.latches[k]? = none ∧ l'.downs = 0 ∧ l'.initial = l'.count)

/-- Every start handshake, as far as it has got. A started thread object `i` has a start latch
`k` and a thread. -/
structure Handshake (w : World) : Prop where
  /-- A thread object records tid `0` or its thread's. -/
  tid : ∀ (i : Nat) (s : Slot), w.slots[i]? = some s →
    s.tid = 0 ∨ ∃ y, s.ctx = some y ∧ s.tid = y.self.kernel
  /-- So is the tid published for it. -/
  published : ∀ (i : Nat) (s : Slot), w.slots[i]? = some s →
    s.published = 0 ∨ ∃ y, s.ctx = some y ∧ s.published = y.self.kernel
  /-- Only the thread of an object publishes for it. -/
  publisher : ∀ d x (i : Nat), w.ctx? d = some x → .publish i ∈ x.code → d = .thread i
  /-- A start latch exists, and no scope names it: neither a context's nor that of a function
  not yet started. -/
  hidden : ∀ (i : Nat) (s : Slot) (k : Nat), w.slots[i]? = some s → s.latch = some k →
    k < w.latches.size ∧ (∀ d x, w.ctx? d = some x → ∀ p ∈ x.scope.latches, p.2 ≠ k) ∧
      ∀ (j : Nat) (t : Slot) q, w.slots[j]? = some t → t.program = some q →
        ∀ p ∈ q.2.latches, p.2 ≠ k
  /-- Only the thread counts its start latch down. -/
  counter : ∀ (i : Nat) (s : Slot) (k : Nat), w.slots[i]? = some s → s.latch = some k →
    ∀ d x, w.ctx? d = some x → .countDown k ∈ x.code → d = .thread i
  /-- The thread moves first to publish its tid; it counts the latch down from the handshake's
  moves, and once the latch is open that is behind it. -/
  thread : ∀ (i : Nat) (s : Slot) (k : Nat), w.slots[i]? = some s → s.latch = some k →
    ∃ y, s.ctx = some y ∧ (0 < s.published ∨ ∃ name, y.code = spawnCode i k name) ∧
      (.countDown k ∈ y.code → ∃ name, y.code <:+ spawnCode i k name) ∧
      (w.count k = 0 → 0 < s.published ∧ .countDown k ∉ y.code)
  /-- While a context starts thread object `i` it takes or waits on the start latch, and it is
  past the wait only once the latch is open; it is not that object's thread. -/
  starting : ∀ d x (i : Nat), w.ctx? d = some x → .adopt i ∈ x.code → d ≠ .thread i ∧
    ∃ s k, w.slots[i]? = some s ∧ s.latch = some k ∧
      (Awaiting i k x.code ∨ (Adopting i k x.code ∧ w.count k = 0))

/-- A move of context `c` from `w` to `w'` that changes the latches only as `Counts` allows and
leaves every start handshake in order. -/
structure Tracks (w w' : World) (c : Ctx) : Prop where
  counts : Counts w w' c
  handshake : w'.Handshake

theorem Still.slot {w w' : World} (h : Still w w') {i : Nat} {s : Slot} (hs : w.slots[i]? = some s) :
    ∃ s', w'.slots[i]? = some s' ∧ s.Still s' :=
  rel_some_left (h.slots i) hs

theorem Still.slot_back {w w' : World} (h : Still w w') {i : Nat} {s' : Slot}
    (hs' : w'.slots[i]? = some s') : ∃ s, w.slots[i]? = some s ∧ s.Still s' :=
  rel_some_right (h.slots i) hs'

theorem Still.count_eq {w w' : World} (h : Still w w') (k : Nat) : w'.count k = w.count k := by
  have := h.latches k
  simp only [count]
  cases h₁ : w.latches[k]? <;> cases h₂ : w'.latches[k]? <;>
    simp_all [LatchCell.contents]

end World

namespace Context

/-- How a move in world `w` may change a context's moves, from `code` to `code'`, unseen by the
handshake: it leaves them, takes off one that publishes only a tid already published and ends
only a wait on an open latch, begins a wait again, or installs new ones where none were left,
either those that publish and adopt nothing and count down only latches the scope `scope` names,
or the starter's side of the start of a thread object on its start latch. -/
inductive Recode (w : World) (scope : List (String × Nat)) : List Op → List Op → Prop
  | same (code : List Op) : Recode w scope code code
  | pop (op : Op) (rest : List Op)
      (pub : ∀ i, op = .publish i → ∃ s, w.slots[i]? = some s ∧ 0 < s.published)
      (opens : ∀ cv k p, op = .waitWhile cv (.latch k) p → p (w.count k) = false) :
      Recode w scope (op :: rest) rest
  | expand (cv : CondRef) (l : LockRef) (p : Int → Bool) (rest : List Op) :
      Recode w scope (.waitWhile cv l p :: rest)
        ([.vacate l, .park cv l, .acquire l, .reclaim l, .waitWhile cv l p] ++ rest)
  | install (code : List Op) (pub : ∀ i, .publish i ∉ code) (adopt : ∀ i, .adopt i ∉ code)
      (count : ∀ k, .countDown k ∈ code → ∃ p ∈ scope, p.2 = k) : Recode w scope [] code
  | await (i k : Nat)
      (hk : ∃ s y, w.slots[i]? = some s ∧ s.latch = some k ∧ s.ctx = some y ∧ y.code ≠ []) :
      Recode w scope [] (World.awaitSpawnCode i k)

/-- Context `y'` comes from `y` by a move in world `w` that the handshake need not follow: the
same tid, moves changed as `Recode` allows, and a scope naming only latches `y`'s names or no
thread object's start latch. -/
structure Plain (w : World) (y y' : Context) : Prop where
  kernel : y'.self.kernel = y.self.kernel
  scope : ∀ p ∈ y'.scope.latches,
    p ∈ y.scope.latches ∨ ∀ (i : Nat) (s : Slot), w.slots[i]? = some s → s.latch ≠ some p.2
  code : Recode w y.scope.latches y.code y'.code

namespace Recode

variable {w : World} {sc : List (String × Nat)} {code code' : List Op}

theorem publish_mem (h : Recode w sc code code') {i : Nat} (hm : .publish i ∈ code') :
    .publish i ∈ code := by
  cases h with
  | same => exact hm
  | pop op rest => exact List.mem_cons_of_mem op hm
  | expand cv l p rest => simpa using hm
  | install code hpub => exact absurd hm (hpub i)
  | await => simp [World.awaitSpawnCode, Op.scoped] at hm

/-- An adoption a move leaves was there before, or the move begins the start of its thread
object. -/
theorem adopt_mem (h : Recode w sc code code') {i : Nat} (hm : .adopt i ∈ code') :
    .adopt i ∈ code ∨ ∃ k, code = [] ∧ code' = World.awaitSpawnCode i k ∧
      ∃ s y, w.slots[i]? = some s ∧ s.latch = some k ∧ s.ctx = some y ∧ y.code ≠ [] := by
  cases h with
  | same => exact .inl hm
  | pop op rest => exact .inl (List.mem_cons_of_mem op hm)
  | expand cv l p rest => exact .inl (by simpa using hm)
  | install code _ hadopt => exact absurd hm (hadopt i)
  | await j k hk =>
    obtain rfl : i = j := by simpa [World.awaitSpawnCode, Op.scoped] using hm
    exact .inr ⟨k, rfl, rfl, hk⟩

/-- A count-down a move leaves was there before or is of a latch the scope names. -/
theorem countDown_mem (h : Recode w sc code code') {k : Nat} (hm : .countDown k ∈ code') :
    .countDown k ∈ code ∨ ∃ p ∈ sc, p.2 = k := by
  cases h with
  | same => exact .inl hm
  | pop op rest => exact .inl (List.mem_cons_of_mem op hm)
  | expand cv l p rest => exact .inl (by simpa using hm)
  | install code _ _ hcount => exact .inr (hcount k hm)
  | await => simp [World.awaitSpawnCode, Op.scoped] at hm

/-- What a move may do after changes the handshake does not see, it may do before them. -/
theorem of_still {w₁ : World} {sc₁ : List (String × Nat)} (h : World.Still w w₁)
    (hsc : ∀ p ∈ sc₁, p ∈ sc) (hr : Recode w₁ sc₁ code code') : Recode w sc code code' := by
  cases hr with
  | same => exact .same _
  | pop op _ hpub hopens =>
    refine .pop op _ (fun i hi => ?_) (fun cv k p hi => ?_)
    · obtain ⟨s₁, hs₁, hp⟩ := hpub i hi
      obtain ⟨s, hs, hst⟩ := h.slot_back hs₁
      exact ⟨s, hs, hst.2.1 ▸ hp⟩
    · rw [← h.count_eq k]
      exact hopens cv k p hi
  | expand cv l p => exact .expand cv l p _
  | install _ hpub hadopt hcount =>
    exact .install _ hpub hadopt fun k hk => by
      obtain ⟨p, hp, rfl⟩ := hcount k hk
      exact ⟨p, hsc p hp, rfl⟩
  | await i k hk =>
    obtain ⟨s₁, y₁, hs₁, hl, hy₁, hne⟩ := hk
    obtain ⟨s, hs, hst⟩ := h.slot_back hs₁
    obtain ⟨y, hy, hyy⟩ := rel_some_right (h.ctx (.thread i)) (by rw [World.ctx?_of_slot hs₁, hy₁])
    rw [World.ctx?_of_slot hs] at hy
    exact .await i k ⟨s, y, hs, by rw [← hst.2.2.1]; exact hl, hy, by rw [← hyy.1]; exact hne⟩

/-- A move of a thread that has not yet published its tid publishes it, or does not move. -/
theorem spawn (hr : Recode w sc code code') {i k : Nat} {name : String}
    (hc : code = World.spawnCode i k name) :
    (∃ s, w.slots[i]? = some s ∧ 0 < s.published) ∨ code' = code := by
  cases hr with
  | same => exact .inr rfl
  | pop op _ hpub =>
    simp only [World.spawnCode, List.cons_append, List.cons.injEq] at hc
    exact .inl (hpub i hc.1)
  | expand => simp [World.spawnCode] at hc
  | install => simp [World.spawnCode] at hc
  | await => simp [World.spawnCode] at hc

/-- Within the thread's handshake a move keeps to the handshake, unless the scope names the
latch. -/
theorem suffix (hr : Recode w sc code code') {i k : Nat} {name : String}
    (hs : code <:+ World.spawnCode i k name) (hm : .countDown k ∈ code') (hn : ∀ p ∈ sc, p.2 ≠ k) :
    code' <:+ World.spawnCode i k name := by
  cases hr with
  | same => exact hs
  | pop op => exact (List.suffix_cons op _).trans hs
  | expand => exact absurd hs World.waitWhile_not_suffix_spawnCode
  | install _ _ _ hcount =>
    obtain ⟨p, hp, he⟩ := hcount k hm
    exact absurd he (hn p hp)
  | await => simp [World.awaitSpawnCode, Op.scoped] at hm

/-- A context, while it starts a thread, ends its wait only once the start latch is open. -/
theorem starting (hr : Recode w sc code code') {i k : Nat} (hm : .adopt i ∈ code')
    (hold : World.Awaiting i k code ∨ (World.Adopting i k code ∧ w.count k = 0)) :
    World.Awaiting i k code' ∨ (World.Adopting i k code' ∧ w.count k = 0) := by
  cases hr with
  | same => exact hold
  | pop op rest _ hopens =>
    rcases hold with haw | ⟨had, hcount⟩
    · rcases haw.pop with ⟨rfl, rfl⟩ | haw
      · have h0 := hopens _ k _ rfl
        simp only [decide_eq_false_iff_not] at h0
        exact .inr ⟨⟨List.suffix_refl _, hm⟩, by omega⟩
      · exact .inl haw
    · exact .inr ⟨had.pop hm, hcount⟩
  | expand =>
    rcases hold with haw | ⟨had, -⟩
    · exact .inl haw.expand
    · exact absurd had World.Adopting.not_waitWhile
  | install _ _ hadopt => exact absurd hm (hadopt i)
  | await =>
    rcases hold with ⟨pre, -, heq⟩ | ⟨had, -⟩
    · simp [World.waitTail] at heq
    · cases had.2

end Recode

namespace Plain

variable {w w₁ : World} {x x₁ x' x'' : Context}

/-- A context the handshake sees unchanged. -/
theorem of_still (hs : Still x x') : Plain w x x' :=
  ⟨hs.2.2, fun p hp => .inl (hs.2.1 p hp), by rw [hs.1]; exact .same _⟩

theorem still_plain (h : World.Still w w₁) (hs : Still x x₁) (hp : Plain w₁ x₁ x') :
    Plain w x x' where
  kernel := hp.kernel.trans hs.2.2
  scope p hp' := by
    rcases hp.scope p hp' with h' | h'
    · exact .inl (hs.2.1 p h')
    · refine .inr fun i s hsi => ?_
      obtain ⟨s₁, hs₁, hst⟩ := h.slot hsi
      rw [← hst.2.2.1]
      exact h' i s₁ hs₁
  code := hs.1 ▸ Recode.of_still h hs.2.1 hp.code

theorem still (hp : Plain w x x') (hs : Still x' x'') : Plain w x x'' :=
  ⟨hs.2.2.trans hp.kernel, fun p h => hp.scope p (hs.2.1 p h), hs.1 ▸ hp.code⟩

end Plain

end Context

namespace World

/-- A move from `w` to `w'` that the handshake need not follow: every context moves as `Plain`
says; every thread object stays `Still`, and a new one has no tid, published tid or start latch,
and a function naming only latches some scope names; and every latch keeps its count. -/
structure Plain (w w' : World) : Prop where
  ctx : ∀ d, Option.Rel (Context.Plain w) (w.ctx? d) (w'.ctx? d)
  slots : ∀ (i : Nat) (s : Slot), w.slots[i]? = some s → ∃ s', w'.slots[i]? = some s' ∧ s.Still s'
  fresh : ∀ (i : Nat) (s' : Slot), w'.slots[i]? = some s' → w.slots[i]? = none →
    s'.tid = 0 ∧ s'.published = 0 ∧ s'.latch = none ∧
      ∀ q, s'.program = some q → ∀ p ∈ q.2.latches, ∃ d y, w.ctx? d = some y ∧ p ∈ y.scope.latches
  counts : ∀ (k : Nat) (l : LatchCell), w.latches[k]? = some l →
    ∃ l', w'.latches[k]? = some l' ∧ l'.count = l.count

namespace Plain

variable {w w₁ w' : World}

/-- A move in which every thread object stays `Still` and every latch keeps its count and
count-downs. -/
theorem of_rel (hctx : ∀ d, Option.Rel (Context.Plain w) (w.ctx? d) (w'.ctx? d))
    (hs : ∀ i : Nat, Option.Rel Slot.Still w.slots[i]? w'.slots[i]?)
    (hl : ∀ k : Nat,
      (w'.latches[k]?).map LatchCell.contents = (w.latches[k]?).map LatchCell.contents) :
    Plain w w' where
  ctx := hctx
  slots i _ h := rel_some_left (hs i) h
  fresh i s' hs' hn := by
    have := hs i
    rw [hs', hn] at this
    exact absurd this Option.not_rel_none_some
  counts k l hl' := by
    have := hl k
    rw [hl'] at this
    cases h' : w'.latches[k]? with
    | none => simp [h'] at this
    | some l' =>
      simp only [h', Option.map_some, Option.some.injEq, LatchCell.contents, Prod.mk.injEq] at this
      exact ⟨l', rfl, this.1⟩

theorem of_still (h : Still w w') : Plain w w' := by
  refine of_rel (fun d => ?_) h.slots h.latches
  have := h.ctx d
  cases h₁ : w.ctx? d <;> cases h₂ : w'.ctx? d <;> rw [h₁, h₂] at this
  · exact .none
  · exact absurd this Option.not_rel_none_some
  · exact absurd this Option.not_rel_some_none
  · exact .some (.of_still (Option.rel_some_some.mp this))

/-- A move of context `c` from `x` to `x'` between changes the handshake does not see. -/
theorem put {c : Ctx} {x x' : Context} (h₁ : Still w w₁) (hx : w.ctx? c = some x)
    (hp : Context.Plain w₁ x x') (h₂ : Still (w₁.put c x') w') : Plain w w' := by
  refine of_rel (fun d => ?_)
    (fun i => rel_trans (rel_trans (h₁.slots i) (slots_put_rel w₁ c x' i) Slot.Still.trans)
      (h₂.slots i) Slot.Still.trans)
    (fun k => by rw [h₂.latches k, put_latches, h₁.latches k])
  by_cases hd : d = c
  · subst hd
    obtain ⟨x₁, hx₁, -⟩ := rel_some_left (h₁.ctx d) hx
    have hput : (w₁.put d x').ctx? d = some x' := ctx_put_self _ _ _ (by simp [hx₁])
    obtain ⟨x'', hx'', hs''⟩ := rel_some_left (h₂.ctx d) hput
    rw [hx, hx'']
    exact .some ((Context.Plain.still_plain h₁ (.refl x) hp).still hs'')
  · have h₁d := h₁.ctx d
    have h₂d := h₂.ctx d
    rw [ctx?_put_ne _ _ hd] at h₂d
    have := rel_trans h₁d h₂d Context.Still.trans
    cases h₃ : w.ctx? d <;> cases h₄ : w'.ctx? d <;> rw [h₃, h₄] at this
    · exact .none
    · exact absurd this Option.not_rel_none_some
    · exact absurd this Option.not_rel_some_none
    · exact .some (.of_still (Option.rel_some_some.mp this))

theorem ctx_back (h : Plain w w') {d : Ctx} {y' : Context} (hy' : w'.ctx? d = some y') :
    ∃ y, w.ctx? d = some y ∧ Context.Plain w y y' :=
  rel_some_right (h.ctx d) hy'

theorem ctx_fwd (h : Plain w w') {d : Ctx} {y : Context} (hy : w.ctx? d = some y) :
    ∃ y', w'.ctx? d = some y' ∧ Context.Plain w y y' :=
  rel_some_left (h.ctx d) hy

theorem slot_back (h : Plain w w') {i : Nat} {s' : Slot} (hs' : w'.slots[i]? = some s') :
    (∃ s, w.slots[i]? = some s ∧ s.Still s') ∨
      (w.slots[i]? = none ∧ s'.tid = 0 ∧ s'.published = 0 ∧ s'.latch = none ∧
        ∀ q, s'.program = some q → ∀ p ∈ q.2.latches,
          ∃ d y, w.ctx? d = some y ∧ p ∈ y.scope.latches) := by
  cases hs : w.slots[i]? with
  | none => exact .inr ⟨rfl, h.fresh i s' hs' hs⟩
  | some s =>
    obtain ⟨s'', hs'', hst⟩ := h.slots i s hs
    rw [hs'] at hs''
    cases hs''
    exact .inl ⟨s, rfl, hst⟩

/-- A thread object with a start latch after the move had it before. -/
theorem latch_slot (h : Plain w w') {i k : Nat} {s' : Slot} (hs' : w'.slots[i]? = some s')
    (hk : s'.latch = some k) : ∃ s, w.slots[i]? = some s ∧ s.Still s' ∧ s.latch = some k := by
  rcases h.slot_back hs' with ⟨s, hs, hst⟩ | ⟨-, -, -, hn, -⟩
  · exact ⟨s, hs, hst, hst.2.2.1 ▸ hk⟩
  · rw [hn] at hk
    cases hk

theorem lt_size (h : Plain w w') {k : Nat} (hk : k < w.latches.size) : k < w'.latches.size := by
  obtain ⟨l', hl', -⟩ := h.counts k w.latches[k] (Array.getElem?_eq_getElem hk)
  exact (Array.getElem?_eq_some_iff.mp hl').1

theorem count_eq (h : Plain w w') {k : Nat} (hk : k < w.latches.size) :
    w'.count k = w.count k := by
  obtain ⟨l', hl', hc⟩ := h.counts k w.latches[k] (Array.getElem?_eq_getElem hk)
  simp [count, hl', hc, Array.getElem?_eq_getElem hk]

end Plain

/-- A move the handshake need not follow keeps every handshake in order. -/
theorem Handshake.plain {w w' : World} (hh : w.Handshake) (h : w.Plain w') : w'.Handshake where
  tid i s' hs' := by
    rcases h.slot_back hs' with ⟨s, hs, hst⟩ | ⟨-, htid, -⟩
    · rcases hh.tid i s hs with h0 | ⟨y, hy, ht⟩
      · exact .inl (hst.1.trans h0)
      · obtain ⟨y', hy', hp⟩ := h.ctx_fwd (d := .thread i) (by rw [ctx?_of_slot hs, hy])
        rw [ctx?_of_slot hs'] at hy'
        exact .inr ⟨y', hy', by rw [hst.1, ht, hp.kernel]⟩
    · exact .inl htid
  published i s' hs' := by
    rcases h.slot_back hs' with ⟨s, hs, hst⟩ | ⟨-, -, hpub, -⟩
    · rcases hh.published i s hs with h0 | ⟨y, hy, ht⟩
      · exact .inl (hst.2.1.trans h0)
      · obtain ⟨y', hy', hp⟩ := h.ctx_fwd (d := .thread i) (by rw [ctx?_of_slot hs, hy])
        rw [ctx?_of_slot hs'] at hy'
        exact .inr ⟨y', hy', by rw [hst.2.1, ht, hp.kernel]⟩
    · exact .inl hpub
  publisher d x' i hx' hm := by
    obtain ⟨x, hx, hp⟩ := h.ctx_back hx'
    exact hh.publisher d x i hx (hp.code.publish_mem hm)
  hidden i s' k hs' hk := by
    obtain ⟨s, hs, -, hk₀⟩ := h.latch_slot hs' hk
    obtain ⟨hlt, hctx, hprog⟩ := hh.hidden i s k hs hk₀
    refine ⟨h.lt_size hlt, fun d y' hy' p hp => ?_, fun j t' q ht' hq p hp => ?_⟩
    · obtain ⟨y, hy, hpl⟩ := h.ctx_back hy'
      rcases hpl.scope p hp with hp | hfresh
      · exact hctx d y hy p hp
      · exact fun he => hfresh i s hs (he ▸ hk₀)
    · rcases h.slot_back ht' with ⟨t, ht, htst⟩ | ⟨-, -, -, -, hnew⟩
      · rcases htst.2.2.2 with hq' | hq'
        · exact hprog j t q ht (hq' ▸ hq) p hp
        · rw [hq'] at hq
          cases hq
      · obtain ⟨d, y, hy, hpy⟩ := hnew q hq p hp
        exact hctx d y hy p hpy
  counter i s' k hs' hk d x' hx' hm := by
    obtain ⟨s, hs, -, hk₀⟩ := h.latch_slot hs' hk
    obtain ⟨x, hx, hp⟩ := h.ctx_back hx'
    rcases hp.code.countDown_mem hm with hm | ⟨p, hp', he⟩
    · exact hh.counter i s k hs hk₀ d x hx hm
    · exact absurd he ((hh.hidden i s k hs hk₀).2.1 d x hx p hp')
  thread i s' k hs' hk := by
    obtain ⟨s, hs, hst, hk₀⟩ := h.latch_slot hs' hk
    obtain ⟨y, hy, hpub, hsuf, hopen⟩ := hh.thread i s k hs hk₀
    have hy₀ : w.ctx? (.thread i) = some y := by rw [ctx?_of_slot hs, hy]
    obtain ⟨y', hy', hp⟩ := h.ctx_fwd hy₀
    rw [ctx?_of_slot hs'] at hy'
    have hn := (hh.hidden i s k hs hk₀).2.1 _ y hy₀
    have hcd : .countDown k ∈ y'.code → .countDown k ∈ y.code := fun hm =>
      (hp.code.countDown_mem hm).resolve_right fun ⟨p, hp', he⟩ => hn p hp' he
    rw [hst.2.1]
    refine ⟨y', hy', ?_, fun hm => ?_, fun h0 => ?_⟩
    · rcases hpub with hpos | ⟨name, hcode⟩
      · exact .inl hpos
      · rcases hp.code.spawn hcode with ⟨s₀, hs₀, hpos⟩ | hsame
        · rw [hs] at hs₀
          cases hs₀
          exact .inl hpos
        · exact .inr ⟨name, hsame.trans hcode⟩
    · obtain ⟨name, hs⟩ := hsuf (hcd hm)
      exact ⟨name, hp.code.suffix hs hm hn⟩
    · have hlt := (hh.hidden i s k hs hk₀).1
      obtain ⟨hpos, hnot⟩ := hopen (by rw [← h.count_eq hlt]; exact h0)
      exact ⟨hpos, fun hm => hnot (hcd hm)⟩
  starting d x' i hx' hm := by
    obtain ⟨x, hx, hp⟩ := h.ctx_back hx'
    rcases hp.code.adopt_mem hm with hm₀ | ⟨k, hcode₀, hcode', s, y, hs, hk, hy, hne⟩
    · obtain ⟨hd, s, k, hs, hk, hold⟩ := hh.starting d x i hx hm₀
      obtain ⟨s', hs', hst⟩ := h.slots i s hs
      have hlt := (hh.hidden i s k hs hk).1
      refine ⟨hd, s', k, hs', hst.2.2.1.trans hk, ?_⟩
      rw [h.count_eq hlt]
      exact hp.code.starting hm hold
    · -- a start that begins waits on its start latch, and is not made by the object's thread,
      have hd : d ≠ .thread i := by
        rintro rfl
        rw [ctx?_of_slot hs, hy] at hx
        cases hx
        exact hne hcode₀
      obtain ⟨s', hs', hst⟩ := h.slots i s hs
      refine ⟨hd, s', k, hs', hst.2.2.1.trans hk, .inl ⟨_, .inl (List.suffix_refl _), ?_⟩⟩
      rw [hcode', awaitSpawnCode_eq]


namespace Plain

variable {w w' : World}

/-- A latch's count-downs and lock are not what the handshake reads. -/
theorem modifyLatch (h : Plain w w') (k : Nat) (f : LatchCell → LatchCell)
    (hf : ∀ l, (f l).count = l.count) : Plain w (w'.modifyLatch k f) where
  ctx := h.ctx
  slots := h.slots
  fresh := h.fresh
  counts k' l hl := by
    obtain ⟨l', hl', hc⟩ := h.counts k' l hl
    simp only [World.modifyLatch, Array.getElem?_modify, hl']
    split
    · exact ⟨f l', rfl, (hf l').trans hc⟩
    · exact ⟨l', rfl, hc⟩

theorem pushLatch (h : Plain w w') (l : LatchCell) :
    Plain w { w' with latches := w'.latches.push l } where
  ctx := h.ctx
  slots := h.slots
  fresh := h.fresh
  counts k l₀ hl := by
    obtain ⟨l', hl', hc⟩ := h.counts k l₀ hl
    refine ⟨l', ?_, hc⟩
    rw [Array.getElem?_push, if_neg (Nat.ne_of_lt (Array.getElem?_eq_some_iff.mp hl').1), hl']

theorem pushSlot (h : Plain w w') (s : Slot) (n : Nat) (hs : s.tid = 0 ∧ s.published = 0 ∧
      s.latch = none ∧ s.ctx = none)
    (hp : ∀ q, s.program = some q → ∀ p ∈ q.2.latches,
      ∃ d y, w.ctx? d = some y ∧ p ∈ y.scope.latches) :
    Plain w { w' with slots := w'.slots.push s, created := n } := by
  refine ⟨fun d => ?_, fun i s₀ hs₀ => ?_, fun i s' hs' hn => ?_, h.counts⟩
  · rw [ctx?_pushSlot _ _ hs.2.2.2]
    exact h.ctx d
  · obtain ⟨s', hs', hst⟩ := h.slots i s₀ hs₀
    refine ⟨s', ?_, hst⟩
    rw [Array.getElem?_push, if_neg (Nat.ne_of_lt (Array.getElem?_eq_some_iff.mp hs').1), hs']
  · simp only [Array.getElem?_push] at hs'
    split at hs'
    · cases hs'
      exact ⟨hs.1, hs.2.1, hs.2.2.1, hp⟩
    · exact h.fresh i s' hs' hn

end Plain

/-- A change of the tids thread object `i` records, each still `0` or its thread's, that takes no
published tid back. -/
theorem Handshake.modifySlot {w : World} (hh : w.Handshake) (i : Nat) (f : Slot → Slot)
    (hf : ∀ s, (f s).ctx = s.ctx ∧ (f s).latch = s.latch ∧ (f s).program = s.program)
    (htid : ∀ s, w.slots[i]? = some s →
      (f s).tid = 0 ∨ ∃ y, s.ctx = some y ∧ (f s).tid = y.self.kernel)
    (hpub : ∀ s, w.slots[i]? = some s →
      ((f s).published = 0 ∨ ∃ y, s.ctx = some y ∧ (f s).published = y.self.kernel) ∧
        (0 < s.published → 0 < (f s).published)) :
    (w.modifySlot i f).Handshake := by
  have hctx : ∀ d, (w.modifySlot i f).ctx? d = w.ctx? d :=
    ctx?_modifySlot_of_ctx w i fun s => (hf s).1
  have hslot : ∀ j s', (w.modifySlot i f).slots[j]? = some s' →
      ∃ s, w.slots[j]? = some s ∧ ((i = j ∧ s' = f s) ∨ s' = s) := by
    intro j s' hs'
    simp only [World.modifySlot, Array.getElem?_modify] at hs'
    split at hs'
    · obtain ⟨s, hs, rfl⟩ := Option.map_eq_some_iff.mp hs'
      exact ⟨s, hs, .inl ⟨‹_›, rfl⟩⟩
    · exact ⟨s', hs', .inr rfl⟩
  have hsame : ∀ j s s', w.slots[j]? = some s → ((i = j ∧ s' = f s) ∨ s' = s) →
      s'.ctx = s.ctx ∧ s'.latch = s.latch ∧ s'.program = s.program ∧
        (0 < s.published → 0 < s'.published) := by
    rintro j s s' hs (⟨rfl, rfl⟩ | rfl)
    · exact ⟨(hf s).1, (hf s).2.1, (hf s).2.2, (hpub s hs).2⟩
    · exact ⟨rfl, rfl, rfl, id⟩
  have hfwd : ∀ j s, w.slots[j]? = some s →
      ∃ s', (w.modifySlot i f).slots[j]? = some s' ∧ ((i = j ∧ s' = f s) ∨ s' = s) := by
    intro j s hs
    simp only [World.modifySlot, Array.getElem?_modify, hs]
    split
    · exact ⟨f s, rfl, .inl ⟨‹_›, rfl⟩⟩
    · exact ⟨s, rfl, .inr rfl⟩
  have hcount : ∀ k, (w.modifySlot i f).count k = w.count k := fun _ => rfl
  constructor
  · intro j s' hs'
    obtain ⟨s, hs, hw⟩ := hslot j s' hs'
    rcases hw with ⟨rfl, rfl⟩ | rfl
    · rw [(hf s).1]
      exact htid s hs
    · exact hh.tid j s' hs
  · intro j s' hs'
    obtain ⟨s, hs, hw⟩ := hslot j s' hs'
    rcases hw with ⟨rfl, rfl⟩ | rfl
    · rw [(hf s).1]
      exact (hpub s hs).1
    · exact hh.published j s' hs
  · intro d x j hx hm
    rw [hctx] at hx
    exact hh.publisher d x j hx hm
  · intro j s' k hs' hk
    obtain ⟨s, hs, hw⟩ := hslot j s' hs'
    obtain ⟨-, hl, -⟩ := hsame j s s' hs hw
    obtain ⟨hlt, hc, hp⟩ := hh.hidden j s k hs (hl ▸ hk)
    refine ⟨hlt, fun d x hx => hc d x (by rwa [hctx] at hx), fun j' t' q ht' hq => ?_⟩
    obtain ⟨t, ht, hw'⟩ := hslot j' t' ht'
    obtain ⟨-, -, hpr, -⟩ := hsame j' t t' ht hw'
    exact hp j' t q ht (hpr ▸ hq)
  · intro j s' k hs' hk d x hx hm
    obtain ⟨s, hs, hw⟩ := hslot j s' hs'
    obtain ⟨-, hl, -⟩ := hsame j s s' hs hw
    rw [hctx] at hx
    exact hh.counter j s k hs (hl ▸ hk) d x hx hm
  · intro j s' k hs' hk
    obtain ⟨s, hs, hw⟩ := hslot j s' hs'
    obtain ⟨hc, hl, -, hmono⟩ := hsame j s s' hs hw
    obtain ⟨y, hy, hpub', hsuf, hopen⟩ := hh.thread j s k hs (hl ▸ hk)
    refine ⟨y, hc.trans hy, hpub'.imp_left hmono, hsuf, fun h0 => ?_⟩
    obtain ⟨hpos, hnot⟩ := hopen (by rwa [hcount] at h0)
    exact ⟨hmono hpos, hnot⟩
  · intro d x j hx hm
    rw [hctx] at hx
    obtain ⟨hd, s, k, hs, hk, hold⟩ := hh.starting d x j hx hm
    obtain ⟨s', hs', hw⟩ := hfwd j s hs
    obtain ⟨-, hl, -⟩ := hsame j s s' hs hw
    exact ⟨hd, s', k, hs', hl.trans hk, hold⟩

theorem count_modifyLatch (w : World) (k k' : Nat) (f : LatchCell → LatchCell) :
    (w.modifyLatch k f).count k' =
      if k = k' then ((w.latches[k']?).map fun l => (f l).count).getD 0 else w.count k' := by
  simp only [count, modifyLatch, Array.getElem?_modify]
  split
  · cases w.latches[k']? <;> rfl
  · rfl

/-- Setting the count of latch `k` to `n`, a count that stays `0` once it is: a start latch that
opens has its thread's count-down behind it. -/
theorem Handshake.setCount {w : World} (hh : w.Handshake) (k n : Nat)
    (hdec : w.count k = 0 → n = 0)
    (hopen : n = 0 → ∀ (i : Nat) (s : Slot), w.slots[i]? = some s → s.latch = some k →
      0 < s.published ∧ ∀ y, s.ctx = some y → .countDown k ∉ y.code) :
    (w.modifyLatch k fun l => { l with count := n }).Handshake := by
  have hctx : ∀ d, (w.modifyLatch k fun l => { l with count := n }).ctx? d = w.ctx? d := by
    intro d
    cases d <;> rfl
  -- a count that becomes `0` was `0` or is set to `0`
  have hzero : ∀ k', (w.modifyLatch k fun l => { l with count := n }).count k' = 0 →
      w.count k' = 0 ∨ (k' = k ∧ n = 0) := by
    intro k' h0
    rw [count_modifyLatch] at h0
    split at h0
    · subst k'
      cases hl : w.latches[k]? with
      | none => exact .inl (by simp [count, hl])
      | some l => exact .inr ⟨rfl, by simpa [hl] using h0⟩
    · exact .inl h0
  have hstay : ∀ k', w.count k' = 0 →
      (w.modifyLatch k fun l => { l with count := n }).count k' = 0 := by
    intro k' h0
    rw [count_modifyLatch]
    split
    · subst k'
      cases hl : w.latches[k]? with
      | none => rfl
      | some l => simp [hdec h0]
    · exact h0
  have hsize : (w.modifyLatch k fun l => { l with count := n }).latches.size = w.latches.size :=
    Array.size_modify
  constructor
  · exact hh.tid
  · exact hh.published
  · intro d x i hx hm
    rw [hctx] at hx
    exact hh.publisher d x i hx hm
  · intro i s k' hs hk
    obtain ⟨hlt, hc, hp⟩ := hh.hidden i s k' hs hk
    exact ⟨hsize ▸ hlt, fun d x hx => hc d x (by rwa [hctx] at hx), hp⟩
  · intro i s k' hs hk d x hx hm
    rw [hctx] at hx
    exact hh.counter i s k' hs hk d x hx hm
  · intro i s k' hs hk
    obtain ⟨y, hy, hpub, hsuf, hopen'⟩ := hh.thread i s k' hs hk
    refine ⟨y, hy, hpub, hsuf, fun h0 => ?_⟩
    rcases hzero k' h0 with h0 | ⟨rfl, hn⟩
    · exact hopen' h0
    · obtain ⟨hpos, hnot⟩ := hopen hn i s hs hk
      exact ⟨hpos, hnot y hy⟩
  · intro d x i hx hm
    rw [hctx] at hx
    obtain ⟨hd, s, k', hs, hk, hold⟩ := hh.starting d x i hx hm
    exact ⟨hd, s, k', hs, hk, hold.imp_right fun ⟨had, h0⟩ => ⟨had, hstay k' h0⟩⟩

/-- Thread object `i`, not yet started, gets its thread `t` with the handshake's moves on a new
latch and a scope from the object's function; its starter has not yet moved. -/
theorem Handshake.spawn {w : World} (hs : w.Sound) (hh : w.Handshake) {i : Nat} {s : Slot}
    (hsl : w.slots[i]? = some s) (hst : s.started = false) (t : Context)
    (ht : t.code = spawnCode i w.latches.size s.name)
    (hsc : ∀ p ∈ t.scope.latches, ∃ q, s.program = some q ∧ p ∈ q.2.latches) :
    (({ w with latches := w.latches.push { count := 1 }, nextTid := w.nextTid + 1 } :
      World).modifySlot i fun s => { s with started := true, program := none, ctx := some t,
                                            latch := some w.latches.size, handle := true }).Handshake := by
  generalize hk : w.latches.size = h at ht
  generalize hg : (fun s : Slot => { s with started := true, program := none, ctx := some t,
                                            latch := some h, handle := true }) = g
  have hgs : ∀ s, (g s).ctx = some t ∧ (g s).latch = some h ∧ (g s).program = none ∧
      (g s).tid = s.tid ∧ (g s).published = s.published := by
    subst hg
    simp
  generalize hW : (({ w with latches := w.latches.push { count := 1 }, nextTid := w.nextTid + 1 } :
    World).modifySlot i g) = W
  have hnone : s.ctx = none := by
    cases hc : s.ctx with
    | none => rfl
    | some _ =>
      have := hs.started i s hsl (by simp [hc])
      rw [hst] at this
      cases this
  -- an object not yet started has no start latch, which only a start gives
  have hnolatch : s.latch = none := by
    cases hl : s.latch with
    | none => rfl
    | some k =>
      obtain ⟨y, hy, -⟩ := hh.thread i s k hsl hl
      rw [hnone] at hy
      cases hy
  have hslot : ∀ j, W.slots[j]? = if i = j then some (g s) else w.slots[j]? := by
    intro j
    subst hW
    simp only [World.modifySlot, Array.getElem?_modify]
    split
    · subst j
      simp [hsl]
    · rfl
  have hcount : ∀ k, k < h → W.count k = w.count k := by
    intro k hkh
    subst hW hk
    simp [World.count, World.modifySlot, Array.getElem?_push, Nat.ne_of_lt hkh]
  have hcount_h : W.count h = 1 := by
    subst hW hk
    simp [World.count, World.modifySlot]
  have hsize : W.latches.size = h + 1 := by
    subst hW hk
    simp [World.modifySlot]
  have hwithin : ∀ d z, w.ctx? d = some z → ∀ p ∈ z.scope.latches, p.2 < h := fun d z hz p hp =>
    hk ▸ (hs.scope d z hz).2 p hp
  have hprog : ∀ (j : Nat) (t' : Slot) q, w.slots[j]? = some t' → t'.program = some q →
      ∀ p ∈ q.2.latches, p.2 < h := fun j t' q ht' hq p hp =>
    hk ▸ (hs.programs j t' q ht' hq).2 p hp
  have hctx : ∀ d z, W.ctx? d = some z → (d = .thread i ∧ z = t) ∨
      (d ≠ .thread i ∧ w.ctx? d = some z) := by
    intro d z hz
    by_cases hd : d = .thread i
    · subst hd
      have : t = z := by simpa [ctx?, hslot, (hgs s).1] using hz
      exact .inl ⟨rfl, this.symm⟩
    · subst hW
      rw [ctx?_modifySlot_ne _ _ hd] at hz
      exact .inr ⟨hd, hz⟩
  have hslot' : ∀ j s', W.slots[j]? = some s' →
      (i = j ∧ s' = g s) ∨ (i ≠ j ∧ w.slots[j]? = some s') := by
    intro j s' hs'
    rw [hslot] at hs'
    split at hs'
    · exact .inl ⟨‹_›, (Option.some.inj hs').symm⟩
    · exact .inr ⟨‹_›, hs'⟩
  obtain ⟨hgc, hgl, hgp, hgt, hgpub⟩ := hgs s
  have hlatch : ∀ j s' k, W.slots[j]? = some s' → s'.latch = some k →
      (i = j ∧ s' = g s ∧ k = h) ∨ (i ≠ j ∧ w.slots[j]? = some s' ∧ k < h) := by
    intro j s' k hs' hks
    rcases hslot' j s' hs' with ⟨hij, rfl⟩ | ⟨hij, hs'⟩
    · rw [hgl] at hks
      exact .inl ⟨hij, rfl, (Option.some.inj hks).symm⟩
    · exact .inr ⟨hij, hs', hk ▸ (hh.hidden j s' k hs' hks).1⟩
  constructor
  · intro j s' hs'
    rcases hslot' j s' hs' with ⟨-, rfl⟩ | ⟨-, hs'⟩
    · rcases hh.tid i s hsl with h0 | ⟨_, hc, -⟩
      · exact .inl (hgt.trans h0)
      · rw [hnone] at hc
        cases hc
    · exact hh.tid j s' hs'
  · intro j s' hs'
    rcases hslot' j s' hs' with ⟨-, rfl⟩ | ⟨-, hs'⟩
    · rcases hh.published i s hsl with h0 | ⟨_, hc, -⟩
      · exact .inl (hgpub.trans h0)
      · rw [hnone] at hc
        cases hc
    · exact hh.published j s' hs'
  · intro d z j hz hm
    rcases hctx d z hz with ⟨rfl, rfl⟩ | ⟨-, hz⟩
    · rw [ht] at hm
      simp [spawnCode, Op.scoped] at hm
      rw [hm]
    · exact hh.publisher d z j hz hm
  · intro j s' k hs' hks
    rcases hlatch j s' k hs' hks with ⟨-, -, rfl⟩ | ⟨-, hs', hkh⟩
    · refine ⟨by omega, fun d z hz p hp => ?_, fun j' t' q ht' hq p hp => ?_⟩
      · rcases hctx d z hz with ⟨-, rfl⟩ | ⟨-, hz⟩
        · obtain ⟨q, hq, hpq⟩ := hsc p hp
          exact Nat.ne_of_lt (hprog i s q hsl hq p hpq)
        · exact Nat.ne_of_lt (hwithin d z hz p hp)
      · rcases hslot' j' t' ht' with ⟨-, rfl⟩ | ⟨-, ht'⟩
        · rw [hgp] at hq
          cases hq
        · exact Nat.ne_of_lt (hprog j' t' q ht' hq p hp)
    · obtain ⟨-, hc, hp⟩ := hh.hidden j s' k hs' hks
      refine ⟨by omega, fun d z hz p hpz => ?_, fun j' t' q ht' hq p hpq => ?_⟩
      · rcases hctx d z hz with ⟨-, rfl⟩ | ⟨-, hz⟩
        · obtain ⟨q, hq, hpq⟩ := hsc p hpz
          exact hp i s q hsl hq p hpq
        · exact hc d z hz p hpz
      · rcases hslot' j' t' ht' with ⟨-, rfl⟩ | ⟨-, ht'⟩
        · rw [hgp] at hq
          cases hq
        · exact hp j' t' q ht' hq p hpq
  · intro j s' k hs' hks d z hz hm
    rcases hlatch j s' k hs' hks with ⟨rfl, -, rfl⟩ | ⟨-, hs', hkh⟩
    · rcases hctx d z hz with ⟨rfl, rfl⟩ | ⟨-, hz⟩
      · rfl
      · -- another context's count-down is of a latch there was
        have := hs.code d z hz _ hm (.latch _) rfl
        rw [lock?_isSome_iff] at this
        omega
    · rcases hctx d z hz with ⟨rfl, rfl⟩ | ⟨-, hz⟩
      · rw [ht] at hm
        simp [spawnCode, Op.scoped] at hm
        omega
      · exact hh.counter j s' k hs' hks d z hz hm
  · intro j s' k hs' hks
    rcases hlatch j s' k hs' hks with ⟨rfl, rfl, rfl⟩ | ⟨-, hs', hkh⟩
    · refine ⟨t, hgc, .inr ⟨s.name, ht⟩, fun _ => ⟨s.name, ht ▸ List.suffix_refl _⟩, ?_⟩
      rw [hcount_h]
      exact fun h => absurd h Nat.one_ne_zero
    · obtain ⟨z, hz, hpub, hsuf, hopen⟩ := hh.thread j s' k hs' hks
      refine ⟨z, hz, hpub, hsuf, fun h0 => hopen ?_⟩
      rwa [hcount k hkh] at h0
  · intro d z j hz hm
    rcases hctx d z hz with ⟨rfl, rfl⟩ | ⟨-, hz⟩
    · rw [ht] at hm
      simp [spawnCode, Op.scoped] at hm
    · obtain ⟨hd, s₀, k, hs₀, hk₀, hold⟩ := hh.starting d z j hz hm
      have hij : i ≠ j := by
        rintro rfl
        rw [hsl] at hs₀
        cases hs₀
        rw [hnolatch] at hk₀
        cases hk₀
      have hkh : k < h := hk ▸ (hh.hidden j s₀ k hs₀ hk₀).1
      refine ⟨hd, s₀, k, by rw [hslot, if_neg hij]; exact hs₀, hk₀, ?_⟩
      rw [hcount k hkh]
      exact hold

/-- Context `c` starts thread object `i`, not yet started: the thread `t` gets the handshake's
moves on a new latch and a scope from the object's function, and `c` the starter's side. -/
theorem Handshake.start {w : World} (hs : w.Sound) (hh : w.Handshake) {c : Ctx} {x y : Context}
    {i : Nat} {s : Slot} (hx : w.ctx? c = some x) (hcode : x.code = []) (hy : Context.Still x y)
    (hsl : w.slots[i]? = some s) (hst : s.started = false) (t : Context)
    (ht : t.code = spawnCode i w.latches.size s.name)
    (hsc : ∀ p ∈ t.scope.latches, ∃ q, s.program = some q ∧ p ∈ q.2.latches) :
    ((({ w with latches := w.latches.push { count := 1 }, nextTid := w.nextTid + 1 } :
      World).modifySlot i fun s => { s with started := true, program := none, ctx := some t,
                                            latch := some w.latches.size, handle := true }).install
        c y (awaitSpawnCode i w.latches.size)).Handshake := by
  have h₀ := hh.spawn hs hsl hst t ht hsc
  have hx₀ : (({ w with latches := w.latches.push { count := 1 }, nextTid := w.nextTid + 1 } :
      World).modifySlot i fun s => { s with started := true, program := none, ctx := some t,
                                            latch := some w.latches.size, handle := true }).ctx? c =
      some x := by
    rw [ctx?_modifySlot_ne _ _ (hs.starter_ne hx hsl hst)]
    exact hx
  refine h₀.plain (Plain.put (.refl _) hx₀ ?_ (.refl _))
  refine ⟨hy.2.2, fun p hp => .inl (hy.2.1 p hp), ?_⟩
  rw [hcode]
  exact .await i _ ⟨{ s with started := true, program := none, ctx := some t,
                             latch := some w.latches.size, handle := true }, t,
    by simp [World.modifySlot, Array.getElem?_modify, hsl], rfl, rfl, by simp [ht, spawnCode]⟩

/-! ### Every move -/

namespace Counts

variable {w w' : World} {c : Ctx}

/-- An array that agrees with `a`, through `f` and `g k` at index `k`, at every index is as long. -/
theorem size_le_of_map {α β : Type} {a b : Array α} {f : α → β} {g : Nat → α → β}
    (h : ∀ k : Nat, (b[k]?).map f = (a[k]?).map (g k)) : a.size ≤ b.size := by
  by_contra hlt
  have := h b.size
  rw [Array.getElem?_eq_none (Nat.le_refl _), Array.getElem?_eq_getElem (by omega)] at this
  simp at this

theorem of_contents (h : ∀ k : Nat,
    (w'.latches[k]?).map LatchCell.contents = (w.latches[k]?).map LatchCell.contents) :
    Counts w w' c := by
  refine ⟨size_le_of_map h, fun k l' hl' => ?_⟩
  have := h k
  rw [hl'] at this
  cases hl : w.latches[k]? with
  | none =>
    rw [hl] at this
    cases this
  | some l =>
    rw [hl] at this
    exact .inl ⟨l, rfl, .inl (Option.some.inj this)⟩

/-- A new latch, pushed at the end, has had no count-down. -/
theorem push {n : Nat} (h : w'.latches = w.latches.push { count := n }) : Counts w w' c := by
  refine ⟨by simp [h], fun k l' hl' => ?_⟩
  rw [h, Array.getElem?_push] at hl'
  split at hl'
  · subst k
    cases hl'
    exact .inr ⟨Array.getElem?_eq_none (Nat.le_refl _), rfl, rfl⟩
  · exact .inl ⟨l', hl', .inl rfl⟩

/-- A count-down takes one off its own latch, down to `0`, and counts itself there. -/
theorem countDown {x : Context} {k : Nat} {rest : List Op} (hx : w.ctx? c = some x)
    (hcode : x.code = .countDown k :: rest)
    (h : ∀ k' : Nat, (w'.latches[k']?).map LatchCell.contents = (w.latches[k']?).map fun l =>
      if k = k' then (l.count - 1, l.initial, l.downs + 1) else l.contents) :
    Counts w w' c := by
  refine ⟨size_le_of_map h, fun k' l' hl' => ?_⟩
  have := h k'
  rw [hl'] at this
  cases hl : w.latches[k']? with
  | none =>
    rw [hl] at this
    cases this
  | some l =>
    rw [hl] at this
    replace this := Option.some.inj this
    refine .inl ⟨l, rfl, ?_⟩
    split at this
    · subst k'
      simp only [LatchCell.contents, Prod.mk.injEq] at this
      exact .inr ⟨⟨x, rest, hx, hcode⟩, this.1, this.2.1, this.2.2⟩
    · exact .inl this

end Counts

theorem latches_modifyLatch (w : World) (k k' : Nat) (f : LatchCell → LatchCell) :
    (w.modifyLatch k f).latches[k']? =
      if k = k' then (w.latches[k']?).map f else w.latches[k']? :=
  Array.getElem?_modify

theorem count_of_latch {w : World} {k : Nat} {l : LatchCell} (hl : w.latches[k]? = some l) :
    w.count k = l.count := by
  simp [count, hl]

theorem put_modifySlot_comm (w : World) (i : Nat) (y : Context) (f : Slot → Slot)
    (hf : ∀ s, f { s with ctx := some y } = { f s with ctx := some y }) :
    (w.put (.thread i) y).modifySlot i f = (w.modifySlot i f).put (.thread i) y := by
  simp only [put, World.modifySlot]
  congr 1
  apply Array.ext_getElem?
  intro j
  simp only [Array.getElem?_modify]
  split
  · cases w.slots[j]? <;> simp [hf]
  · rfl

namespace Tracks

variable {w w₁ w' : World} {c : Ctx} {x x' : Context}

/-- A move the handshake need not follow, between changes it does not see. -/
theorem plain (hh : w.Handshake) (h₂ : Still (w₁.put c x') w') (h₁ : Still w w₁)
    (hx : w.ctx? c = some x) (hp : Context.Plain w₁ x x') : Tracks w w' c :=
  ⟨Counts.of_contents fun k => by rw [h₂.latches k, put_latches, h₁.latches k],
    hh.plain (Plain.put h₁ hx hp h₂)⟩

theorem still (hh : w.Handshake) (h : Still w w') : Tracks w w' c :=
  ⟨Counts.of_contents h.latches, hh.plain (Plain.of_still h)⟩

end Tracks

end World

namespace Context.Plain

variable {w : World} {x x' : Context}

/-- Taking off the next move, which publishes only a tid already published and ends only a wait on
an open latch. -/
theorem pop {op : Op} {rest : List Op} (hcode : x.code = op :: rest)
    (hpub : ∀ i, op = .publish i → ∃ s, w.slots[i]? = some s ∧ 0 < s.published)
    (hopens : ∀ cv k p, op = .waitWhile cv (.latch k) p → p (w.count k) = false)
    (hc : x'.code = rest) (hk : x'.self.kernel = x.self.kernel)
    (hs : ∀ p ∈ x'.scope.latches, p ∈ x.scope.latches) : Context.Plain w x x' :=
  ⟨hk, fun p hp => .inl (hs p hp), by rw [hcode, hc]; exact .pop op rest hpub hopens⟩

theorem install {code : List Op} (hcode : x.code = []) (hc : x'.code = code)
    (hpub : ∀ i, .publish i ∉ code) (hadopt : ∀ i, .adopt i ∉ code)
    (hcount : ∀ k, .countDown k ∈ code → ∃ p ∈ x.scope.latches, p.2 = k)
    (hk : x'.self.kernel = x.self.kernel) (hs : ∀ p ∈ x'.scope.latches, p ∈ x.scope.latches) :
    Context.Plain w x x' :=
  ⟨hk, fun p hp => .inl (hs p hp), by rw [hcode, hc]; exact .install code hpub hadopt hcount⟩

end Context.Plain

namespace World

namespace Tracks

variable {w w' : World} {c : Ctx} {x : Context}

/-- A thread publishes its own tid: the tid goes out first, and the handshake then sees the
thread's move as plain. -/
theorem publish {i : Nat} {rest : List Op} (hs : w.Sound) (hh : w.Handshake)
    (hx : w.ctx? c = some x) (hcode : x.code = .publish i :: rest) :
    Tracks w (w.exec c { x with code := rest } (.publish i)) c := by
  obtain rfl := hh.publisher c x i hx (by simp [hcode])
  obtain ⟨hsnd, hpos, -⟩ := hs.self _ x hx
  obtain ⟨s, hsl, hsc⟩ : ∃ s, w.slots[i]? = some s ∧ s.ctx = some x := by
    simpa [ctx?, Option.bind_eq_some_iff] using hx
  simp only [World.exec]
  rw [put_modifySlot_comm _ _ _ _ fun _ => rfl]
  generalize hR : ({ x with code := rest } : Context).requestTid w.process = R
  have ht : R.1 = x.self.kernel := hR ▸ Context.requestTid_fst _ hsnd
  have hk : R.2.1.self.kernel = x.self.kernel := by rw [← hR]; simp
  have hcode' : R.2.1.code = rest := by rw [← hR]; simp
  have hsc' : R.2.1.scope = x.scope := by rw [← hR]; simp
  have h₀ : ({ w with process := R.2.2 } : World).Handshake :=
    hh.plain (Plain.of_still (Still.of_views rfl rfl rfl))
  have h₃ : (({ w with process := R.2.2 } : World).modifySlot i
      fun s => { s with published := R.1 }).Handshake := by
    refine h₀.modifySlot i (fun s => { s with published := R.1 })
      (fun _ => ⟨rfl, rfl, rfl⟩) (fun s' hs' => hh.tid i s' hs') fun s' hs' => ?_
    have : s' = s := Option.some.inj (hs'.symm.trans hsl)
    subst this
    exact ⟨.inr ⟨x, hsc, ht⟩, fun _ => ht ▸ hpos⟩
  have hx₃ : (({ w with process := R.2.2 } : World).modifySlot i
      fun s => { s with published := R.1 }).ctx? (.thread i) = some x := by
    simp [ctx?, World.modifySlot, Array.getElem?_modify, hsl, hsc]
  refine ⟨Counts.of_contents fun _ => rfl, h₃.plain (Plain.put (.refl _) hx₃ (.pop hcode
    (fun j hj => ?_) (by simp) hcode' hk (by rw [hsc']; exact fun _ h => h)) (.refl _))⟩
  cases hj
  exact ⟨{ s with published := R.1 }, by simp [World.modifySlot, Array.getElem?_modify, hsl],
    ht ▸ hpos⟩

/-- Main adopts the published tid, which is `0` or the thread's. -/
theorem adopt {i : Nat} {rest : List Op} (hh : w.Handshake) (hx : w.ctx? c = some x)
    (hcode : x.code = .adopt i :: rest) :
    Tracks w (w.exec c { x with code := rest } (.adopt i)) c := by
  simp only [World.exec]
  split
  · rename_i s _
    have h₂ : Tracks w (({ w with labels := (s.published, s.id) :: w.labels } : World).put c
        { x with code := rest, reply := .started s.published }) c :=
      plain hh (.refl _) (.of_views rfl rfl rfl) hx
        (.pop hcode (by simp) (by simp) rfl rfl fun _ h => h)
    exact ⟨h₂.counts, h₂.handshake.modifySlot i _ (fun _ => ⟨rfl, rfl, rfl⟩)
      (fun s' hs' => h₂.handshake.published i s' hs') fun s' hs' =>
        ⟨h₂.handshake.published i s' hs', id⟩⟩
  · exact plain hh (.refl _) (.refl w) hx (.pop hcode (by simp) (by simp) rfl rfl fun _ h => h)

/-- Counting a start latch down: only its thread does so, which has published its tid and has
no other count-down of the latch left. -/
theorem opens_of_countDown {k : Nat} {rest : List Op} (hh : w.Handshake)
    (hx : w.ctx? c = some x) (hcode : x.code = .countDown k :: rest) (i : Nat) (s : Slot)
    (hs : (w.put c { x with code := rest }).slots[i]? = some s) (hk : s.latch = some k) :
    0 < s.published ∧ ∀ y, s.ctx = some y → .countDown k ∉ y.code := by
  rw [slots_put_eq] at hs
  obtain ⟨s₀, hs₀, hs⟩ := Option.map_eq_some_iff.mp hs
  have hk₀ : s₀.latch = some k := by
    rw [← hk, ← hs]
    split <;> rfl
  obtain rfl : c = .thread i := hh.counter i s₀ k hs₀ hk₀ c x hx (by simp [hcode])
  simp only [if_true] at hs
  subst hs
  obtain ⟨y, hy, hpub, hsuf, -⟩ := hh.thread i s₀ k hs₀ hk₀
  have hyx : y = x := Option.some.inj ((hy.symm.trans (ctx?_of_slot hs₀).symm).trans hx)
  subst hyx
  refine ⟨?_, fun y' hy' => ?_⟩
  · rcases hpub with hpos | ⟨name, hsp⟩
    · exact hpos
    · rw [hcode] at hsp
      simp [spawnCode, Op.scoped] at hsp
  · cases hy'
    obtain ⟨name, hsuf⟩ := hsuf (by simp [hcode])
    rw [hcode] at hsuf
    exact countDown_not_mem_of_suffix hsuf

/-- A count-down counts, then takes one off its latch's count unless it is `0`; a start latch it
opens wakes main, its thread having published its tid. -/
theorem countDown {k : Nat} {rest : List Op} (hh : w.Handshake)
    (hx : w.ctx? c = some x) (hcode : x.code = .countDown k :: rest) :
    Tracks w (w.exec c { x with code := rest } (.countDown k)) c := by
  have hp : Context.Plain w x { x with code := rest } :=
    .pop hcode (by simp) (by simp) rfl rfl fun _ h => h
  simp only [World.exec]
  split
  · generalize hW : (w.put c { x with code := rest }).modifyLatch k
      (fun l => { l with downs := l.downs + 1 }) = W
    have h₀ : W.Handshake :=
      hW ▸ hh.plain ((Plain.put (.refl w) hx hp (.refl _)).modifyLatch k _ fun _ => rfl)
    have hlat : ∀ k', W.latches[k']? = if k = k' then (w.latches[k']?).map
        (fun l => { l with downs := l.downs + 1 }) else w.latches[k']? := by
      intro k'
      rw [← hW, latches_modifyLatch, put_latches]
    have hcount : W.count k = w.count k := by
      simp only [count, hlat, if_true, Option.map_map]
      rfl
    have hset : ∀ m, m = w.count k - 1 → ∀ k',
        ((W.modifyLatch k fun l => { l with count := m }).latches[k']?).map LatchCell.contents =
          (w.latches[k']?).map fun l =>
            if k = k' then (l.count - 1, l.initial, l.downs + 1) else l.contents := by
      intro m hm k'
      rw [latches_modifyLatch, hlat]
      split
      · subst k'
        cases hl : w.latches[k]? with
        | none => rfl
        | some l => simp [LatchCell.contents, hm, count_of_latch hl]
      · cases w.latches[k']? <;> rfl
    split
    · -- the latch was open already: only its count-downs grow
      rename_i h0
      refine ⟨Counts.countDown hx hcode fun k' => ?_, h₀⟩
      rw [hlat]
      split
      · subst k'
        cases hl : w.latches[k]? with
        | none => rfl
        | some l =>
          have : l.count = 0 := (count_of_latch hl).symm.trans (hcount.symm.trans h0)
          simp [LatchCell.contents, this]
      · cases w.latches[k']? <;> rfl
    · -- the last count-down opens the latch and wakes its waiters
      rename_i h1
      have hm : 0 = w.count k - 1 := by omega
      refine ⟨Counts.countDown hx hcode fun k' => ?_, ?_⟩
      · rw [(Still.broadcast _ _).latches k']
        exact hset 0 hm k'
      · refine (h₀.setCount k 0 (fun _ => rfl) fun _ i s hs hk => ?_).plain
          (Plain.of_still (.broadcast _ _))
        subst hW
        exact opens_of_countDown hh hx hcode i s hs hk
    · -- a count above `1` goes down by one and stays above `0`
      rename_i n hn
      refine ⟨Counts.countDown hx hcode (hset (n + 1) (by omega)), ?_⟩
      exact h₀.setCount k (n + 1) (fun h0 => by omega) fun h0 => absurd h0 (Nat.succ_ne_zero n)
  · exact plain hh (.refl _) (.refl w) hx hp

theorem exec {op : Op} {rest : List Op} (hs : w.Sound) (hh : w.Handshake)
    (hx : w.ctx? c = some x) (hcode : x.code = op :: rest) :
    Tracks w (w.exec c { x with code := rest } op) c := by
  have hpop : (∀ i, op ≠ .publish i) → (∀ cv l p, op ≠ .waitWhile cv l p) →
      ∀ {w₁ : World} {y : Context}, y.code = rest → y.self.kernel = x.self.kernel →
        (∀ p ∈ y.scope.latches, p ∈ x.scope.latches) → Context.Plain w₁ x y :=
    fun hp hw _ _ hc hk hsc => .pop hcode (fun i h => absurd h (hp i))
      (fun cv _ p h => absurd h (hw cv _ p)) hc hk hsc
  have hput : (∀ i, op ≠ .publish i) → (∀ cv l p, op ≠ .waitWhile cv l p) →
      Tracks w (w.put c { x with code := rest }) c :=
    fun hp hw => plain hh (.refl _) (.refl w) hx (hpop hp hw rfl rfl fun _ h => h)
  cases op with
  | acquire l =>
    simp only [World.exec]
    exact plain hh (.modifyLock _ _ _) (.refl w) hx (hpop (by simp) (by simp) rfl rfl fun _ h => h)
  | assign l =>
    simp only [World.exec]
    split
    · rw [record_eq]
      exact plain hh (.modifyLock _ _ _) (.of_views rfl rfl rfl) hx (hpop (by simp) (by simp) rfl (by simp)
        fun _ h => h)
    · exact hput (by simp) (by simp)
  | unassign l =>
    simp only [World.exec]
    split
    · exact plain hh (.modifyLock _ _ _) (.refl w) hx
        (hpop (by simp) (by simp) rfl rfl fun _ h => h)
    · exact hput (by simp) (by simp)
  | release l =>
    simp only [World.exec]
    split
    · exact plain hh (.modifyLock _ _ _) (.refl w) hx
        (hpop (by simp) (by simp) rfl rfl fun _ h => h)
    · exact hput (by simp) (by simp)
  | vacate l =>
    simp only [World.exec]
    split
    · exact plain hh (.modifyLock _ _ _) (.refl w) hx
        (hpop (by simp) (by simp) rfl rfl fun _ h => h)
    · exact hput (by simp) (by simp)
  | park cv l =>
    simp only [World.exec]
    split
    · exact plain hh (.modifyLock _ _ _) (.of_views rfl rfl rfl) hx
        (hpop (by simp) (by simp) rfl rfl fun _ h => h)
    · exact hput (by simp) (by simp)
  | reclaim l =>
    simp only [World.exec]
    split
    · rw [record_eq]
      exact plain hh (.modifyLock _ _ _) (.of_views rfl rfl rfl) hx (hpop (by simp) (by simp) rfl (by simp)
        fun _ h => h)
    · exact hput (by simp) (by simp)
  | waitWhile cv l p =>
    simp only [World.exec]
    split
    · -- the wait begins again
      refine plain hh (.refl _) (.refl w) hx ⟨rfl, fun _ h => .inl h, ?_⟩
      rw [hcode]
      exact .expand cv l p rest
    · -- the wait ends: its owner finds the predicate false, so a latch it waits on is open
      rename_i hno
      have hown : w.owns l c = true :=
        (owns_iff _ _ _).mpr (hs.owns_of_keepsPhase hx hcode rfl rfl)
      refine plain hh (.refl _) (.refl w) hx (.pop hcode (by simp) (fun cv' k p' he => ?_) rfl rfl
        fun _ h => h)
      simp only [Op.waitWhile.injEq] at he
      obtain ⟨-, rfl, rfl⟩ := he
      simpa [hown, guarded] using hno
  | signal cv =>
    simp only [World.exec]
    exact plain hh (.signal _ _) (.refl w) hx (hpop (by simp) (by simp) rfl rfl fun _ h => h)
  | broadcast cv =>
    simp only [World.exec]
    exact plain hh (.broadcast _ _) (.refl w) hx (hpop (by simp) (by simp) rfl rfl fun _ h => h)
  | read m =>
    simp only [World.exec]
    split
    · exact plain hh (.refl _) (.refl w) hx (hpop (by simp) (by simp) rfl rfl fun _ h => h)
    · exact hput (by simp) (by simp)
  | write m f =>
    simp only [World.exec]
    split
    · exact plain hh (.modifyMutex _ _ _) (.refl w) hx
        (hpop (by simp) (by simp) rfl rfl fun _ h => h)
    · exact hput (by simp) (by simp)
  | countDown k => exact countDown hh hx hcode
  | keep m =>
    simp only [World.exec]
    exact plain hh (.refl _) (.refl w) hx (hpop (by simp) (by simp) rfl rfl fun _ h => h)
  | unkeep m =>
    simp only [World.exec]
    exact plain hh (.refl _) (.refl w) hx (hpop (by simp) (by simp) rfl rfl fun _ h => h)
  | note q =>
    simp only [World.exec]
    split
    · exact plain hh (.refl _) (.of_views rfl rfl rfl) hx (hpop (by simp) (by simp) rfl (by simp)
        fun _ h => h)
    · exact plain hh (.refl _) (.refl w) hx (hpop (by simp) (by simp) rfl rfl fun _ h => h)
  | complete =>
    simp only [World.exec]
    exact plain hh (.refl _) (.refl w) hx (hpop (by simp) (by simp) rfl rfl fun _ h => h)
  | publish i => exact publish hs hh hx hcode
  | rename n =>
    simp only [World.exec]
    exact plain hh (.refl _) (.refl w) hx (hpop (by simp) (by simp) rfl rfl fun _ h => h)
  | adopt i => exact adopt hh hx hcode
  | awaitEnd i =>
    simp only [World.exec]
    split
    · split
      · exact plain hh (.refl _) (.refl w) hx (hpop (by simp) (by simp) rfl rfl fun _ h => h)
      · exact plain hh (.refl _) (.refl w) hx (hpop (by simp) (by simp) rfl rfl fun _ h => h)
      · exact hput (by simp) (by simp)
    · exact hput (by simp) (by simp)
  | pause t => exact hput (by simp) (by simp)
  | fork b => exact hput (by simp) (by simp)
  | finish f =>
    cases c with
    | main =>
      simp only [World.exec, World.finish]
      exact plain hh ((Still.release _ _).trans (.dropRefs _ _)) (.refl w) hx
        (hpop (by simp) (by simp) rfl rfl (by simp))
    | thread i =>
      cases f with
      | some f =>
        simp only [World.exec, World.finish, Option.isSome_some, if_true]
        split
        · exact plain hh (((Still.release _ _).trans (.dropRefs _ _)).trans (.of_views rfl rfl rfl))
            (.refl w) hx (hpop (by simp) (by simp) rfl (by simp) (by simp))
        · exact plain hh ((Still.release _ _).trans (.dropRefs _ _)) (.refl w) hx
            (hpop (by simp) (by simp) rfl (by simp) (by simp))
      | none =>
        simp only [World.exec, World.finish]
        exact plain hh ((Still.release _ _).trans (.dropRefs _ _)) (.refl w) hx
          (hpop (by simp) (by simp) rfl (by simp) (by simp))

/-! ### Every step -/

variable {y : Context}

theorem reply (hh : w.Handshake) (hx : w.ctx? c = some x) (h₁ : Still w w₁)
    (hp : Context.Plain w₁ x x') (r : Reply) : Tracks w (w₁.reply c x' r) c :=
  plain hh (.refl _) h₁ hx (hp.still ⟨rfl, fun _ h => h, rfl⟩)

theorem forked {b : Tid} {rest : List Op} (e : World) (hh : w.Handshake) (hx : w.ctx? c = some x)
    (hcode : x.code = .fork b :: rest) : Tracks w (w.forked c { x with code := rest } b e) c := by
  rw [forked_eq]
  exact plain hh (.refl _) (.of_views rfl rfl rfl) hx
    (.pop hcode (fun _ h => by cases h) (fun _ _ _ h => by cases h) rfl (by simp [Context.answer])
      fun _ h => h)

/-- Installing the moves of a step, which neither publish nor adopt, and count down only latches
the context names. -/
theorem install (hh : w.Handshake) (hx : w.ctx? c = some x) (hcode : x.code = [])
    (h₁ : Still w w₁) (hs : Context.Still x x') {code : List Op}
    (hpub : ∀ i, .publish i ∉ code) (hadopt : ∀ i, .adopt i ∉ code)
    (hcount : ∀ k, .countDown k ∈ code → ∃ p ∈ x.scope.latches, p.2 = k) :
    Tracks w (w₁.install c x' code) c :=
  plain hh (.refl _) h₁ hx (.install hcode rfl hpub hadopt hcount hs.2.2 hs.2.1)

theorem failStep (hh : w.Handshake) (hx : w.ctx? c = some x) (hcode : x.code = [])
    (h₁ : Still w w₁) (hs : Context.Still x x') (f : Failure) : Tracks w (w₁.failStep c x' f) c := by
  cases c with
  | main => exact reply hh hx h₁ (.of_still hs) _
  | thread i =>
    exact install hh hx hcode h₁ hs (by simp [Op.unlockKept]) (by simp [Op.unlockKept])
      (by simp [Op.unlockKept])

/-- A new latch, which no thread object waits on for its start: the context may name it at once. -/
theorem latchNew (hh : w.Handshake) (hx : w.ctx? c = some x) (hs : Context.Still x x')
    (id : String) (n : Nat) (r : Reply) :
    Tracks w ({ w with latches := w.latches.push { count := n } }.reply c
      { x' with scope := x'.scope.bindLatch id w.latches.size } r) c := by
  have hp : Context.Plain w x ({ x' with scope := x'.scope.bindLatch id w.latches.size }.answer r) := by
    refine ⟨hs.2.2, fun p hp => ?_, hs.1 ▸ .same _⟩
    simp only [Context.answer, Scope.bindLatch, List.mem_cons, List.mem_filter] at hp
    rcases hp with rfl | ⟨hp, -⟩
    · exact .inr fun i s hsl hl => Nat.lt_irrefl _ (hh.hidden i s _ hsl hl).1
    · exact .inl (hs.2.1 p hp)
  generalize hY : { x' with scope := x'.scope.bindLatch id w.latches.size }.answer r = Y at hp
  have hW : { w with latches := w.latches.push { count := n } }.reply c
      { x' with scope := x'.scope.bindLatch id w.latches.size } r =
      { w.put c Y with latches := (w.put c Y).latches.push { count := n } } := by
    subst hY
    cases c <;> rfl
  rw [hW]
  exact ⟨Counts.push (by rw [put_latches]), hh.plain ((Plain.put (.refl w) hx hp (.refl _)).pushLatch _)⟩

/-- A new thread object, not started, whose function names only latches its maker names. -/
theorem threadNew (hh : w.Handshake) (hx : w.ctx? c = some x) (hp : Context.Plain w x x')
    (s : Slot) (hs : s.tid = 0 ∧ s.published = 0 ∧ s.latch = none ∧ s.ctx = none)
    (hprog : ∀ q, s.program = some q → ∀ p ∈ q.2.latches, p ∈ x.scope.latches) (n : Nat)
    (r : Reply) : Tracks w ({ w with slots := w.slots.push s, created := n }.reply c x' r) c := by
  rw [World.reply, put_pushSlot w (by simp [hx])]
  exact ⟨Counts.of_contents fun _ => by simp, hh.plain (((Plain.put (.refl w) hx
    (hp.still (show Context.Still x' (x'.answer r) from ⟨rfl, fun _ h => h, rfl⟩))
      (.refl (w.put c (x'.answer r)))).pushSlot s n hs
    fun q hq p hpq => ⟨c, x, hx, hprog q hq p hpq⟩))⟩

/-- Context `c` starts thread object `i`: a second start fails, a thread the OS refuses loses its
function, and otherwise the start's handshake begins on a new latch. -/
theorem start {i : Nat} {s : Slot} (hs : w.Sound) (hh : w.Handshake)
    (hx : w.ctx? c = some x) (hcode : x.code = []) (hy : Context.Still x y)
    (hsl : w.slots[i]? = some s) : Tracks w (w.start c y i s) c := by
  unfold World.start
  split
  · exact failStep hh hx hcode (.refl w) hy _
  · rename_i hst
    have hst' : s.started = false := by simpa using hst
    split
    · exact still hh (.of_views rfl rfl rfl)
    · rename_i actions captured hp
      split
      · have h₁ := (Still.modifySlot w i (fun s => { s with started := true, program := none })
          (fun _ => ⟨rfl, rfl, rfl, .inr rfl⟩) fun _ => rfl).trans
            (Still.dropRefs _ (captured.mutexes.map (·.2)))
        dsimp only
        split
        · exact still hh h₁
        · exact still hh (h₁.trans (.of_views rfl rfl rfl))
      · exact ⟨Counts.push (by simp only [World.install, put_latches]; rfl),
          hh.start hs hx hcode hy hsl hst' _ rfl fun p hp' => ⟨_, hp, hp'⟩⟩

theorem join {i : Nat} {s : Slot} (hh : w.Handshake) (hx : w.ctx? c = some x)
    (hcode : x.code = []) (hy : Context.Still x y) : Tracks w (w.join c y i s) c := by
  unfold World.join
  split
  · exact failStep hh hx hcode (.refl w) hy _
  · split
    · exact failStep hh hx hcode (.refl w) hy _
    · split
      · exact still hh (.of_views rfl rfl rfl)
      · exact install hh hx hcode (.modifySlot w i (fun s => { s with joined := true, handle := false })
          (fun _ => ⟨rfl, rfl, rfl, .inl rfl⟩) fun _ => rfl) hy (by simp) (by simp) (by simp)

theorem perform {st : Step} {rest : List Value} (hs : w.Sound) (hh : w.Handshake)
    (hx : w.ctx? c = some x) (hcode : x.code = [])
    (hst : st.Resolved x.scope x.held (c != .main) w.host.threadsManage) :
    Tracks w (w.perform c { x with plan := rest } st) c := by
  have hy : Context.Still x { x with plan := rest } := ⟨rfl, fun _ h => h, rfl⟩
  have hreply : ∀ r, Tracks w (w.reply c { x with plan := rest } r) c :=
    fun r => reply hh hx (.refl w) (.of_still hy) r
  have hinstall : ∀ code : List Op, (∀ i, .publish i ∉ code) → (∀ i, .adopt i ∉ code) →
      (∀ k, .countDown k ∉ code) → Tracks w (w.install c { x with plan := rest } code) c :=
    fun code hp ha hk => install hh hx hcode (.refl w) hy hp ha fun k h => absurd h (hk k)
  cases st with
  | lock m =>
    simp only [World.perform]
    split
    · exact hreply _
    · exact hinstall _ (by simp [Op.lockKept]) (by simp [Op.lockKept]) (by simp [Op.lockKept])
  | unlock m =>
    simp only [World.perform]
    split
    · exact hinstall _ (by simp [Op.unlockKept]) (by simp [Op.unlockKept])
        (by simp [Op.unlockKept])
    · exact hreply _
  | get m =>
    simp only [World.perform]
    split
    · exact hreply _
    · exact hinstall _ (by simp [Op.scoped]) (by simp [Op.scoped]) (by simp [Op.scoped])
  | set m v =>
    simp only [World.perform]
    split
    · exact reply hh hx (.modifyMutex _ _ _) (.of_still hy) _
    · exact hinstall _ (by simp [Op.scoped]) (by simp [Op.scoped]) (by simp [Op.scoped])
  | add m v times =>
    simp only [World.perform]
    split
    · exact reply hh hx (.modifyMutex _ _ _) (.of_still hy) _
    · exact hinstall _ (by simp [Op.scoped]) (by simp [Op.scoped]) (by simp [Op.scoped])
  | holder m => exact hreply _
  | isLocked m =>
    exact reply hh hx (by exact .of_views rfl rfl rfl)
      (by exact .of_still ⟨rfl, fun _ h => h, Identity.Self.tid_kernel _ _⟩) _
  | assertLocked m =>
    simp only [World.perform]
    split
    · exact reply hh hx (by exact .of_views rfl rfl rfl)
        (by exact .of_still ⟨rfl, fun _ h => h, Identity.Self.tid_kernel _ _⟩) _
    · exact failStep hh hx hcode (by exact .of_views rfl rfl rfl)
        (by exact ⟨rfl, fun _ h => h, Identity.Self.tid_kernel _ _⟩) _
  | mutexDebug m => exact hreply _
  | guardDebug m =>
    simp only [World.perform]
    split <;> exact hreply _
  | countDown l =>
    refine install hh hx hcode (.refl w) hy (by simp [Op.scoped]) (by simp [Op.scoped])
      fun k hk => ?_
    have hkl : k = l.key := by simpa [Op.scoped] using hk
    exact ⟨_, Scope.mem_of_lookup hst.named, hkl.symm⟩
  | wait l => exact hinstall _ (by simp [Op.scoped]) (by simp [Op.scoped]) (by simp [Op.scoped])
  | count l => exact hinstall _ (by simp [Op.scoped]) (by simp [Op.scoped]) (by simp [Op.scoped])
  | latchDebug l =>
    exact hinstall _ (by simp [Op.scoped]) (by simp [Op.scoped]) (by simp [Op.scoped])
  | notify cv => exact reply hh hx (.signal w _) (.of_still hy) _
  | notifyAll cv => exact reply hh hx (.broadcast w _) (.of_still hy) _
  | condDebug cv => exact hreply _
  | waitWhile cv m cmp v =>
    simp only [World.perform]
    split
    · exact hinstall _ (by simp) (by simp) (by simp)
    · exact hinstall _ (by simp [Op.scoped]) (by simp [Op.scoped]) (by simp [Op.scoped])
  | current =>
    exact reply hh hx (by exact .of_views rfl rfl rfl)
      (by exact .of_still ⟨rfl, fun _ h => h, World.current_kernel _ _⟩) _
  | sleep usec =>
    simp only [World.perform]
    split
    · exact hreply _
    · exact hinstall _ (by simp) (by simp) (by simp)
  | fail f => exact failStep hh hx hcode (.refl w) hy f
  | fork =>
    let s := ((x.self.tid w.process).2.1.text (x.self.tid w.process).2.2).2.1
    have hs' : Context.Still x { x with plan := rest, self := s } := ⟨rfl, fun _ h => h, by simp [s]⟩
    exact install hh hx hcode (by exact .of_views rfl rfl rfl) hs' (by simp) (by simp) (by simp)
  | mutexNew id v =>
    exact reply hh hx (by exact .of_views rfl rfl rfl) (by exact .of_still ⟨rfl, fun _ h => h, rfl⟩) _
  | mutexDrop m =>
    have hs' : Context.Still x
        { x with plan := rest, held := x.held.erase m.key, scope := x.scope.forgetMutex m.id } :=
      ⟨rfl, fun _ h => h, rfl⟩
    exact reply hh hx (((Still.refl w).put hx hs').trans (.dropRefs _ _)) (.of_still hs') _
  | getMut m set =>
    simp only [World.perform]
    split
    · exact hreply _
    · exact reply hh hx (.modifyMutex _ _ _) (.of_still hy) _
  | latchNew id n => exact latchNew hh hx hy id n _
  | condNew id =>
    exact reply hh hx (by exact .of_views rfl rfl rfl) (by exact .of_still ⟨rfl, fun _ h => h, rfl⟩) _
  | threadNew spec =>
    refine threadNew hh hx ?_ _ ?_ ?_ _ _
    · exact .of_still ⟨rfl, fun _ h => h, rfl⟩
    · exact ⟨rfl, rfl, rfl, rfl⟩
    · intro q hq p hp
      cases hq
      exact hst.named.2.1 p hp
  | threadStart t =>
    simp only [World.perform]
    split
    · exact start hs hh hx hcode hy ‹_›
    · exact hreply _
  | threadJoin t =>
    simp only [World.perform]
    split
    · exact join hh hx hcode hy
    · exact hreply _
  | threadInfo t => exact hreply _
  | threadDrop t =>
    have hs' : Context.Still x { x with plan := rest, scope := x.scope.forgetThread t.id } :=
      ⟨rfl, fun _ h => h, rfl⟩
    simp only [World.perform]
    split
    · split
      · exact reply hh hx (.modifySlot w _ (fun s => { s with handle := false })
          (fun _ => ⟨rfl, rfl, rfl, .inl rfl⟩) fun _ => rfl) (.of_still hs') _
      · -- an unstarted object's function is dropped; the handshake reads none of it
        exact reply hh hx (((Still.modifySlot w _ (fun s => { s with program := none })
          (fun _ => ⟨rfl, rfl, rfl, .inr rfl⟩) fun _ => rfl).put hx hs').trans (.dropRefs _ _))
          (.of_still hs') _
    · exact reply hh hx (.refl w) (.of_still hs') _
  | numCreated => exact hreply _
  | classify f => exact hreply _
  | exceptionNew what => exact hreply _

theorem begin (hs : w.Sound) (hh : w.Handshake) (hx : w.ctx? c = some x) (hcode : x.code = []) :
    Tracks w (w.begin c x) c := by
  unfold World.begin
  split
  · exact install hh hx hcode (.refl w) (.refl x) (by simp [Op.unlockKept])
      (by simp [Op.unlockKept]) (by simp [Op.unlockKept])
  · dsimp only
    split
    · exact reply hh hx (.refl w) (by exact .of_still ⟨rfl, fun _ h => h, rfl⟩) _
    · exact perform hs hh hx hcode (Step.read_resolved ‹_›)

theorem advance (hs : w.Sound) (hh : w.Handshake) (h : w.advance c = (w', true)) :
    Tracks w w' c := by
  unfold World.advance at h
  split at h
  · cases h
  · rename_i x hx
    split at h
    · cases h
    · split at h
      · rename_i op rest hcode
        split at h
        · cases h
        · cases h
          exact exec hs hh hx hcode
      · rename_i hcode
        cases h
        exact begin hs hh hx hcode

end Tracks

section
variable {w w' : World}

/-- A process at its start has no thread object, so no handshake under way. -/
theorem Handshake.of_begins (hb : w.Begins) : w.Handshake where
  tid i s h := by simp [hb.slot] at h
  published i s h := by simp [hb.slot] at h
  publisher d x i hx hm := by
    obtain ⟨rfl, rfl⟩ := hb.ctx hx
    simp [hb.code] at hm
  hidden i s k h := by simp [hb.slot] at h
  counter i s k h := by simp [hb.slot] at h
  thread i s k h := by simp [hb.slot] at h
  starting d x i hx hm := by
    obtain ⟨rfl, rfl⟩ := hb.ctx hx
    simp [hb.code] at hm

/-- One move of a process: a context moves, a sleeping one wakes, or the clock goes on; only the
first changes a latch, and only by a count-down its context makes next. -/
theorem Tracks.moves (hs : w.Sound) (hh : w.Handshake) (h : Moves w w') :
    ∃ c, Tracks w w' c := by
  cases h with
  | move c _ hmove => exact ⟨c, Tracks.advance hs hh (advance_of_move? hmove)⟩
  | wakeUp c x _ _ _ => exact ⟨c, Tracks.still hh (.wake w c)⟩
  | tick t _ _ => exact ⟨.main, Tracks.still hh (.of_views rfl rfl rfl)⟩
  | fork c x b rest n _ hx _ _ hcode => exact ⟨c, Tracks.forked _ hh hx hcode⟩

/-- Every world a process reaches has every start handshake in order. -/
theorem Handshake.reachable {host : Host} {steps : List Value} (h : Reachable (World.init host steps) w) :
    w.Handshake := by
  induction h with
  | refl => exact .of_begins (.init host steps)
  | tail hr hm ih =>
    obtain ⟨c, ht⟩ := Tracks.moves ((Sound.init host steps).reachable hr) ih hm
    exact ht.handshake

/-! ### What a start guarantees -/

/-- A starter's moves before its wait on a start latch ends are never the adoption of the tid. -/
theorem Awaiting.not_adopt {i k j : Nat} {rest : List Op} (h : Awaiting i k (.adopt j :: rest)) :
    False := by
  obtain ⟨pre, hpre, heq⟩ := h
  cases pre with
  | nil => simp [waitTail] at heq
  | cons a pre =>
    simp only [List.cons_append, List.cons.injEq] at heq
    rcases hpre with h | h
    · have := heq.1 ▸ h.subset List.mem_cons_self
      simp at this
    · have := heq.1 ▸ h.subset List.mem_cons_self
      simp at this

/-- A context about to adopt the tid of object `i` is not its thread, and finds the latch open and a
positive tid published. -/
theorem Handshake.ready (hh : w.Handshake) {c : Ctx} {x : Context} {i : Nat} {rest : List Op}
    (hx : w.ctx? c = some x) (hcode : x.code = .adopt i :: rest) :
    c ≠ .thread i ∧ ∃ s y k, w.slots[i]? = some s ∧ s.ctx = some y ∧ s.latch = some k ∧
      w.count k = 0 ∧ .countDown k ∉ y.code ∧ s.published = y.self.kernel ∧ 0 < s.published := by
  obtain ⟨hne, s, k, hsl, hk, hold⟩ := hh.starting c x i hx (by simp [hcode])
  rcases hold with haw | ⟨-, h0⟩
  · rw [hcode] at haw
    exact haw.not_adopt.elim
  obtain ⟨y, hy, -, -, hopen⟩ := hh.thread i s k hsl hk
  obtain ⟨hpos, hnot⟩ := hopen h0
  rcases hh.published i s hsl with hz | ⟨y', hy', hpub⟩
  · exact absurd hz (Nat.pos_iff_ne_zero.mp hpos)
  · rw [hy] at hy'
    cases hy'
    exact ⟨hne, s, y, k, hsl, hy, hk, h0, hnot, hpub, hpos⟩

/-- The move of a context whose next move is `op` is that move. -/
theorem advance_of_code {c : Ctx} {x : Context} {op : Op} {rest : List Op}
    (hx : w.ctx? c = some x) (hcode : x.code = op :: rest) (h : w.advance c = (w', true)) :
    w' = w.exec c { x with code := rest } op := by
  unfold World.advance at h
  simp only [hx, hcode] at h
  split at h
  · cases h
  · split at h
    · cases h
    · cases h
      rfl

/-- The adopting move copies the published tid into the thread object. -/
theorem move?_adopt {c : Ctx} {x : Context} {i : Nat} {rest : List Op} {s : Slot}
    (hx : w.ctx? c = some x) (hcode : x.code = .adopt i :: rest) (hsl : w.slots[i]? = some s)
    (hm : w.move? c = some w') : (w'.slots[i]?).map Slot.tid = some s.published := by
  rw [advance_of_code hx hcode (advance_of_move? hm)]
  cases c with
  | main => simp [World.exec, hsl, World.modifySlot, World.put, Array.getElem?_modify]
  | thread j =>
    simp only [World.exec, hsl, World.put, World.modifySlot, Array.getElem?_modify]
    by_cases hji : j = i <;> simp [hji]

/-- The start handshake, for any starter: it adopts only a positive tid that the new thread has
published and no other context has, after the latch count-down, and the handshake locks only its
own latch, which no scope names. -/
theorem start_handshake {host : Host} {steps : List Value}
    (h : Reachable (World.init host steps) w) :
    (∀ c x i rest, w.ctx? c = some x → x.code = .adopt i :: rest →
      ∃ s y k, w.slots[i]? = some s ∧ s.ctx = some y ∧ s.latch = some k ∧ w.count k = 0 ∧
        .countDown k ∉ y.code ∧ 0 < s.published ∧ (∀ p, (y.requestTid p).1 = s.published) ∧
        x.self.kernel ≠ s.published ∧
        (∀ d z, w.ctx? d = some z → z.self.kernel = s.published → d = .thread i) ∧
        ∀ w', w.move? c = some w' → (w'.slots[i]?).map Slot.tid = some s.published) ∧
    (∀ (i : Nat) (s : Slot), w.slots[i]? = some s →
      s.tid = 0 ∨ ∃ y, s.ctx = some y ∧ ∀ p, (y.requestTid p).1 = s.tid) ∧
    (∀ (i : Nat) (s : Slot) (k : Nat), w.slots[i]? = some s → s.latch = some k →
      (∀ d z, w.ctx? d = some z → ∀ p ∈ z.scope.latches, p.2 ≠ k) ∧
      ∀ name, ∀ op ∈ spawnCode i k name ++ awaitSpawnCode i k, ∀ l, op.lock? = some l →
        l = .latch k) := by
  have hs := (Sound.init host steps).reachable h
  have hh := Handshake.reachable h
  have hreport : ∀ d y, w.ctx? d = some y → ∀ p, (y.requestTid p).1 = y.self.kernel :=
    fun d y hy p => Context.requestTid_fst p (hs.self d y hy).1
  refine ⟨fun c x i rest hx hcode => ?_, fun i s hsl => ?_, fun i s k hsl hk => ?_⟩
  · obtain ⟨hne, s, y, k, hsl, hy, hk, h0, hnot, hpub, hpos⟩ := hh.ready hx hcode
    have hy' : w.ctx? (.thread i) = some y := by rw [ctx?_of_slot hsl, hy]
    have honly : ∀ d z, w.ctx? d = some z → z.self.kernel = s.published → d = .thread i :=
      fun d z hz hkz => hs.distinct d _ z y hz hy' (hkz.trans hpub)
    refine ⟨s, y, k, hsl, hy, hk, h0, hnot, hpos, fun p => by rw [hpub, hreport _ y hy' p],
      fun he => hne (honly c x hx he), honly, fun w' hm => move?_adopt hx hcode hsl hm⟩
  · rcases hh.tid i s hsl with h0 | ⟨y, hy, ht⟩
    · exact .inl h0
    · have hy' : w.ctx? (.thread i) = some y := by rw [ctx?_of_slot hsl, hy]
      exact .inr ⟨y, hy, fun p => by rw [ht, hreport _ y hy' p]⟩
  · refine ⟨(hh.hidden i s k hsl hk).2.1, fun name op hop l hl => ?_⟩
    rcases List.mem_append.mp hop with hop | hop
    · exact lock?_of_mem_spawnCode i k name op hop l hl
    · simp only [awaitSpawnCode, Op.scoped, List.cons_append, List.nil_append, List.mem_cons,
        List.not_mem_nil, or_false] at hop
      rcases hop with rfl | rfl | rfl | rfl | rfl | rfl | rfl | rfl <;>
        simp_all [Op.lock?]

/-- A script whose thread `a` makes and starts a thread `b` of its own, while main starts `a` and
then `c`. -/
def nestedStarts : List Value :=
  [.obj [("op", .str "thread_new"), ("id", .str "a"), ("actions", .arr
      [.obj [("op", .str "thread_new"), ("id", .str "b")],
       .obj [("op", .str "thread_start"), ("thread", .str "b")]])],
   .obj [("op", .str "thread_new"), ("id", .str "c")],
   .obj [("op", .str "thread_start"), ("thread", .str "a")],
   .obj [("op", .str "thread_start"), ("thread", .str "c")]]

/-- Main is about to adopt the tid of `c`, and thread `a` that of `b`, at the same time. -/
def bothAdopting : World :=
  ((World.init .program nestedStarts).replay
    (List.replicate 8 .main ++ List.replicate 7 (.thread 0) ++ List.replicate 13 .main ++
      List.replicate 7 (.thread 1) ++ List.replicate 5 .main ++ List.replicate 7 (.thread 0) ++
      List.replicate 7 (.thread 2) ++ List.replicate 5 (.thread 0))).getD
    (World.init .program nestedStarts)

/-- Main and a thread adopt at once, each a published tid that is positive and not its own. -/
theorem start_handshake_nested :
    Reachable (World.init .program nestedStarts) bothAdopting ∧
    ∃ s₁ s₂ y, bothAdopting.slots[1]? = some s₁ ∧ bothAdopting.slots[2]? = some s₂ ∧
      bothAdopting.ctx? (.thread 0) = some y ∧
      0 < s₁.published ∧ bothAdopting.main.self.kernel ≠ s₁.published ∧
      0 < s₂.published ∧ y.self.kernel ≠ s₂.published ∧
      (∀ w', bothAdopting.move? .main = some w' → (w'.slots[1]?).map Slot.tid = some s₁.published) ∧
      ∀ w', bothAdopting.move? (.thread 0) = some w' →
        (w'.slots[2]?).map Slot.tid = some s₂.published := by
  have h : Reachable (World.init .program nestedStarts) bothAdopting := .of_replay (by decide)
  obtain ⟨hadopt, -, -⟩ := start_handshake h
  obtain ⟨s₁, -, -, hs₁, -, -, -, -, hpos₁, -, hne₁, -, hm₁⟩ :=
    hadopt .main _ 1 [.complete] rfl rfl
  obtain ⟨y, hy, hcode⟩ : ∃ y, bothAdopting.ctx? (.thread 0) = some y ∧
      y.code = [.adopt 2, .complete] := ⟨_, rfl, rfl⟩
  obtain ⟨s₂, -, -, hs₂, -, -, -, -, hpos₂, -, hne₂, -, hm₂⟩ :=
    hadopt (.thread 0) y 2 [.complete] hy hcode
  exact ⟨h, s₁, s₂, y, hs₁, hs₂, hy, hpos₁, hne₁, hpos₂, hne₂, hm₁, hm₂⟩

end

end World

end ThreadKit
