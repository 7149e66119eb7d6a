import ThreadKit.Proofs.Handshake
import ThreadKit.Script.Run

/-! The life of a thread object. The context whose scope names a thread object owns it: the one
that made it, and no other context names it. Every step on a thread object checks the object's
flags before it changes anything. So in every world a process reaches without aborting, an owned
thread object holds its function exactly until it is started, keeps its thread's handle exactly
while started and not joined, has a thread exactly once started, is joined only once started,
and, between its owner's steps, has a tid exactly once started (`World.Lifecycle`). A start or
join that the flags forbid fails with the panic that names the object and changes nothing else,
and dropping a started object leaves its thread running (`World.thread_lifecycle`). -/
namespace ThreadKit

open Script

/-- What a thread object records for its owner: the thread objects its function names, if it
holds one, whether it was started, whether it has a thread, whether it was joined, whether it
keeps the thread's handle, and its tid. -/
def Slot.life (s : Slot) : Option (List (String × Nat)) × Bool × Bool × Bool × Bool × Tid :=
  (s.program.map (·.2.threads), s.started, s.ctx.isSome, s.joined, s.handle, s.tid)

/-- The flags of a thread object agree with each other. While it is owned (`owned`) it holds its
function exactly until it is started and keeps its thread's handle exactly while it is started
and not joined; it has a thread exactly once started; it is joined only once started; a started
object without a tid is one being adopted (`adopting`); and its function names no thread
object. -/
structure Slot.Sane (s : Slot) (owned adopting : Prop) : Prop where
  program : owned → (s.program.isSome ↔ s.started = false)
  handle : owned → (s.handle = true ↔ s.started = true ∧ s.joined = false)
  thread : s.ctx.isSome ↔ s.started = true
  joined : s.joined = true → s.started = true
  tid : s.started = true → s.tid = 0 → adopting
  captured : ∀ p, s.program = some p → p.2.threads = []

theorem Slot.Sane.mono {s : Slot} {n n' a a' : Prop} (h : s.Sane n a) (hn : n' → n)
    (ha : a → a') : s.Sane n' a' :=
  ⟨fun h' => h.program (hn h'), fun h' => h.handle (hn h'), h.thread, h.joined,
    fun hs ht => ha (h.tid hs ht), h.captured⟩

/-- Only what a thread object records for its owner decides whether its flags agree. -/
theorem Slot.Sane.of_life {s s' : Slot} {n a : Prop} (h : s.Sane n a) (hl : s'.life = s.life) :
    s'.Sane n a := by
  simp only [Slot.life, Prod.mk.injEq] at hl
  obtain ⟨hp, hs, hc, hj, hh, ht⟩ := hl
  have hsome : s'.program.isSome = s.program.isSome := by
    simpa using congrArg Option.isSome hp
  refine ⟨fun hn => ?_, fun hn => ?_, ?_, ?_, ?_, fun p' hp' => ?_⟩
  · rw [hsome, hs]; exact h.program hn
  · rw [hh, hs, hj]; exact h.handle hn
  · rw [hc, hs]; exact h.thread
  · rw [hj, hs]; exact h.joined
  · rw [hs, ht]; exact h.tid
  · rw [hp', Option.map_some] at hp
    obtain ⟨p, hp₀, he⟩ := Option.map_eq_some_iff.mp hp.symm
    rw [← he]
    exact h.captured p hp₀

/-- Context `y'` has the moves of `y` and names the thread objects `y` names. -/
def Context.SameCharge (y y' : Context) : Prop :=
  y'.code = y.code ∧ y'.scope.threads = y.scope.threads

theorem Context.SameCharge.refl (y : Context) : Context.SameCharge y y := ⟨rfl, rfl⟩

theorem Context.SameCharge.trans {a b c : Context} (h₁ : Context.SameCharge a b)
    (h₂ : Context.SameCharge b c) : Context.SameCharge a c :=
  ⟨h₂.1.trans h₁.1, h₂.2.trans h₁.2⟩

namespace World

/-! ### Changes no owner sees -/

/-- Every thread object looks to its owner as it did, and every context keeps its moves and the
thread objects it names. -/
structure SameLives (w w' : World) : Prop where
  slots : ∀ i : Nat, (w'.slots[i]?).map Slot.life = (w.slots[i]?).map Slot.life
  charge : ∀ d, Option.Rel Context.SameCharge (w.ctx? d) (w'.ctx? d)

/-- Putting a context that is there keeps what every thread object looks like: a managed
thread's object has its thread before and after. -/
theorem life_put {w : World} {c : Ctx} (x : Context) (hc : (w.ctx? c).isSome) (i : Nat) :
    ((w.put c x).slots[i]?).map Slot.life = (w.slots[i]?).map Slot.life := by
  rw [slots_put_eq]
  cases hs : w.slots[i]? with
  | none => rfl
  | some s =>
    simp only [Option.map_some, Option.some.injEq]
    split
    · rename_i hci
      subst hci
      have hctx : s.ctx.isSome := by simpa [ctx?_thread, hs] using hc
      simp [Slot.life, hctx]
    · rfl

@[simp] theorem isSome_slots_put (w : World) (c : Ctx) (x : Context) (i : Nat) :
    ((w.put c x).slots[i]?).isSome = (w.slots[i]?).isSome := by
  rw [slots_put_eq, Option.isSome_map]

@[simp] theorem isSome_slots_modifySlot (w : World) (i j : Nat) (f : Slot → Slot) :
    ((w.modifySlot i f).slots[j]?).isSome = (w.slots[j]?).isSome := by
  simp only [World.modifySlot, Array.getElem?_modify]
  split <;> simp

namespace SameLives

variable {w w₁ w' : World}

theorem refl (w : World) : SameLives w w :=
  ⟨fun _ => rfl, fun _ => rel_refl Context.SameCharge.refl _⟩

theorem trans (h₁ : SameLives w w₁) (h₂ : SameLives w₁ w') : SameLives w w' where
  slots i := (h₂.slots i).trans (h₁.slots i)
  charge d := rel_trans (h₁.charge d) (h₂.charge d) Context.SameCharge.trans

theorem back (h : SameLives w w') {d : Ctx} {y' : Context} (hy' : w'.ctx? d = some y') :
    ∃ y, w.ctx? d = some y ∧ y.SameCharge y' :=
  rel_some_right (h.charge d) hy'

theorem forth (h : SameLives w w') {d : Ctx} {y : Context} (hy : w.ctx? d = some y) :
    ∃ y', w'.ctx? d = some y' ∧ y.SameCharge y' :=
  rel_some_left (h.charge d) hy

theorem of_views (hm : w'.main = w.main) (hs : w'.slots = w.slots) : SameLives w w' where
  slots i := by rw [hs]
  charge d := by
    rw [ctx?_congr hm hs]
    exact rel_refl Context.SameCharge.refl _

theorem modifyLock (w : World) (l : LockRef) (f : LockCell → LockCell) :
    SameLives w (w.modifyLock l f) :=
  of_views (by cases l <;> rfl) (modifyLock_slots w l f)

theorem dropRefs (w : World) (keys : List Nat) : SameLives w (w.dropRefs keys) :=
  of_views (by unfold World.dropRefs; split <;> rfl) (by unfold World.dropRefs; split <;> rfl)

/-- A change of thread objects that keeps what their owners see and their threads. -/
theorem modifySlot (w : World) (i : Nat) (f : Slot → Slot) (hl : ∀ s, (f s).life = s.life)
    (hc : ∀ s, (f s).ctx = s.ctx) : SameLives w (w.modifySlot i f) where
  slots j := by
    simp only [World.modifySlot, Array.getElem?_modify]
    split
    · cases w.slots[j]? <;> simp [hl]
    · rfl
  charge d := by
    rw [ctx?_modifySlot_of_ctx w i hc]
    exact rel_refl Context.SameCharge.refl _

/-- Putting a context that is there in a state with the same moves, naming the same thread
objects. -/
theorem put {c : Ctx} {x x' : Context} (hx : w.ctx? c = some x) (hc : x.SameCharge x') :
    SameLives w (w.put c x') where
  slots := life_put x' (by simp [hx])
  charge := rel_ctx_put (fun _ => rel_refl Context.SameCharge.refl _) hx hc

theorem wake (w : World) (c : Ctx) : SameLives w (w.wake c) := by
  unfold World.wake
  split
  · rename_i x hx
    exact put hx ⟨rfl, rfl⟩
  · exact refl w

theorem signal (w : World) (cv : CondRef) : SameLives w (w.signal cv) :=
  signal_of_wake refl wake w cv

theorem broadcast (w : World) (cv : CondRef) : SameLives w (w.broadcast cv) :=
  broadcast_of_wake refl (fun h₁ h₂ => h₁.trans h₂) wake w cv

theorem update (w : World) (m : Nat) (f : Int64 → Int64) (v : Int64) :
    SameLives w (w.update m f v) :=
  of_views rfl rfl

theorem modifyValue (w : World) (m : Nat) (f : Int64 → Int64) :
    SameLives w (w.modifyValue m f) :=
  of_views rfl rfl

theorem modifyLatch (w : World) (k : Nat) (f : LatchCell → LatchCell) :
    SameLives w (w.modifyLatch k f) :=
  of_views rfl rfl

end SameLives

/-! ### Who names and adopts a thread object -/

/-- Thread object `i` is named in the scope of some context. -/
def Owned (w : World) (i : Nat) : Prop :=
  ∃ d y, w.ctx? d = some y ∧ i ∈ y.scope.threads.map Prod.snd

/-- Some context is about to adopt the tid of thread object `i`. -/
def UnderAdoption (w : World) (i : Nat) : Prop :=
  ∃ d y, w.ctx? d = some y ∧ .adopt i ∈ y.code

theorem owned_congr {w w' : World} (h : ∀ d, w'.ctx? d = w.ctx? d) (i : Nat) :
    w'.Owned i ↔ w.Owned i := by
  simp only [Owned, h]

theorem underAdoption_congr {w w' : World} (h : ∀ d, w'.ctx? d = w.ctx? d) (i : Nat) :
    w'.UnderAdoption i ↔ w.UnderAdoption i := by
  simp only [UnderAdoption, h]

/-- An adoption is kept by a move of context `c` that keeps its own, when every other context
keeps its moves. -/
theorem UnderAdoption.move {w w' : World} {c : Ctx} {x x' : Context} {i : Nat}
    (h : w.UnderAdoption i) (hx : w.ctx? c = some x) (hx' : w'.ctx? c = some x')
    (hkeep : .adopt i ∈ x.code → .adopt i ∈ x'.code)
    (hother : ∀ d y, d ≠ c → w.ctx? d = some y → ∃ y', w'.ctx? d = some y' ∧ y'.code = y.code) :
    w'.UnderAdoption i := by
  obtain ⟨d, y, hy, hm⟩ := h
  by_cases hd : d = c
  · subst hd
    rw [hx] at hy
    cases hy
    exact ⟨d, x', hx', hkeep hm⟩
  · obtain ⟨y', hy', hc⟩ := hother d y hd hy
    exact ⟨d, y', hy', by rw [hc]; exact hm⟩

/-- From `w` to `w'` no context comes to name a thread object: each context of `w'` is new and
names none and adopts nothing, or was there and names what it did or less, and an adoption it has
is of an object it names, or one it had while naming the same. -/
def Narrows (w w' : World) : Prop :=
  ∀ d y', w'.ctx? d = some y' → (y'.scope.threads = [] ∧ ∀ i, .adopt i ∉ y'.code) ∨
    ∃ y, w.ctx? d = some y ∧ y'.scope.threads.Sublist y.scope.threads ∧
      ∀ i, .adopt i ∈ y'.code → i ∈ y'.scope.threads.map Prod.snd ∨
        (.adopt i ∈ y.code ∧ y'.scope.threads = y.scope.threads)

namespace Narrows

variable {w w₁ w' : World}

theorem of_ctx (h : ∀ d, w'.ctx? d = w.ctx? d) : Narrows w w' := fun d y' hy' =>
  .inr ⟨y', by rw [← h d]; exact hy', .refl _, fun _ hm => .inr ⟨hm, rfl⟩⟩

theorem of_same (h : SameLives w w') : Narrows w w' := fun _ _ hy' => by
  obtain ⟨y, hy, hc, ht⟩ := h.back hy'
  refine .inr ⟨y, hy, by rw [ht], fun _ hm => .inr ⟨by rwa [hc] at hm, ht⟩⟩

theorem trans (h₁ : Narrows w w₁) (h₂ : Narrows w₁ w') : Narrows w w' := by
  intro d y'' hy''
  rcases h₂ d y'' hy'' with hnew | ⟨y', hy', hsub', had'⟩
  · exact .inl hnew
  rcases h₁ d y' hy' with ⟨hnil, hno⟩ | ⟨y, hy, hsub, had⟩
  · -- a context that was new names nothing and adopts nothing still
    have hnil' : y''.scope.threads = [] := List.sublist_nil.mp (hnil ▸ hsub')
    refine .inl ⟨hnil', fun i hm => ?_⟩
    rcases had' i hm with hi | ⟨hm', -⟩
    · simp [hnil'] at hi
    · exact hno i hm'
  · refine .inr ⟨y, hy, hsub'.trans hsub, fun i hm => ?_⟩
    rcases had' i hm with hi | ⟨hm', he'⟩
    · exact .inl hi
    · rcases had i hm' with hi | ⟨hm, he⟩
      · exact .inl (he' ▸ hi)
      · exact .inr ⟨hm, he'.trans he⟩

theorem put {c : Ctx} {x x' : Context} (h : Narrows w w₁) (hx : w.ctx? c = some x)
    (hsub : x'.scope.threads.Sublist x.scope.threads)
    (had : ∀ i, .adopt i ∈ x'.code → i ∈ x'.scope.threads.map Prod.snd ∨
      (.adopt i ∈ x.code ∧ x'.scope.threads = x.scope.threads)) :
    Narrows w (w₁.put c x') := by
  intro d y' hy'
  rcases ctx?_put_some hy' with ⟨rfl, rfl⟩ | ⟨-, hy'⟩
  · exact .inr ⟨x, hx, hsub, had⟩
  · exact h d y' hy'

/-- Giving a thread object a new thread that names and adopts nothing. -/
theorem modifySlot {i : Nat} {f : Slot → Slot} {t : Context} (hf : ∀ s, (f s).ctx = some t)
    (ht : t.scope.threads = []) (hta : ∀ j, .adopt j ∉ t.code) :
    Narrows w (w.modifySlot i f) := by
  intro d y' hy'
  rcases ctx?_modifySlot_some hf hy' with ⟨-, rfl⟩ | hy'
  · exact .inl ⟨ht, hta⟩
  · exact .inr ⟨y', hy', .refl _, fun _ hm => .inr ⟨hm, rfl⟩⟩

/-- A context that names a thread object after named it before. -/
theorem back (h : Narrows w w') {d : Ctx} {y' : Context} (hy' : w'.ctx? d = some y') {i : Nat}
    (hi : i ∈ y'.scope.threads.map Prod.snd) :
    ∃ y, w.ctx? d = some y ∧ i ∈ y.scope.threads.map Prod.snd := by
  rcases h d y' hy' with ⟨hnil, -⟩ | ⟨y, hy, hsub, -⟩
  · simp [hnil] at hi
  · exact ⟨y, hy, (hsub.map _).subset hi⟩

theorem owned (h : Narrows w w') {i : Nat} (hi : w'.Owned i) : w.Owned i := by
  obtain ⟨d, y', hy', hi'⟩ := hi
  obtain ⟨y, hy, hi⟩ := h.back hy' hi'
  exact ⟨d, y, hy, hi⟩

end Narrows

/-! ### The invariant -/

/-- The life of every thread object, in a process that has not aborted. -/
structure Lifecycle (w : World) : Prop where
  /-- The flags of every thread object agree. -/
  slots : ∀ (i : Nat) (s : Slot), w.slots[i]? = some s → s.Sane (w.Owned i) (w.UnderAdoption i)
  /-- Each thread object a context names exists. -/
  named : ∀ d y, w.ctx? d = some y → ∀ i ∈ y.scope.threads.map Prod.snd, (w.slots[i]?).isSome
  /-- No scope has two ids of one thread object. -/
  distinct : ∀ d y, w.ctx? d = some y → (y.scope.threads.map Prod.snd).Nodup
  /-- No two contexts name one thread object. -/
  sole : ∀ d e y z (i : Nat), w.ctx? d = some y → w.ctx? e = some z →
    i ∈ y.scope.threads.map Prod.snd → i ∈ z.scope.threads.map Prod.snd → d = e
  /-- A context adopts the tid of a thread object it names. -/
  adopter : ∀ d y (i : Nat), w.ctx? d = some y → .adopt i ∈ y.code →
    i ∈ y.scope.threads.map Prod.snd

section
variable {w w₁ w' : World} {c : Ctx} {x x' : Context}

/-- A change in which no context comes to name a thread object and none goes: the invariant holds
once the flags of every thread object agree. -/
theorem Lifecycle.follow (hl : w.Lifecycle) (hf : Narrows w w')
    (hsize : ∀ i : Nat, (w.slots[i]?).isSome → (w'.slots[i]?).isSome)
    (hslots : ∀ (i : Nat) (s' : Slot), w'.slots[i]? = some s' →
      s'.Sane (w'.Owned i) (w'.UnderAdoption i)) : w'.Lifecycle where
  slots := hslots
  named d y' hy' i hi := by
    obtain ⟨y, hy, hi⟩ := hf.back hy' hi
    exact hsize i (hl.named d y hy i hi)
  distinct d y' hy' := by
    rcases hf d y' hy' with ⟨hnil, -⟩ | ⟨y, hy, hsub, -⟩
    · simp [hnil]
    · exact (hl.distinct d y hy).sublist (hsub.map _)
  sole d e y' z' i hy' hz' hi hj := by
    obtain ⟨y, hy, hi⟩ := hf.back hy' hi
    obtain ⟨z, hz, hj⟩ := hf.back hz' hj
    exact hl.sole d e y z i hy hz hi hj
  adopter d y' i hy' hm := by
    rcases hf d y' hy' with ⟨-, hno⟩ | ⟨y, hy, -, had⟩
    · exact absurd hm (hno i)
    · rcases had i hm with hi | ⟨hm, he⟩
      · exact hi
      · rw [he]
        exact hl.adopter d y i hy hm

/-- A thread object that looks to its owner as it did keeps its flags in agreement, when an
adoption of it is kept. -/
theorem Lifecycle.sane_keep (hl : w.Lifecycle) (hf : Narrows w w') {i : Nat}
    (hs : (w'.slots[i]?).map Slot.life = (w.slots[i]?).map Slot.life)
    (had : w.UnderAdoption i → w'.UnderAdoption i) {s' : Slot} (hs' : w'.slots[i]? = some s') :
    s'.Sane (w'.Owned i) (w'.UnderAdoption i) := by
  simp only [hs', Option.map_some] at hs
  obtain ⟨s, hs₀, hlife⟩ := Option.map_eq_some_iff.mp hs.symm
  exact ((hl.slots i s hs₀).of_life hlife.symm).mono hf.owned had

/-- A change that makes no context name a new object, and alters at most object `i`, keeps the
invariant once the flags of `i` agree. -/
theorem Lifecycle.reslot (hl : w.Lifecycle) (hf : Narrows w w')
    (hsize : ∀ j : Nat, (w.slots[j]?).isSome → (w'.slots[j]?).isSome) (i : Nat)
    (hs : ∀ j : Nat, j ≠ i → (w'.slots[j]?).map Slot.life = (w.slots[j]?).map Slot.life)
    (had : ∀ j, j ≠ i → w.UnderAdoption j → w'.UnderAdoption j)
    (hslot : ∀ s', w'.slots[i]? = some s' → s'.Sane (w'.Owned i) (w'.UnderAdoption i)) :
    w'.Lifecycle :=
  hl.follow hf hsize fun j s' hs' => by
    by_cases hj : j = i
    · subst hj
      exact hslot s' hs'
    · exact hl.sane_keep hf (hs j hj) (had j hj) hs'

/-- A change in which no context comes to name a thread object, every thread object looks to its
owner as it did, and every adoption is kept. -/
theorem Lifecycle.keep (hl : w.Lifecycle) (hf : Narrows w w')
    (hs : ∀ i : Nat, (w'.slots[i]?).map Slot.life = (w.slots[i]?).map Slot.life)
    (had : ∀ i, w.UnderAdoption i → w'.UnderAdoption i) : w'.Lifecycle :=
  hl.follow hf (fun i h => by
      have he := congrArg Option.isSome (hs i)
      simp only [Option.isSome_map] at he
      rwa [he])
    fun i _ hs' => hl.sane_keep hf (hs i) (had i) hs'

/-- A move of `c` to `x'`, between changes no owner sees, keeps the invariant when the mover names
no more objects and keeps its adoptions. -/
theorem Lifecycle.put (hl : w.Lifecycle) (hx : w.ctx? c = some x) (h₁ : SameLives w w₁)
    (h₂ : SameLives (w₁.put c x') w') (hsub : x'.scope.threads.Sublist x.scope.threads)
    (had : ∀ i, .adopt i ∈ x'.code → .adopt i ∈ x.code ∧ x'.scope.threads = x.scope.threads)
    (hkeep : ∀ i, .adopt i ∈ x.code → .adopt i ∈ x'.code) : w'.Lifecycle := by
  obtain ⟨x₁, hx₁, -⟩ := h₁.forth hx
  have hput : (w₁.put c x').ctx? c = some x' := ctx_put_self _ _ _ (by simp [hx₁])
  obtain ⟨x₂, hx₂, hc₂, -⟩ := h₂.forth hput
  refine hl.keep (((Narrows.of_same h₁).put hx hsub fun i hm => .inr (had i hm)).trans
    (.of_same h₂)) (fun i => ?_) fun i ha => ha.move hx hx₂ (fun hm => hc₂ ▸ hkeep i hm) ?_
  · exact ((h₂.slots i).trans (life_put x' (by simp [hx₁]) i)).trans (h₁.slots i)
  · -- every other context keeps its moves
    intro d y hd hy
    obtain ⟨y₁, hy₁, hc₁, -⟩ := h₁.forth hy
    obtain ⟨y', hy', hc', -⟩ := h₂.forth (by rwa [ctx?_put_ne _ _ hd])
    exact ⟨y', hy', hc'.trans hc₁⟩

/-- A move that takes its own move, which is no adoption, off the mover's code. -/
theorem Lifecycle.pop {op : Op} {rest : List Op} (hl : w.Lifecycle) (hx : w.ctx? c = some x)
    (hcode : x.code = op :: rest) (hop : ∀ i, op ≠ .adopt i) (h₁ : SameLives w w₁)
    (h₂ : SameLives (w₁.put c x') w') (ht : x'.scope.threads = x.scope.threads)
    (hc : ∀ i, .adopt i ∈ x'.code ↔ .adopt i ∈ rest) : w'.Lifecycle := by
  refine hl.put hx h₁ h₂ (ht ▸ .refl _) (fun i h => ⟨?_, ht⟩) fun i h => ?_
  · rw [hcode]
    exact List.mem_cons_of_mem _ ((hc i).mp h)
  · rw [hcode] at h
    rcases List.mem_cons.mp h with he | h
    · exact absurd he.symm (hop i)
    · exact (hc i).mpr h

/-- A change no owner sees keeps the invariant. -/
theorem Lifecycle.same (hl : w.Lifecycle) (h : SameLives w w') : w'.Lifecycle :=
  hl.keep (.of_same h) h.slots fun _ ⟨d, y, hy, hm⟩ => by
    obtain ⟨y', hy', hc, -⟩ := h.forth hy
    exact ⟨d, y', hy', by rw [hc]; exact hm⟩

/-- A thread object that a context with no moves left names is being adopted by no one: only its
owner could adopt it. -/
theorem Lifecycle.idle (hl : w.Lifecycle) (hx : w.ctx? c = some x) (hcode : x.code = [])
    {i : Nat} (hown : i ∈ x.scope.threads.map Prod.snd) {s : Slot} (hs : w.slots[i]? = some s) :
    s.Sane True False :=
  (hl.slots i s hs).mono (fun _ => ⟨c, x, hx, hown⟩) fun ⟨d, y, hy, hm⟩ => by
    obtain rfl := hl.sole d c y x i hy hx (hl.adopter d y i hy hm) hown
    rw [hx] at hy
    cases hy
    simp [hcode] at hm

theorem getElem?_modifySlot_ne (w : World) {i j : Nat} (f : Slot → Slot) (h : j ≠ i) :
    (w.modifySlot i f).slots[j]? = w.slots[j]? := by
  simp [World.modifySlot, Array.getElem?_modify, Ne.symm h]

/-- A thread object whose thread is not context `c` lies where it did once `c` is put. -/
theorem getElem?_put_ne (w : World) {c : Ctx} (y : Context) {i : Nat} (h : c ≠ .thread i) :
    (w.put c y).slots[i]? = w.slots[i]? := by
  rw [slots_put_eq]
  cases w.slots[i]? <;> simp [h]

/-- No context is the thread of an object not yet started. -/
theorem Lifecycle.ne_unstarted (hl : w.Lifecycle) (hx : w.ctx? c = some x) {i : Nat} {s : Slot}
    (hsl : w.slots[i]? = some s) (hst : s.started = false) : c ≠ .thread i := by
  rintro rfl
  have hctx : s.ctx.isSome := by simpa [ctx?_thread, hsl] using congrArg Option.isSome hx
  rw [(hl.slots i s hsl).thread, hst] at hctx
  cases hctx

/-- Context `c` adopts the tid of thread object `i`, whose thread is not `c` and has published a
positive tid. -/
theorem Lifecycle.adopt_slot (hl : w.Lifecycle) (hx : w.ctx? c = some x) {i : Nat}
    {rest : List Op} (hcode : x.code = .adopt i :: rest) (hne : c ≠ .thread i) {s : Slot}
    (hsl : w.slots[i]? = some s) (hpos : 0 < s.published) {u : World}
    (hu : ∀ d, u.ctx? d = w.ctx? d) (hus : u.slots = w.slots) (hc : x'.code = rest)
    (ht : x'.scope.threads = x.scope.threads) :
    ((u.put c x').modifySlot i fun s => { s with tid := s.published }).Lifecycle := by
  have hctx : ∀ d, ((u.put c x').modifySlot i fun s => { s with tid := s.published }).ctx? d =
      (u.put c x').ctx? d := ctx?_modifySlot_of_ctx _ i (fun _ => rfl)
  have hx' : (u.put c x').ctx? c = some x' := ctx_put_self _ _ _ (by simp [hu, hx])
  have hf : Narrows w ((u.put c x').modifySlot i fun s => { s with tid := s.published }) :=
    (((Narrows.of_ctx hu).put hx (ht ▸ .refl _) fun j hm => .inr ⟨by
      rw [hcode, ← hc]
      exact List.mem_cons_of_mem _ hm, ht⟩)).trans (.of_ctx hctx)
  refine hl.reslot hf (fun j h => by simpa [hus] using h) i (fun j hj => ?_) (fun j hj ha => ?_)
    fun s' hs' => ?_
  · rw [getElem?_modifySlot_ne _ _ hj, life_put x' (by simp [hu, hx]) j, hus]
  · refine ha.move hx (by rw [hctx]; exact hx') (fun hm => ?_) fun d y hd hy =>
      ⟨y, by rw [hctx, ctx?_put_ne _ _ hd, hu]; exact hy, rfl⟩
    rw [hcode] at hm
    rw [hc]
    exact (List.mem_cons.mp hm).resolve_left fun he => hj (Op.adopt.inj he)
  · -- the adopted object now has a positive tid
    have h := hl.slots i s hsl
    simp only [World.modifySlot, Array.getElem?_modify, getElem?_put_ne _ _ hne, hus, hsl,
      if_true, Option.map_some, Option.some.injEq] at hs'
    subst hs'
    exact ⟨fun ho => h.program (hf.owned ho), fun ho => h.handle (hf.owned ho), h.thread,
      h.joined, fun _ h0 => absurd h0 (Nat.pos_iff_ne_zero.mp hpos), h.captured⟩

/-- A context adopting the tid of thread object `i` does so once the thread has published it. -/
theorem Lifecycle.adopt {i : Nat} {rest : List Op} (hl : w.Lifecycle) (hh : w.Handshake)
    (hx : w.ctx? c = some x) (hcode : x.code = .adopt i :: rest) :
    (w.exec c { x with code := rest } (.adopt i)).Lifecycle := by
  obtain ⟨hne, s, -, -, hsl, -, -, -, -, -, hpos⟩ := hh.ready hx hcode
  simp only [World.exec, hsl]
  exact hl.adopt_slot hx hcode hne hsl hpos (fun d => by cases d <;> rfl) rfl rfl rfl

/-- A step that fails: main answers with the failure, a managed thread unwinds; neither comes to
name a thread object nor adopts one. -/
theorem Lifecycle.failStep (hl : w.Lifecycle) (hx : w.ctx? c = some x) (hcode : x.code = [])
    (h₁ : SameLives w w₁) (ht : x'.scope.threads = x.scope.threads) (hc : x'.code = [])
    (f : Failure) : (w₁.failStep c x' f).Lifecycle := by
  cases c with
  | main =>
    exact hl.put hx h₁ (.refl _) (by simp [Context.answer, ht])
      (fun i h => by simp [Context.answer, hc] at h) fun i h => by simp [hcode] at h
  | thread j =>
    exact hl.put hx h₁ (.refl _) (by simp [ht]) (fun i h => by simp [Op.unlockKept] at h)
      fun i h => by simp [hcode] at h

/-- A change of object `i` by its owner `c`, which adopts nothing, keeps the invariant once the
flags of `i` agree. -/
theorem Lifecycle.change (hl : w.Lifecycle) (hx : w.ctx? c = some x) (hcode : x.code = [])
    {i : Nat} (hown : i ∈ x.scope.threads.map Prod.snd) {s : Slot} (hsl : w.slots[i]? = some s)
    {g : Slot → Slot} (hg : ∀ s, (g s).ctx = s.ctx) {y : Context}
    (hsub : y.scope.threads.Sublist x.scope.threads) (hyc : ∀ j, .adopt j ∉ y.code)
    (hslot : (g s).Sane (i ∈ y.scope.threads.map Prod.snd) False) :
    ((w.modifySlot i g).put c y).Lifecycle := by
  have hctx : ∀ d, (w.modifySlot i g).ctx? d = w.ctx? d := ctx?_modifySlot_of_ctx w i hg
  have hy : ((w.modifySlot i g).put c y).ctx? c = some y := ctx_put_self _ _ _ (by simp [hctx, hx])
  refine hl.reslot ((Narrows.of_ctx hctx).put hx hsub fun j hm => absurd hm (hyc j))
    (fun j h => by simpa using h) i (fun j hj => ?_) (fun j hj ha => ?_) fun s' hs' => ?_
  · rw [life_put y (by simp [hctx, hx]) j, getElem?_modifySlot_ne _ _ hj]
  · exact ha.move hx hy (fun hm => by simp [hcode] at hm) fun d z hd hz =>
      ⟨z, by rw [ctx?_put_ne _ _ hd, hctx]; exact hz, rfl⟩
  · have hlife := life_put (w := w.modifySlot i g) (c := c) y (by simp [hctx, hx]) i
    rw [hs'] at hlife
    simp only [World.modifySlot, Array.getElem?_modify, hsl, if_true, Option.map_some,
      Option.some.injEq] at hlife
    refine (hslot.of_life hlife).mono (fun hown' => ?_) False.elim
    obtain ⟨d, z, hz, hi⟩ := hown'
    -- another context naming the object would have named it before, beside `c`
    rcases ctx?_put_some hz with ⟨-, rfl⟩ | ⟨hd, hz⟩
    · exact hi
    · rw [hctx] at hz
      exact absurd (hl.sole d c z x i hz hx hi hown) hd

/-- Context `c` gives unjoined thread object `i`, which it names, a thread whose scope names no
thread object and whose code adopts nothing, and its handle, and waits to adopt its tid. -/
theorem Lifecycle.spawn (hl : w.Lifecycle) (hx : w.ctx? c = some x) (hcode : x.code = [])
    {i k : Nat} (hown : i ∈ x.scope.threads.map Prod.snd) {s : Slot}
    (hsl : w.slots[i]? = some s) (hst : s.started = false) {u : World}
    (hu : ∀ d, u.ctx? d = w.ctx? d) (hus : u.slots = w.slots) {t : Context} {f : Slot → Slot}
    (hf : ∀ s, (f s).ctx = some t) (htt : t.scope.threads = []) (hta : ∀ j, .adopt j ∉ t.code)
    (hfs : ∀ s, (f s).started = true) (hfp : ∀ s, (f s).program = none)
    (hfh : ∀ s, (f s).handle = true) (hfj : ∀ s, (f s).joined = s.joined)
    (ht : x'.scope.threads = x.scope.threads) :
    ((u.modifySlot i f).install c x' (awaitSpawnCode i k)).Lifecycle := by
  have hs := hl.idle hx hcode hown hsl
  have hne := hl.ne_unstarted hx hsl hst
  have hc₁ : (u.modifySlot i f).ctx? c = w.ctx? c := by rw [ctx?_modifySlot_ne _ _ hne, hu]
  have hy : ((u.modifySlot i f).install c x' (awaitSpawnCode i k)).ctx? c =
      some { x' with code := awaitSpawnCode i k } := ctx_put_self _ _ _ (by simp [hc₁, hx])
  have hf' : Narrows w ((u.modifySlot i f).install c x' (awaitSpawnCode i k)) :=
    ((Narrows.of_ctx hu).trans (.modifySlot hf htt hta)).put hx (by simp [ht]) fun j hm => by
      simp only [awaitSpawnCode, Op.scoped, List.cons_append, List.nil_append, List.mem_cons,
        reduceCtorEq, Op.adopt.injEq, List.not_mem_nil, or_false, false_or] at hm
      subst hm
      exact .inl (by simpa [ht] using hown)
  refine hl.reslot hf' (fun j h => by simpa [install, hus] using h) i (fun j hj => ?_)
    (fun j hj ha => ?_) fun s' hs' => ?_
  · rw [install, life_put _ (by simp [hc₁, hx]) j, getElem?_modifySlot_ne _ _ hj, hus]
  · -- the object had no thread, so every adoption is another context's, kept
    refine ha.move hx hy (fun hm => by simp [hcode] at hm) fun d y hd hy' => ⟨y, ?_, rfl⟩
    have hdi : d ≠ .thread i := by
      rintro rfl
      have : s.ctx.isSome := by simpa [ctx?_thread, hsl] using congrArg Option.isSome hy'
      rw [hs.thread, hst] at this
      cases this
    rw [install, ctx?_put_ne _ _ hd, ctx?_modifySlot_ne _ _ hdi, hu]
    exact hy'
  · have hj : s.joined = false := by
      cases h : s.joined
      · rfl
      · exact absurd (hs.joined h) (by simp [hst])
    simp only [install, getElem?_put_ne _ _ hne, World.modifySlot, Array.getElem?_modify, hus,
      hsl, if_true, Option.map_some, Option.some.injEq] at hs'
    subst hs'
    refine ⟨fun _ => by simp [hfp, hfs], fun _ => by simp [hfh, hfs, hfj, hj], by simp [hf, hfs],
      fun _ => hfs s, fun _ _ => ⟨c, _, hy, ?_⟩, fun p hp => by simp [hfp] at hp⟩
    simp [awaitSpawnCode, Op.scoped]

/-- Starting object `i` that `c` names keeps the invariant, unless the process aborts. -/
theorem Lifecycle.start {i : Nat} {s : Slot} (hl : w.Lifecycle) (hx : w.ctx? c = some x)
    (hcode : x.code = []) (hsl : w.slots[i]? = some s) (hown : i ∈ x.scope.threads.map Prod.snd)
    (ht : x'.scope.threads = x.scope.threads) (hc : x'.code = []) :
    (w.start c x' i s).abort = none → (w.start c x' i s).Lifecycle := by
  unfold World.start
  split
  · exact fun _ => hl.failStep hx hcode (.refl w) ht hc _
  · rename_i hst
    split
    · intro ha
      cases ha
    · rename_i actions captured hp
      split
      · -- the object counts as started but has no thread: only the abort leaves this world
        intro ha
        dsimp only at ha
        split at ha
        · rename_i hab
          rw [ha] at hab
          cases hab
        · cases ha
      · intro _
        exact hl.spawn hx hcode hown hsl (by simpa using hst)
          (u := { w with latches := w.latches.push { count := 1 }, nextTid := w.nextTid + 1 })
          (fun d => by cases d <;> rfl) rfl (fun _ => rfl)
          ((hl.idle hx hcode hown hsl).captured _ hp) (by simp [spawnCode, Op.scoped])
          (fun _ => rfl) (fun _ => rfl) (fun _ => rfl) (fun _ => rfl) ht

/-- Joining object `i` that `c` names keeps the invariant, unless the process aborts. -/
theorem Lifecycle.join {i : Nat} {s : Slot} (hl : w.Lifecycle) (hx : w.ctx? c = some x)
    (hcode : x.code = []) (hsl : w.slots[i]? = some s) (hown : i ∈ x.scope.threads.map Prod.snd)
    (ht : x'.scope.threads = x.scope.threads) (hc : x'.code = []) :
    (w.join c x' i s).abort = none → (w.join c x' i s).Lifecycle := by
  unfold World.join
  split
  · exact fun _ => hl.failStep hx hcode (.refl w) ht hc _
  · split
    · exact fun _ => hl.failStep hx hcode (.refl w) ht hc _
    · split
      · intro ha
        cases ha
      · rename_i hst _ _
        intro _
        have h := hl.idle hx hcode hown hsl
        refine hl.change hx hcode hown hsl (g := fun s => { s with joined := true, handle := false })
          (y := { x' with code := [.awaitEnd i, .complete] }) (fun _ => rfl) (by simp [ht])
          (by simp) ⟨fun _ => h.program trivial, fun _ => by simp, h.thread,
            fun _ => by simpa using hst, fun hs h0 => h.tid hs h0, h.captured⟩

/-- Context `c` drops a thread object that id `t` names, changing none of the flags its thread
sees: `c` forgets the id, after which no id names the object. -/
theorem Lifecycle.drop (hl : w.Lifecycle) (hx : w.ctx? c = some x) (hcode : x.code = [])
    {t : Named} (hlk : x.scope.threads.lookup t.id = some t.key) {s : Slot}
    (hsl : w.slots[t.key]? = some s) {g : Slot → Slot}
    (hg : ∀ s, (g s).ctx = s.ctx ∧ (g s).started = s.started ∧ (g s).joined = s.joined ∧
      (g s).tid = s.tid ∧ ((g s).program = s.program ∨ (g s).program = none)) {y : Context}
    (hthreads : y.scope.threads = (x.scope.forgetThread t.id).threads) (hyc : y.code = []) :
    ((w.modifySlot t.key g).put c y).Lifecycle := by
  have hmem := Scope.mem_of_lookup hlk
  have hown : t.key ∈ x.scope.threads.map Prod.snd := List.mem_map.mpr ⟨_, hmem, rfl⟩
  have h := hl.idle hx hcode hown hsl
  have hnamed : t.key ∉ y.scope.threads.map Prod.snd := by
    intro hn
    obtain ⟨⟨id, k⟩, hn, hk⟩ := List.mem_map.mp hn
    obtain rfl : k = t.key := hk
    have hn' : (id, t.key) ∈ x.scope.threads ∧ id ≠ t.id := by
      simpa [Scope.forgetThread, hthreads] using hn
    exact hn'.2 (Scope.id_unique (hl.distinct c x hx) hn'.1 hmem)
  obtain ⟨hc, hs, hj, ht, hp⟩ := hg s
  refine hl.change hx hcode hown hsl (fun s => (hg s).1)
    (by rw [hthreads]; exact List.filter_sublist) (by simp [hyc])
    ⟨fun hn => absurd hn hnamed, fun hn => absurd hn hnamed, ?_, ?_, ?_, fun p hp' => ?_⟩
  · rw [hc, hs]; exact h.thread
  · rw [hj, hs]; exact h.joined
  · rw [hs, ht]; exact fun hst h0 => h.tid hst h0
  · rcases hp with hp | hp
    · exact h.captured p (hp ▸ hp')
    · rw [hp] at hp'
      cases hp'

/-- A new thread object that no context names, with no thread. -/
theorem Lifecycle.pushSlot (hl : w.Lifecycle) {s : Slot} (hsc : s.ctx = none)
    (hs : s.Sane False False) (n : Nat) :
    ({ w with slots := w.slots.push s, created := n } : World).Lifecycle := by
  have hctx := ctx?_pushSlot w n hsc
  refine hl.follow (.of_ctx hctx) (fun j h => by simp [Array.getElem?_push]; grind) fun j s' hs' => ?_
  simp only [Array.getElem?_push] at hs'
  split at hs'
  · -- the new object: no context names it, since each names one there was
    rename_i hj
    subst hj
    cases hs'
    refine hs.mono (fun ⟨d, z, hz, hi⟩ => ?_) False.elim
    rw [hctx] at hz
    simpa using hl.named d z hz _ hi
  · rename_i hj
    refine hl.sane_keep (.of_ctx hctx) ?_ (underAdoption_congr hctx j).mpr ?_
    · simp [Array.getElem?_push, hj]
    · simpa [Array.getElem?_push, hj] using hs'

/-- Context `c`, with no moves left, comes to name thread object `k`, which no context names and
whose flags agree as an owned object's do, by id `id`, in place of what `id` named. -/
theorem Lifecycle.bind (hl : w.Lifecycle) (hx : w.ctx? c = some x) (hcode : x.code = [])
    {k : Nat} {s : Slot} (hsl : w.slots[k]? = some s) (hfree : ¬w.Owned k)
    (hs : s.Sane True False) (id : String) {y : Context}
    (hthreads : y.scope.threads = (id, k) :: x.scope.threads.filter (·.1 != id))
    (hyc : y.code = []) : (w.put c y).Lifecycle := by
  have hc : (w.ctx? c).isSome := by simp [hx]
  have hmem : ∀ j, j ∈ y.scope.threads.map Prod.snd → j = k ∨ j ∈ x.scope.threads.map Prod.snd :=
    fun j hj => by
      rw [hthreads] at hj
      simp only [List.map_cons, List.mem_cons] at hj
      exact hj.imp_right fun h => (List.filter_sublist.map _).subset h
  have hy : (w.put c y).ctx? c = some y := ctx_put_self _ _ _ hc
  refine ⟨fun j s' hs' => ?_, fun d z hz j hj => ?_, fun d z hz => ?_,
    fun d e z z' j hz hz' hj hj' => ?_, fun d z j hz hm => ?_⟩
  · have hlife := life_put y hc j
    simp only [hs', Option.map_some] at hlife
    obtain ⟨s₀, hs₀, he⟩ := Option.map_eq_some_iff.mp hlife.symm
    by_cases hjk : j = k
    · subst hjk
      rw [hsl] at hs₀
      cases hs₀
      exact (hs.of_life he.symm).mono (fun _ => trivial) False.elim
    · refine ((hl.slots j s₀ hs₀).of_life he.symm).mono (fun ⟨d, z, hz, hi⟩ => ?_) fun ha => ?_
      · rcases ctx?_put_some hz with ⟨rfl, rfl⟩ | ⟨-, hz⟩
        · exact ⟨d, x, hx, (hmem j hi).resolve_left hjk⟩
        · exact ⟨d, z, hz, hi⟩
      · exact ha.move hx hy (fun hm => by simp [hcode] at hm) fun d z hd hz =>
          ⟨z, by rw [ctx?_put_ne _ _ hd]; exact hz, rfl⟩
  · rw [isSome_slots_put]
    rcases ctx?_put_some hz with ⟨rfl, rfl⟩ | ⟨-, hz⟩
    · rcases hmem j hj with rfl | hj
      · simp [hsl]
      · exact hl.named d x hx j hj
    · exact hl.named d z hz j hj
  · rcases ctx?_put_some hz with ⟨rfl, rfl⟩ | ⟨-, hz⟩
    · rw [hthreads, List.map_cons, List.nodup_cons]
      refine ⟨fun hk => hfree ⟨d, x, hx, (List.filter_sublist.map _).subset hk⟩,
        (hl.distinct d x hx).sublist (List.filter_sublist.map _)⟩
    · exact hl.distinct d z hz
  · -- two contexts naming one object: `c` names `k` alone, and the rest as before
    have hback : ∀ d z, (w.put c y).ctx? d = some z → j ∈ z.scope.threads.map Prod.snd →
        d = c ∨ (w.ctx? d = some z ∧ j ≠ k) := fun d z hz hj => by
      rcases ctx?_put_some hz with ⟨rfl, -⟩ | ⟨-, hz⟩
      · exact .inl rfl
      · exact .inr ⟨hz, fun he => hfree ⟨d, z, hz, he ▸ hj⟩⟩
    have hold : ∀ d z, (w.put c y).ctx? d = some z → j ∈ z.scope.threads.map Prod.snd → j ≠ k →
        ∃ z₀, w.ctx? d = some z₀ ∧ j ∈ z₀.scope.threads.map Prod.snd := fun d z hz hj hjk => by
      rcases ctx?_put_some hz with ⟨rfl, rfl⟩ | ⟨-, hz⟩
      · exact ⟨x, hx, (hmem j hj).resolve_left hjk⟩
      · exact ⟨z, hz, hj⟩
    rcases hback d z hz hj with rfl | ⟨-, hjk⟩ <;> rcases hback e z' hz' hj' with rfl | ⟨-, hjk'⟩
    · rfl
    · obtain ⟨z₀, hz₀, hj₀⟩ := hold d z hz hj hjk'
      obtain ⟨z₁, hz₁, hj₁⟩ := hold e z' hz' hj' hjk'
      exact hl.sole d e z₀ z₁ j hz₀ hz₁ hj₀ hj₁
    · obtain ⟨z₀, hz₀, hj₀⟩ := hold d z hz hj hjk
      obtain ⟨z₁, hz₁, hj₁⟩ := hold e z' hz' hj' hjk
      exact hl.sole d e z₀ z₁ j hz₀ hz₁ hj₀ hj₁
    · obtain ⟨z₀, hz₀, hj₀⟩ := hold d z hz hj hjk
      obtain ⟨z₁, hz₁, hj₁⟩ := hold e z' hz' hj' hjk
      exact hl.sole d e z₀ z₁ j hz₀ hz₁ hj₀ hj₁
  · rcases ctx?_put_some hz with ⟨rfl, rfl⟩ | ⟨-, hz⟩
    · simp [hyc] at hm
    · exact hl.adopter d z j hz hm

/-- Context `c` makes a thread object: it stands after every other, holds a function that names
no thread object and is not started, and `c` names it by its id. -/
theorem Lifecycle.threadNew (hl : w.Lifecycle) (hx : w.ctx? c = some x) (hcode : x.code = [])
    {s : Slot} (hsp : s.program.isSome) (hst : s.started = false) (hsc : s.ctx = none)
    (hsj : s.joined = false) (hsh : s.handle = false)
    (hcap : ∀ p, s.program = some p → p.2.threads = []) {y : Context}
    (hthreads : y.scope.threads = x.scope.threads) (hyc : y.code = []) (id : String) (n : Nat)
    (r : Reply) :
    ({ w with slots := w.slots.push s, created := n }.reply c
      { y with scope := y.scope.bindThread id w.slots.size } r).Lifecycle := by
  have hctx := ctx?_pushSlot w n hsc
  have hs : s.Sane True False := ⟨fun _ => by simp [hsp, hst], fun _ => by simp [hsh, hst],
    by simp [hsc, hst], fun h => by simp [hsj] at h, fun h => by simp [hst] at h, hcap⟩
  refine (hl.pushSlot hsc (hs.mono False.elim fun h => h) n).bind (k := w.slots.size)
    (by rw [hctx]; exact hx) hcode
    (by simp) (fun ⟨d, z, hz, hi⟩ => ?_) hs id ?_ (by simp [Context.answer, hyc])
  · rw [hctx] at hz
    simpa using hl.named d z hz _ hi
  · simp [Context.answer, Scope.bindThread, hthreads]

/-- Letting go of a thread object that no context names: it loses its function and its handle. -/
theorem Lifecycle.letGo (hl : w.Lifecycle) {i : Nat} (hi : ¬w.Owned i) :
    (w.modifySlot i fun s => { s with program := none, handle := false }).Lifecycle := by
  have hctx : ∀ d, (w.modifySlot i fun s => { s with program := none, handle := false }).ctx? d =
      w.ctx? d := ctx?_modifySlot_of_ctx w i (fun _ => rfl)
  refine hl.reslot (.of_ctx hctx) (fun j h => by simpa using h) i
    (fun j hj => by rw [getElem?_modifySlot_ne _ _ hj]) (fun j _ => (underAdoption_congr hctx j).mpr)
    fun s' hs' => ?_
  simp only [World.modifySlot, Array.getElem?_modify, if_true] at hs'
  obtain ⟨s, hs, rfl⟩ := Option.map_eq_some_iff.mp hs'
  have h := hl.slots i s hs
  rw [owned_congr hctx, underAdoption_congr hctx]
  exact ⟨fun ho => absurd ho hi, fun ho => absurd ho hi, h.thread, h.joined, h.tid,
    fun p hp => by cases hp⟩

/-- Letting go of thread objects that no context names. -/
theorem Lifecycle.release (hl : w.Lifecycle) (keys : List Nat) (hk : ∀ i ∈ keys, ¬w.Owned i) :
    (w.release keys).Lifecycle := by
  unfold World.release
  induction keys generalizing w with
  | nil => exact hl
  | cons i rest ih =>
    simp only [List.foldl_cons]
    refine ih (hl.letGo (hk i List.mem_cons_self)) fun j hj => ?_
    rw [owned_congr (ctx?_modifySlot_of_ctx w i
      (f := fun s => { s with program := none, handle := false }) (fun _ => rfl))]
    exact hk j (List.mem_cons_of_mem _ hj)

/-- Context `c`, adopting nothing, ends its function: its scope goes, and the thread objects it
named are let go. -/
theorem Lifecycle.finish (hl : w.Lifecycle) (hx : w.ctx? c = some x)
    (hno : ∀ i, .adopt i ∉ x.code) {y : Context} (hy : y.scope.threads = [])
    (hyc : ∀ i, .adopt i ∉ y.code) :
    ((w.put c y).release (x.scope.threads.map (·.2))).Lifecycle := by
  have h₁ : (w.put c y).Lifecycle := hl.put hx (.refl w) (.refl _) (by simp [hy])
    (fun i h => absurd h (hyc i)) fun i h => absurd h (hno i)
  refine h₁.release _ fun i hi ⟨d, z, hz, hiz⟩ => ?_
  rcases ctx?_put_some hz with ⟨-, rfl⟩ | ⟨hd, hz⟩
  · simp [hy] at hiz
  · exact hd (hl.sole d c z x i hz hx hiz hi)

/-- A context about to end its function adopts nothing: a context adopting a tid is in the
middle of a start. -/
theorem Handshake.no_adopt_at_finish (hh : w.Handshake) (hx : w.ctx? c = some x)
    {f : Option Failure} {rest : List Op} (hcode : x.code = .finish f :: rest) (i : Nat) :
    .adopt i ∉ x.code := by
  intro hm
  obtain ⟨-, s, k, -, -, hold⟩ := hh.starting c x i hx hm
  rw [hcode] at hold
  rcases hold with ⟨pre, hpre, heq⟩ | ⟨⟨hsuf, -⟩, -⟩
  · cases pre with
    | nil => simp [waitTail] at heq
    | cons a pre =>
      simp only [List.cons_append, List.cons.injEq] at heq
      rcases hpre with h | h <;> simpa [← heq.1] using h.subset List.mem_cons_self
  · simpa using hsuf.subset List.mem_cons_self


theorem Lifecycle.exec {op : Op} {rest : List Op} (hl : w.Lifecycle) (hh : w.Handshake)
    (hx : w.ctx? c = some x) (hcode : x.code = op :: rest) :
    (w.exec c { x with code := rest } op).Lifecycle := by
  have hpop : ∀ {x' : Context} {w₁ w' : World}, (∀ i, op ≠ .adopt i) →
      SameLives (w₁.put c x') w' → SameLives w w₁ → x'.scope.threads = x.scope.threads →
      (∀ i, .adopt i ∈ x'.code ↔ .adopt i ∈ rest) → w'.Lifecycle :=
    fun hop h₂ h₁ ht hc => hl.pop hx hcode hop h₁ h₂ ht hc
  have hput : (∀ i, op ≠ .adopt i) → (w.put c { x with code := rest }).Lifecycle :=
    fun hop => hpop hop (.refl _) (.refl w) rfl fun _ => Iff.rfl
  cases op with
  | acquire l =>
    simp only [World.exec]
    exact hpop (by simp) (.modifyLock _ _ _) (.refl w) rfl fun _ => Iff.rfl
  | assign l =>
    simp only [World.exec]
    split
    · rw [record_eq]
      exact hpop (by simp) (.modifyLock _ _ _) (.of_views rfl rfl) rfl fun _ => Iff.rfl
    · exact hput (by simp)
  | unassign l =>
    simp only [World.exec]
    split
    · exact hpop (by simp) (.modifyLock _ _ _) (.refl w) rfl fun _ => Iff.rfl
    · exact hput (by simp)
  | release l =>
    simp only [World.exec]
    split
    · exact hpop (by simp) (.modifyLock _ _ _) (.refl w) rfl fun _ => Iff.rfl
    · exact hput (by simp)
  | vacate l =>
    simp only [World.exec]
    split
    · exact hpop (by simp) (.modifyLock _ _ _) (.refl w) rfl fun _ => Iff.rfl
    · exact hput (by simp)
  | park cv l =>
    simp only [World.exec]
    split
    · exact hpop (by simp) (.modifyLock _ _ _) (.of_views rfl rfl) rfl fun _ => Iff.rfl
    · exact hput (by simp)
  | reclaim l =>
    simp only [World.exec]
    split
    · rw [record_eq]
      exact hpop (by simp) (.modifyLock _ _ _) (.of_views rfl rfl) rfl fun _ => Iff.rfl
    · exact hput (by simp)
  | waitWhile cv l p =>
    simp only [World.exec]
    split
    · exact hpop (by simp) (.refl _) (.refl w) rfl fun _ => by simp
    · exact hput (by simp)
  | signal cv =>
    simp only [World.exec]
    exact hpop (by simp) (.signal _ _) (.refl w) rfl fun _ => Iff.rfl
  | broadcast cv =>
    simp only [World.exec]
    exact hpop (by simp) (.broadcast _ _) (.refl w) rfl fun _ => Iff.rfl
  | read m =>
    simp only [World.exec]
    split
    · exact hpop (by simp) (.refl _) (.refl w) rfl fun _ => Iff.rfl
    · exact hput (by simp)
  | write m f =>
    simp only [World.exec]
    split
    · exact hpop (by simp) (.update _ _ _ _) (.refl w) rfl fun _ => Iff.rfl
    · exact hput (by simp)
  | countDown k =>
    simp only [World.exec]
    split
    · have hq₀ := SameLives.modifyLatch (w.put c { x with code := rest }) k
        fun l => { l with downs := l.downs + 1 }
      split
      · exact hpop (by simp) hq₀ (.refl w) rfl fun _ => Iff.rfl
      · exact hpop (by simp) ((hq₀.trans (.modifyLatch _ k fun l => { l with count := 0 })).trans
          (.broadcast _ _)) (.refl w) rfl fun _ => Iff.rfl
      · rename_i n _
        exact hpop (by simp) (hq₀.trans (.modifyLatch _ k fun l => { l with count := n + 1 }))
          (.refl w) rfl fun _ => Iff.rfl
    · exact hput (by simp)
  | keep m =>
    simp only [World.exec]
    exact hpop (by simp) (.refl _) (.refl w) rfl fun _ => Iff.rfl
  | unkeep m =>
    simp only [World.exec]
    exact hpop (by simp) (.refl _) (.refl w) rfl fun _ => Iff.rfl
  | note q =>
    simp only [World.exec]
    split
    · exact hpop (by simp) (.refl _) (.of_views rfl rfl) rfl fun _ => Iff.rfl
    · exact hpop (by simp) (.refl _) (.refl w) rfl fun _ => Iff.rfl
  | complete =>
    simp only [World.exec]
    exact hpop (by simp) (.refl _) (.refl w) rfl fun _ => Iff.rfl
  | publish i =>
    simp only [World.exec]
    exact hpop (by simp) (.modifySlot _ i _ (fun _ => rfl) fun _ => rfl) (.of_views rfl rfl) rfl
      fun _ => Iff.rfl
  | rename n =>
    simp only [World.exec]
    exact hpop (by simp) (.refl _) (.refl w) rfl fun _ => Iff.rfl
  | adopt i => exact hl.adopt hh hx hcode
  | awaitEnd i =>
    simp only [World.exec]
    split
    · split
      · exact hpop (by simp) (.refl _) (.refl w) rfl fun _ => Iff.rfl
      · exact hpop (by simp) (.refl _) (.refl w) rfl fun _ => Iff.rfl
      · exact hput (by simp)
    · exact hput (by simp)
  | pause t => exact hput (by simp)
  | fork b => exact hput (by simp)
  | finish f =>
    have hno := hh.no_adopt_at_finish hx hcode
    have hfin : ∀ y : Context, y.scope.threads = [] → y.code = rest →
        ((w.put c y).release (x.scope.threads.map (·.2))).Lifecycle := fun y hy hc =>
      hl.finish hx hno hy fun i h => hno i (by rw [hcode, ← hc]; exact List.mem_cons_of_mem _ h)
    cases c with
    | main =>
      simp only [World.exec, World.finish]
      exact (hfin _ rfl rfl).same (.dropRefs _ _)
    | thread i =>
      cases f with
      | some f =>
        simp only [World.exec, World.finish, Option.isSome_some, if_true]
        split
        · exact (hfin _ rfl rfl).same ((SameLives.dropRefs _ _).trans (.of_views rfl rfl))
        · exact (hfin _ rfl rfl).same (.dropRefs _ _)
      | none =>
        simp only [World.exec, World.finish]
        exact (hfin _ rfl rfl).same (.dropRefs _ _)

/-- Beginning a step keeps the invariant, unless the step aborts the process: a context makes,
starts, joins and drops the thread objects it names, and it makes one by a new id. -/
theorem Lifecycle.perform {st : Step} {rest : List Value} (hl : w.Lifecycle)
    (hx : w.ctx? c = some x) (hcode : x.code = []) (hst : st.Named x.scope) :
    (w.perform c { x with plan := rest } st).abort = none →
      (w.perform c { x with plan := rest } st).Lifecycle := by
  intro ha
  have hreply : ∀ {w₁ : World} {x' : Context}, SameLives w w₁ →
      x'.scope.threads.Sublist x.scope.threads → x'.code = [] → ∀ r : Reply,
      (w₁.reply c x' r).Lifecycle :=
    fun h₁ ht hc _ => hl.put hx h₁ (.refl _) ht (fun i h => by simp [Context.answer, hc] at h)
      fun i h => by simp [hcode] at h
  have hsame : ∀ {w₁ : World}, SameLives w w₁ → ∀ r : Reply,
      (w₁.reply c { x with plan := rest } r).Lifecycle :=
    fun h₁ => hreply h₁ (.refl _) hcode
  have hinstall : ∀ {code : List Op}, (∀ i, .adopt i ∉ code) →
      (w.install c { x with plan := rest } code).Lifecycle :=
    fun hc => hl.put hx (.refl w) (.refl _) (.refl _) (fun i h => absurd h (hc i))
      fun i h => by simp [hcode] at h
  have hown : ∀ {t : Named}, x.scope.threads.lookup t.id = some t.key →
      t.key ∈ x.scope.threads.map Prod.snd :=
    fun h => List.mem_map.mpr ⟨_, Scope.mem_of_lookup h, rfl⟩
  cases st with
  | lock m =>
    simp only [World.perform]
    split
    · exact hsame (.refl w) _
    · exact hinstall (by simp [Op.lockKept])
  | unlock m =>
    simp only [World.perform]
    split
    · exact hinstall (by simp [Op.unlockKept])
    · exact hsame (.refl w) _
  | get m =>
    simp only [World.perform]
    split
    · exact hsame (.refl w) _
    · exact hinstall (by simp [Op.scoped])
  | set m v =>
    simp only [World.perform]
    split
    · exact hsame (.modifyValue _ _ _) _
    · exact hinstall (by simp [Op.scoped])
  | add m v times =>
    simp only [World.perform]
    split
    · exact hsame (.modifyValue _ _ _) _
    · exact hinstall (by simp [Op.scoped])
  | holder m => exact hsame (.refl w) _
  | isLocked m =>
    simp only [World.perform]
    exact hreply (by exact .of_views rfl rfl) (by exact .refl _) (by exact hcode) _
  | assertLocked m =>
    simp only [World.perform]
    split
    · exact hreply (by exact .of_views rfl rfl) (by exact .refl _) (by exact hcode) _
    · exact hl.failStep hx hcode (by exact .of_views rfl rfl) (by exact rfl) (by exact hcode) _
  | mutexDebug m => exact hsame (.refl w) _
  | guardDebug m =>
    simp only [World.perform]
    split <;> exact hsame (.refl w) _
  | countDown l => exact hinstall (by simp [Op.scoped])
  | wait l => exact hinstall (by simp [Op.scoped])
  | count l => exact hinstall (by simp [Op.scoped])
  | latchDebug l => exact hinstall (by simp [Op.scoped])
  | notify cv => exact hsame (.signal w _) _
  | notifyAll cv => exact hsame (.broadcast w _) _
  | condDebug cv => exact hsame (.refl w) _
  | waitWhile cv m cmp v =>
    simp only [World.perform]
    split
    · exact hinstall (by simp)
    · exact hinstall (by simp [Op.scoped])
  | current =>
    simp only [World.perform]
    exact hreply (by exact .of_views rfl rfl) (by exact .refl _) (by exact hcode) _
  | sleep usec =>
    simp only [World.perform]
    split
    · exact hsame (.refl w) _
    · exact hinstall (by simp)
  | fail f =>
    simp only [World.perform]
    exact hl.failStep hx hcode (.refl w) (by exact rfl) (by exact hcode) f
  | fork =>
    simp only [World.perform]
    exact hl.put hx (by exact .of_views rfl rfl) (.refl _) (.refl _) (fun i h => by simp at h)
      fun i h => by simp [hcode] at h
  | mutexNew id v =>
    simp only [World.perform]
    exact hreply (by exact .of_views rfl rfl) (by exact .refl _) (by exact hcode) _
  | mutexDrop m =>
    simp only [World.perform]
    refine hreply ?_ (by exact .refl _) (by exact hcode) _
    exact (SameLives.put hx ⟨by exact rfl, by exact rfl⟩).trans (.dropRefs _ _)
  | getMut m set =>
    simp only [World.perform]
    split
    · exact hsame (.refl w) _
    · exact hsame (.modifyValue _ _ _) _
  | latchNew id n =>
    simp only [World.perform]
    exact hreply (by exact .of_views rfl rfl) (by exact .refl _) (by exact hcode) _
  | condNew id =>
    simp only [World.perform]
    exact hreply (by exact .of_views rfl rfl) (by exact .refl _) (by exact hcode) _
  | threadNew spec =>
    simp only [World.perform]
    exact hl.threadNew (y := { x with plan := rest }) hx hcode rfl rfl rfl rfl rfl
      (fun p hp => by cases hp; exact hst.2.2) rfl hcode _ _ _
  | threadStart t =>
    simp only [World.perform] at ha ⊢
    split
    · rename_i s hs
      simp only [hs] at ha
      exact hl.start hx hcode hs (hown hst) rfl hcode ha
    · exact hsame (.refl w) _
  | threadJoin t =>
    simp only [World.perform] at ha ⊢
    split
    · rename_i s hs
      simp only [hs] at ha
      exact hl.join hx hcode hs (hown hst) rfl hcode ha
    · exact hsame (.refl w) _
  | threadInfo t => exact hsame (.refl w) _
  | threadDrop t =>
    simp only [World.perform]
    split
    · rename_i s hs
      split
      · exact hl.drop (g := fun s => { s with handle := false })
          (y := Context.answer { x with plan := rest, scope := x.scope.forgetThread t.id } .empty)
          hx hcode hst hs (fun _ => ⟨rfl, rfl, rfl, rfl, .inl rfl⟩) rfl hcode
      · have hput : ((w.modifySlot t.key fun s => { s with program := none }).put c
            { x with plan := rest, scope := x.scope.forgetThread t.id }).ctx? c =
            some { x with plan := rest, scope := x.scope.forgetThread t.id } :=
          ctx_put_self _ _ _ (by
            simp [ctx?_modifySlot_of_ctx w _ (f := fun s => { s with program := none })
              (fun _ => rfl), hx])
        exact (hl.drop (g := fun s => { s with program := none })
          (y := { x with plan := rest, scope := x.scope.forgetThread t.id }) hx hcode hst hs
          (fun _ => ⟨rfl, rfl, rfl, rfl, .inr rfl⟩) rfl hcode).same
          ((SameLives.dropRefs _ _).trans (.put (by rw [ctx?_dropRefs]; exact hput)
            ⟨by exact rfl, by exact rfl⟩))
    · exact hreply (.refl w) (by simp [Scope.forgetThread]) (by exact hcode) _
  | numCreated => exact hsame (.refl w) _
  | classify f => exact hsame (.refl w) _
  | exceptionNew what => exact hsame (.refl w) _

/-- A context whose moves have run out begins its next step, or releases its kept guards and
finishes. -/
theorem Lifecycle.begin (hl : w.Lifecycle) (hx : w.ctx? c = some x) (hcode : x.code = []) :
    (w.begin c x).abort = none → (w.begin c x).Lifecycle := by
  unfold World.begin
  split
  · exact fun _ => hl.put hx (.refl w) (.refl _) (.refl _)
      (fun i h => by simp [Op.unlockKept] at h) fun i h => by simp [hcode] at h
  · dsimp only
    split
    · exact fun _ => hl.put hx (.refl w) (.refl _) (.refl _)
        (fun i h => by simp [Context.answer, hcode] at h) fun i h => by simp [hcode] at h
    · rename_i st hread
      exact hl.perform hx hcode (Step.read_resolved hread).named

theorem Lifecycle.advance (hl : w.Lifecycle) (hh : w.Handshake) (h : w.advance c = (w', true)) :
    w'.abort = none → w'.Lifecycle := by
  unfold World.advance at h
  split at h
  · cases h
  · rename_i x hx
    split at h
    · cases h
    · split at h
      · rename_i op rest hcode
        split at h
        · cases h
        · cases h
          exact fun _ => hl.exec hh hx hcode
      · rename_i hcode
        cases h
        exact hl.begin hx hcode

end

theorem Lifecycle.of_begins {w : World} (hb : w.Begins) : w.Lifecycle := by
  have hctx : ∀ d y, w.ctx? d = some y → y.scope.threads = [] ∧ y.code = [] := by
    intro d y h
    obtain ⟨-, rfl⟩ := hb.ctx h
    exact ⟨by simp [hb.scope], hb.code⟩
  refine ⟨fun _ _ h => by simp [hb.slot] at h, fun d y h i hi => ?_, fun d y h => ?_,
    fun d e y z i hy _ hi _ => ?_, fun d y i h hm => ?_⟩
  · simp [(hctx d y h).1] at hi
  · simp [(hctx d y h).1]
  · simp [(hctx d y hy).1] at hi
  · simp [(hctx d y h).2] at hm

theorem Lifecycle.moves {w w' : World} (hl : w.Lifecycle) (hh : w.Handshake) (h : Moves w w') :
    w'.abort = none → w'.Lifecycle := by
  cases h with
  | move c _ hm => exact hl.advance hh (advance_of_move? hm)
  | wakeUp c x _ _ _ => exact fun _ => hl.same (.wake w c)
  | tick t _ _ => exact fun _ => hl.same (.of_views rfl rfl)
  | fork c x b rest n _ hx _ _ hcode =>
    intro _
    rw [forked_eq]
    exact hl.pop hx hcode (by simp) (by exact .of_views rfl rfl) (.refl _) rfl
      fun _ => by simp [Context.answer]

/-- Every world a process reaches without aborting has the invariant; the worlds on the way did
not abort either, since an aborted process makes no move. -/
theorem Lifecycle.reachable {host : Host} {steps : List Value} {w : World}
    (h : Reachable (World.init host steps) w) (ha : w.abort = none) : w.Lifecycle := by
  induction h with
  | refl => exact .of_begins (.init host steps)
  | @tail w₁ _ hr hm ih =>
    have hlive : w₁.abort = none := by cases hm <;> assumption
    exact (ih hlive).moves (Handshake.reachable hr) hm ha

/-- Between the steps of its owner, a thread object's flags agree with whether it was started and
joined. -/
theorem Lifecycle.owned_slot {w : World} (hl : w.Lifecycle) (hh : w.Handshake) {c : Ctx}
    {x : Context} (hx : w.ctx? c = some x) (hidle : x.code = []) {i : Nat}
    (hown : i ∈ x.scope.threads.map Prod.snd) :
    ∃ s, w.slots[i]? = some s ∧ (s.program.isSome ↔ s.started = false) ∧
      (s.handle = true ↔ s.started = true ∧ s.joined = false) ∧
      (s.ctx.isSome ↔ s.started = true) ∧ (s.joined = true → s.started = true) ∧
      (0 < s.tid ↔ s.started = true) := by
  obtain ⟨s, hs⟩ := Option.isSome_iff_exists.mp (hl.named c x hx i hown)
  have h := hl.idle hx hidle hown hs
  refine ⟨s, hs, h.program trivial, h.handle trivial, h.thread, h.joined, fun hpos => ?_,
    fun hst => Nat.pos_of_ne_zero fun h0 => h.tid hst h0⟩
  rcases hh.tid i s hs with h0 | ⟨y, hy, -⟩
  · exact absurd h0 (Nat.pos_iff_ne_zero.mp hpos)
  · exact h.thread.mp (by simp [hy])

/-! ### An owner's calls on a thread object -/

section
variable {w : World} {c : Ctx} {x : Context} {t : Named} {s : Slot}

theorem perform_threadStart_started (hs : w.slots[t.key]? = some s) (h : s.started = true) :
    w.perform c x (.threadStart t) =
      w.failStep c x (.panicked ("thread " ++ s.name ++ " already started")) := by
  simp [World.perform, hs, World.start, h, threadAssert, String.append_assoc]

/-- A start the OS refuses aborts with the refusal, unless dropping the function destroys a mutex
still recorded as held, which aborts first. -/
theorem perform_threadStart_refused (ha : w.abort = none) (hs : w.slots[t.key]? = some s)
    (h : s.started = false) {f : List Value × Scope} (hp : s.program = some f) {e : SpawnError}
    (he : w.host.refusal s.stackSize = some e) :
    (w.perform c x (.threadStart t)).abort = some (.spawnRefused e) ∨
      (w.perform c x (.threadStart t)).abort = some .destroyedWhileHeld := by
  simp only [World.perform, hs, World.start, h, hp, he, Bool.false_eq_true, if_false]
  unfold World.dropRefs
  split <;> simp_all [World.modifySlot]

/-- A start the OS accepts gives the object a thread that runs the object's function, and the
thread's handle, and the starter waits to adopt the thread's tid. -/
theorem perform_threadStart_spawn (hc : (w.ctx? c).isSome) (hne : c ≠ .thread t.key)
    (hs : w.slots[t.key]? = some s) (h : s.started = false)
    (he : w.host.refusal s.stackSize = none) {f : List Value × Scope}
    (hp : s.program = some f) :
    ∃ y, y.plan = f.1 ∧ y.scope = f.2 ∧
      (w.perform c x (.threadStart t)).slots[t.key]? = some
        { s with started := true, program := none, ctx := some y, latch := some w.latches.size,
                 handle := true } ∧
      (w.perform c x (.threadStart t)).ctx? c =
        some { x with code := awaitSpawnCode t.key w.latches.size } := by
  refine ⟨{ self := { kernel := w.nextTid }, osName := Identity.osLabel s.name, scope := f.2,
            plan := f.1, code := spawnCode t.key w.latches.size s.name }, rfl, rfl, ?_, ?_⟩
  · simp [World.perform, hs, World.start, h, he, hp, World.install, getElem?_put_ne _ _ hne,
      World.modifySlot, Array.getElem?_modify]
  · simp only [World.perform, hs, World.start, h, he, hp, World.install, Bool.false_eq_true,
      if_false]
    exact ctx_put_self _ _ _ (by rw [ctx?_modifySlot_ne _ _ hne]; exact hc)

theorem perform_threadJoin_unstarted (hs : w.slots[t.key]? = some s) (h : s.started = false) :
    w.perform c x (.threadJoin t) =
      w.failStep c x (.panicked ("thread " ++ s.name ++ " joined before start")) := by
  simp [World.perform, hs, World.join, h, threadAssert, String.append_assoc]

theorem perform_threadJoin_joined (hs : w.slots[t.key]? = some s) (h : s.started = true)
    (hj : s.joined = true) :
    w.perform c x (.threadJoin t) =
      w.failStep c x (.panicked ("thread " ++ s.name ++ " already joined")) := by
  simp [World.perform, hs, World.join, h, hj, threadAssert, String.append_assoc]

theorem perform_threadJoin (hs : w.slots[t.key]? = some s) (h : s.started = true)
    (hj : s.joined = false) (hh : s.handle = true) :
    w.perform c x (.threadJoin t) =
      (w.modifySlot t.key fun s => { s with joined := true, handle := false }).install c x
        [.awaitEnd t.key, .complete] := by
  simp [World.perform, hs, World.join, h, hj, hh]

/-- Dropping a started object lets go of its thread's handle and forgets its id: its thread runs
on. -/
theorem perform_threadDrop_started (hs : w.slots[t.key]? = some s) (h : s.started = true) :
    w.perform c x (.threadDrop t) =
      (w.modifySlot t.key fun s => { s with handle := false }).reply c
        { x with scope := x.scope.forgetThread t.id } .empty := by
  simp [World.perform, hs, h]

end

/-! ### The life of a thread object -/

/-- Between its owner's steps a thread object's flags agree. A wrong start or join panics naming the
object and changes nothing else; a start aborts on the OS's refusal or gives the object its
thread and handle; a join takes the handle; a drop lets the thread run on. -/
theorem thread_lifecycle {host : Host} {steps : List Value} {w : World}
    (hr : Reachable (World.init host steps) w) (ha : w.abort = none) {c : Ctx} {x : Context}
    (hx : w.ctx? c = some x) (hidle : x.code = []) {t : Named}
    (ht : x.scope.threads.lookup t.id = some t.key) (rest : List Value) :
    let x' := { x with plan := rest }
    ∃ s, w.slots[t.key]? = some s ∧
      ((s.program.isSome ↔ s.started = false) ∧
        (s.handle = true ↔ s.started = true ∧ s.joined = false) ∧
        (s.ctx.isSome ↔ s.started = true) ∧ (s.joined = true → s.started = true) ∧
        (0 < s.tid ↔ s.started = true)) ∧
      (s.started = true → w.perform c x' (.threadStart t) =
        w.failStep c x' (.panicked ("thread " ++ s.name ++ " already started"))) ∧
      (s.started = false → ∀ e, w.host.refusal s.stackSize = some e →
        (w.perform c x' (.threadStart t)).abort = some (.spawnRefused e) ∨
          (w.perform c x' (.threadStart t)).abort = some .destroyedWhileHeld) ∧
      (s.started = false → w.host.refusal s.stackSize = none →
        ∃ f y, s.program = some f ∧ y.plan = f.1 ∧ y.scope = f.2 ∧
          (w.perform c x' (.threadStart t)).slots[t.key]? = some
            { s with started := true, program := none, ctx := some y,
                     latch := some w.latches.size, handle := true } ∧
          (w.perform c x' (.threadStart t)).ctx? c =
            some { x' with code := awaitSpawnCode t.key w.latches.size }) ∧
      (s.started = false → w.perform c x' (.threadJoin t) =
        w.failStep c x' (.panicked ("thread " ++ s.name ++ " joined before start"))) ∧
      (s.started = true → s.joined = true → w.perform c x' (.threadJoin t) =
        w.failStep c x' (.panicked ("thread " ++ s.name ++ " already joined"))) ∧
      (s.started = true → s.joined = false → s.ctx.isSome ∧ w.perform c x' (.threadJoin t) =
        (w.modifySlot t.key fun s => { s with joined := true, handle := false }).install c x'
          [.awaitEnd t.key, .complete]) ∧
      (s.started = true → w.perform c x' (.threadDrop t) =
        (w.modifySlot t.key fun s => { s with handle := false }).reply c
          { x' with scope := x'.scope.forgetThread t.id } .empty) := by
  intro x'
  have hl := Lifecycle.reachable hr ha
  have hown : t.key ∈ x.scope.threads.map Prod.snd :=
    List.mem_map.mpr ⟨_, Scope.mem_of_lookup ht, rfl⟩
  obtain ⟨s, hs, hprog, hhandle, hctx, hjoin, htid⟩ :=
    hl.owned_slot (Handshake.reachable hr) hx hidle hown
  have hfun : s.started = false → ∃ f, s.program = some f := fun h =>
    Option.isSome_iff_exists.mp (hprog.mpr h)
  refine ⟨s, hs, ⟨hprog, hhandle, hctx, hjoin, htid⟩, perform_threadStart_started hs,
    fun h e he => ?_, fun h he => ?_, perform_threadJoin_unstarted hs,
    perform_threadJoin_joined hs, fun h hj => ⟨hctx.mpr h, perform_threadJoin hs h hj
      (hhandle.mpr ⟨h, hj⟩)⟩, perform_threadDrop_started hs⟩
  · obtain ⟨f, hf⟩ := hfun h
    exact perform_threadStart_refused ha hs h hf he
  · obtain ⟨f, hf⟩ := hfun h
    obtain ⟨y, hy⟩ := perform_threadStart_spawn (by simp [hx]) (hl.ne_unstarted hx hs h)
      hs h he hf
    exact ⟨f, y, hf, hy⟩

/-- A script that makes thread objects `a` and `b` and starts `a`. -/
def startOne : List Value :=
  [.obj [("op", .str "thread_new"), ("id", .str "a")],
   .obj [("op", .str "thread_new"), ("id", .str "b")],
   .obj [("op", .str "thread_start"), ("thread", .str "a")]]

/-- Main has started `a` and adopted its tid. -/
def startedOne : World :=
  ((World.init .tested startOne).replay
    (List.replicate 3 .main ++ List.replicate 7 (.thread 0) ++ List.replicate 7 .main)).getD
    (World.init .tested startOne)

/-- Once `a` is started it keeps its handle and a positive tid, a second start panics and a join
takes the handle; unstarted `b` still holds its function. -/
theorem thread_lifecycle_started :
    Reachable (World.init .tested startOne) startedOne ∧
    (∃ s, startedOne.slots[0]? = some s ∧ s.handle = true ∧ 0 < s.tid ∧
      startedOne.perform .main { startedOne.main with plan := [] } (.threadStart ⟨"a", 0⟩) =
        startedOne.reply .main { startedOne.main with plan := [] }
          (.caught (.panicked "thread Thread0 already started")) ∧
      startedOne.perform .main { startedOne.main with plan := [] } (.threadJoin ⟨"a", 0⟩) =
        (startedOne.modifySlot 0 fun s => { s with joined := true, handle := false }).install
          .main { startedOne.main with plan := [] } [.awaitEnd 0, .complete]) ∧
    ∃ s, startedOne.slots[1]? = some s ∧ s.program.isSome ∧
      ((startedOne.perform .main { startedOne.main with plan := [] }
        (.threadStart ⟨"b", 1⟩)).slots[1]?.map (·.handle)) = some true := by
  have h : Reachable (World.init .tested startOne) startedOne := .of_replay (by decide)
  have hfield : ∀ {i : Nat} {s : Slot} {α : Type} {a : α} (f : Slot → α),
      startedOne.slots[i]? = some s → (startedOne.slots[i]?).map f = some a → f s = a :=
    fun _ hs h => by
      rw [hs] at h
      exact Option.some.inj h
  obtain ⟨s, hs, ⟨-, hhandle, -, -, htid⟩, hstart, -, -, -, -, hjoin, -⟩ :=
    thread_lifecycle (c := .main) (x := startedOne.main) (t := ⟨"a", 0⟩) h rfl rfl rfl rfl []
  have hst : s.started = true := hfield (·.started) hs (by decide)
  have hsj : s.joined = false := hfield (·.joined) hs (by decide)
  have hname : s.name = "Thread0" := hfield (·.name) hs (by decide)
  obtain ⟨s', hs', ⟨hprog', -, -, -, -⟩, -, -, hspawn, -⟩ :=
    thread_lifecycle (c := .main) (x := startedOne.main) (t := ⟨"b", 1⟩) h rfl rfl rfl rfl []
  have hst' : s'.started = false := hfield (·.started) hs' (by decide)
  have hsize : s'.stackSize = none := hfield (·.stackSize) hs' (by decide)
  obtain ⟨_, _, -, -, -, hslot, -⟩ := hspawn hst' (by rw [hsize]; rfl)
  refine ⟨h, ⟨s, hs, hhandle.mpr ⟨hst, hsj⟩, htid.mpr hst, ?_, (hjoin hst hsj).2⟩,
    s', hs', hprog'.mpr hst', by rw [hslot]; rfl⟩
  rw [hstart hst, hname]
  rfl

end World

namespace Script

/-- A thread object whose stack no memory can hold, then its start. -/
def hugeStack : List Value :=
  [.obj [("builder", .bool true), ("id", .str "t"), ("op", .str "thread_new"),
         ("stack_size", .int 1125899906842624)],
   .obj [("op", .str "thread_start"), ("thread", .str "t")]]

/-- A start of an unstarted object can fail: the OS refuses a stack it cannot map, and the process
aborts. -/
theorem start_refused_for_huge_stack :
    (runScript hugeStack).write = "\x7b\"abort\":\"SIGABRT\",\"stderr\":[\"Failed in pthread_create: " ++
        "Resource temporarily unavailable (os error 11)\"]\x7d" ∧
      (runScript hugeStack).write ≠ "\x7b\"steps\":[\x7b\"name\":\"Thread0\",\"tid\":\"0\"," ++
        "\"started\":false,\"joined\":false\x7d,\x7b\"tid\":\"t\"\x7d]\x7d" := by
  decide +kernel

end Script

end ThreadKit
