import ThreadKit.Proofs.Protocol

/-! The invariant every reachable world satisfies (`World.Sound`): contexts report their own
kernel tids, which are distinct; a lock without an owner records no holder; and every context
follows the protocol of every lock (`World.Follows`). The rest makes these inductive: code and
scopes name only locks that exist, a managed thread names every mutex it works on, and an ended
thread owns no lock. -/
namespace ThreadKit

namespace Identity.Self

/-- A thread's cached tid is empty or its kernel tid. -/
def Sound (s : Self) : Prop := s.cache.tid = 0 ∨ s.cache.tid = s.kernel

theorem tid_fst {s : Self} (p : Process) (h : s.Sound) : (s.tid p).1 = s.kernel := by
  unfold tid
  rcases h with h | h <;> split <;> simp_all

@[simp] theorem tid_kernel (s : Self) (p : Process) : (s.tid p).2.1.kernel = s.kernel := by
  unfold tid
  split <;> rfl

theorem tid_sound {s : Self} (p : Process) (h : s.Sound) : (s.tid p).2.1.Sound := by
  unfold tid
  split
  · exact h
  · exact .inr rfl

@[simp] theorem rename_kernel (s : Self) (n : String) : (s.rename n).kernel = s.kernel := rfl

theorem rename_sound {s : Self} (n : String) (h : s.Sound) : (s.rename n).Sound := h

@[simp] theorem text_kernel (s : Self) (p : Process) : (s.text p).2.1.kernel = s.kernel := by
  unfold text
  split
  rename_i heq
  have hk := tid_kernel s p
  rw [heq] at hk
  split <;> exact hk

theorem text_sound {s : Self} (p : Process) (h : s.Sound) : (s.text p).2.1.Sound := by
  unfold text
  split
  rename_i heq
  have hs := tid_sound p h
  rw [heq] at hs
  split <;> exact hs

@[simp] theorem isMain_snd (s : Self) (p : Process) : (s.isMain p).2.1 = (s.tid p).2.1 := rfl

@[simp] theorem name_kernel (s : Self) (p : Process) : (s.name p).2.1.kernel = s.kernel := by
  unfold name
  split <;> simp

theorem name_sound {s : Self} (p : Process) (h : s.Sound) : (s.name p).2.1.Sound := by
  unfold name
  split
  · exact h
  · exact tid_sound p h

/-- With the hook registered, the child's only thread forgets the caches it inherited, is named
`main`, and caches its own tid. -/
theorem forkChild_hooked (s : Self) (hp : p.hooked = true) (child : Tid) :
    s.forkChild p child = ({ kernel := child, cache := { tid := child, name := some mainName } },
      { pid := child, hooked := true }) := by
  simp [forkChild, hp, Self.tid]

/-- With no hook registered, the child's only thread keeps the caches it inherited. -/
theorem forkChild_unhooked (s : Self) (hp : p.hooked = false) (child : Tid) :
    s.forkChild p child = ({ kernel := child, cache := s.cache }, { pid := child, hooked := false }) := by
  simp [forkChild, hp]

end Identity.Self

/-- How many guards of lock `l` a script keeps between steps when it keeps those of the mutexes
`held`. -/
def LockRef.kept : LockRef → List Nat → Nat
  | .mutex m, held => held.count m
  | .latch _, _ => 0

theorem LockRef.kept_cons_of_ne {l : LockRef} {m : Nat} (h : l ≠ .mutex m) (held : List Nat) :
    l.kept (m :: held) = l.kept held := by
  cases l with
  | mutex m' => exact List.count_cons_of_ne fun e => h (congrArg LockRef.mutex e.symm)
  | latch _ => rfl

theorem LockRef.kept_erase_of_ne {l : LockRef} {m : Nat} (h : l ≠ .mutex m) (held : List Nat) :
    l.kept (held.erase m) = l.kept held := by
  cases l with
  | mutex m' => exact List.count_erase_of_ne fun e => h (congrArg LockRef.mutex e)
  | latch _ => rfl

namespace Context

/-- What the context has of lock `l`. -/
def grip (x : Context) (l : LockRef) : Grip :=
  ⟨x.guards.count l, decide (x.waitingOn = some l), l.kept x.held⟩

theorem grip_congr {x x' : Context} {l : LockRef} (hg : x'.guards.count l = x.guards.count l)
    (hw : x'.waitingOn = some l ↔ x.waitingOn = some l) (hk : l.kept x'.held = l.kept x.held) :
    x'.grip l = x.grip l := by
  simp only [grip, hg, hk, Grip.mk.injEq, true_and, and_true]
  exact decide_eq_decide.mpr hw

theorem grip_eq_iff {x : Context} {l : LockRef} {g : Grip} :
    x.grip l = g ↔
      x.guards.count l = g.guards ∧ (x.waitingOn = some l ↔ g.waiting = true) ∧
        l.kept x.held = g.kept := by
  obtain ⟨a, b, k⟩ := g
  cases b <;> simp [grip]

/-- Whether the context can still name lock `l`; the lock inside a latch is never forgotten. -/
def names (x : Context) : LockRef → Bool
  | .mutex m => x.scope.refersTo m
  | .latch _ => true

/-- Waking a context changes nothing the protocol looks at. -/
theorem Wakes.same {y y' : Context} (h : Wakes y y') :
    y'.self = y.self ∧ y'.guards = y.guards ∧ y'.waitingOn = y.waitingOn ∧ y'.held = y.held ∧
      y'.code = y.code ∧ y'.scope = y.scope ∧ y'.ended = y.ended := by
  rcases h with rfl | rfl <;> simp

theorem Wakes.grip {y y' : Context} (h : Wakes y y') (l : LockRef) : y'.grip l = y.grip l := by
  obtain ⟨-, hg, hw, hh, -⟩ := h.same
  simp [Context.grip, hg, hw, hh]

theorem Wakes.names {y y' : Context} (h : Wakes y y') (l : LockRef) : y'.names l = y.names l := by
  obtain ⟨-, -, -, -, -, hs, -⟩ := h.same
  cases l <;> simp [Context.names, hs]

@[simp] theorem requestTid_kernel (x : Context) (p : Identity.Process) :
    (x.requestTid p).2.1.self.kernel = x.self.kernel := by
  simp [requestTid]

@[simp] theorem grip_requestTid (x : Context) (p : Identity.Process) (l : LockRef) :
    (x.requestTid p).2.1.grip l = x.grip l := rfl

@[simp] theorem names_requestTid (x : Context) (p : Identity.Process) (l : LockRef) :
    (x.requestTid p).2.1.names l = x.names l := by
  cases l <;> rfl

/-- Context `x'` stands as `x` does with every lock: the same tid, mutexes and latches in scope,
kept guards, guards, wait and ending. -/
structure Alike (x x' : Context) : Prop where
  kernel : x'.self.kernel = x.self.kernel
  mutexes : x'.scope.mutexes = x.scope.mutexes
  latches : x'.scope.latches = x.scope.latches
  held : x'.held = x.held
  guards : x'.guards = x.guards
  waitingOn : x'.waitingOn = x.waitingOn
  ended : x'.ended = x.ended

theorem Alike.grip {x x' : Context} (h : Alike x x') (l : LockRef) : x'.grip l = x.grip l :=
  grip_congr (by rw [h.guards]) (by rw [h.waitingOn]) (by rw [h.held])

theorem Alike.setCode {x y : Context} (h : Alike x y) (code : List Op) :
    Alike x { y with code := code } :=
  ⟨h.kernel, h.mutexes, h.latches, h.held, h.guards, h.waitingOn, h.ended⟩

theorem Alike.answer {x y : Context} (h : Alike x y) (r : Reply) : Alike x (y.answer r) :=
  ⟨h.kernel, h.mutexes, h.latches, h.held, h.guards, h.waitingOn, h.ended⟩

theorem Alike.setScope {x y : Context} (h : Alike x y) (s : Scope)
    (hm : s.mutexes = y.scope.mutexes) (hl : s.latches = y.scope.latches) :
    Alike x { y with scope := s } :=
  ⟨h.kernel, hm.trans h.mutexes, hl.trans h.latches, h.held, h.guards, h.waitingOn, h.ended⟩

theorem Alike.setSelf {x y : Context} (h : Alike x y) (s : Identity.Self)
    (hk : s.kernel = y.self.kernel) : Alike x { y with self := s } :=
  ⟨hk.trans h.kernel, h.mutexes, h.latches, h.held, h.guards, h.waitingOn, h.ended⟩

theorem names_of_scope {x x' : Context} (h : x'.scope.mutexes = x.scope.mutexes) (l : LockRef) :
    x'.names l = x.names l := by
  cases l <;> simp [Context.names, Scope.refersTo, h]

@[simp] theorem requestTid_snd (x : Context) (p : Identity.Process) :
    (x.requestTid p).2.1 = { x with self := (x.self.tid p).2.1 } := rfl

theorem requestTid_fst {x : Context} (p : Identity.Process) (h : x.self.Sound) :
    (x.requestTid p).1 = x.self.kernel :=
  Identity.Self.tid_fst p h

end Context

/-- Every mutex and latch key the scope names exists in world `w`. -/
def Scope.Within (s : Scope) (w : World) : Prop :=
  (∀ p ∈ s.mutexes, p.2 < w.mutexes.size) ∧ ∀ p ∈ s.latches, p.2 < w.latches.size

theorem Scope.Within.congr {s s' : Scope} {w : World} (h : s.Within w)
    (hm : s'.mutexes = s.mutexes) (hl : s'.latches = s.latches) : s'.Within w := by
  rw [Scope.Within, hm, hl]
  exact h

theorem Scope.Within.mono {s : Scope} {w w' : World} (h : s.Within w)
    (hm : w.mutexes.size ≤ w'.mutexes.size) (hl : w.latches.size ≤ w'.latches.size) :
    s.Within w' :=
  ⟨fun p hp => Nat.lt_of_lt_of_le (h.1 p hp) hm, fun p hp => Nat.lt_of_lt_of_le (h.2 p hp) hl⟩

namespace World

/-- Context `c`, in state `x`, keeps to the protocol of lock `l`: it is in a phase that agrees
with the lock's cell and its own guards, and the moves left in its code follow that phase. -/
def Follows (w : World) (c : Ctx) (x : Context) (l : LockRef) : Prop :=
  ∃ p : Phase, p.Fits (w.cell l) c x.self.kernel (x.grip l) ∧ p.Accepts (x.names l) l x.code

section
variable {w w' : World} {c : Ctx} {x x' : Context} {l : LockRef} {op : Op} {rest : List Op}

/-- A context that makes a move on another lock stays in its phase with `l`. -/
theorem Follows.pass (h : w.Follows c x l) (hcode : x.code = op :: rest)
    (hl : op.lock? ≠ some l) (hf : ∀ f, op ≠ .finish f) (hcell : w'.cell l = w.cell l)
    (hk : x'.self.kernel = x.self.kernel)
    (hg : (x.grip l).waiting = false → x'.grip l = x.grip l) (hn : x'.names l = x.names l)
    (hc : x'.code = rest) : w'.Follows c x' l := by
  obtain ⟨p, hfit, ha⟩ := h
  rw [hcode, Phase.accepts_cons_pass hl hf] at ha
  obtain ⟨hw, ha⟩ := ha
  have hg' : x'.grip l = x.grip l := hg (by rw [hfit.grip]; exact hw)
  refine ⟨p, ⟨?_, ?_, ?_⟩, ?_⟩
  · rw [hg']
    exact hfit.grip
  · rw [hcell]
    exact hfit.owner
  · rw [hcell, hk]
    exact hfit.holder
  · rwa [hn, hc]

/-- A move that, on lock `l`, keeps the phase it is accepted in leaves the context's standing with
`l` as it was. -/
theorem Follows.inner (h : w.Follows c x l) (hcode : x.code = op :: rest)
    (hop : ∀ p : Phase, p.step op = .phase p ∨ p.step op = .wrong) (hf : ∀ f, op ≠ .finish f)
    (hcell : w'.cell l = w.cell l) (hk : x'.self.kernel = x.self.kernel)
    (hg : x'.grip l = x.grip l) (hn : x'.names l = x.names l) (hc : x'.code = rest) :
    w'.Follows c x' l := by
  by_cases hl : op.lock? = some l
  · obtain ⟨p, hfit, ha⟩ := h
    rw [hcode, Phase.accepts_cons_step hl] at ha
    rcases hop p with hs | hs
    · rw [hs] at ha
      refine ⟨p, ⟨?_, ?_, ?_⟩, ?_⟩
      · rw [hg]
        exact hfit.grip
      · rw [hcell]
        exact hfit.owner
      · rw [hcell, hk]
        exact hfit.holder
      · rwa [hn, hc]
    · rw [hs] at ha
      simp [Outcome.Ends] at ha
  · exact h.pass hcode hl hf hcell hk (fun _ => hg) hn hc

/-- The phase a context is in before a move on `l`, with the rest of its code accepted from where
that move takes it. -/
theorem Follows.cons (h : w.Follows c x l) (hcode : x.code = op :: rest) (hl : op.lock? = some l) :
    ∃ p : Phase, p.Fits (w.cell l) c x.self.kernel (x.grip l) ∧
      ((p.step op).run l rest).Ends (x.names l) := by
  obtain ⟨p, hfit, ha⟩ := h
  rw [hcode, Phase.accepts_cons_step hl] at ha
  exact ⟨p, hfit, ha⟩

/-- A context that waits on `l` makes no move on another lock before its wait is over. -/
theorem Follows.not_waiting (h : w.Follows c x l) (hcode : x.code = op :: rest)
    (hl : op.lock? ≠ some l) (hf : ∀ f, op ≠ .finish f) : x.waitingOn ≠ some l := by
  obtain ⟨p, hfit, ha⟩ := h
  rw [hcode, Phase.accepts_cons_pass hl hf] at ha
  intro he
  have hw : p.grip.waiting = true := ((Context.grip_eq_iff.mp hfit.grip).2.1).mp he
  exact absurd (hw.symm.trans ha.1) (by decide)

end

/-- The invariant of reachable worlds. -/
structure Sound (w : World) : Prop where
  /-- Each context reports its kernel tid, which is positive and below the next one handed out. -/
  self : ∀ c x, w.ctx? c = some x →
    x.self.Sound ∧ 0 < x.self.kernel ∧ x.self.kernel < w.nextTid
  /-- No two contexts share a kernel tid. -/
  distinct : ∀ c d x y, w.ctx? c = some x → w.ctx? d = some y →
    x.self.kernel = y.self.kernel → c = d
  /-- A lock nobody owns records no holder. -/
  unowned : ∀ l, (w.cell l).owner = none → (w.cell l).holder = 0
  /-- The owner of a lock is a context. -/
  owner : ∀ l c, (w.cell l).owner = some c → (w.ctx? c).isSome
  /-- Every context follows the protocol of every lock. -/
  follows : ∀ c x, w.ctx? c = some x → ∀ l, w.Follows c x l
  /-- Code works only on locks that exist. -/
  code : ∀ c x, w.ctx? c = some x → ∀ op ∈ x.code, ∀ l, op.lock? = some l → (w.lock? l).isSome
  /-- Scopes name only mutexes and latches that exist. -/
  scope : ∀ c x, w.ctx? c = some x → x.scope.Within w
  /-- So do the functions of thread objects not yet started. -/
  programs : ∀ (i : Nat) (s : Slot) p, w.slots[i]? = some s → s.program = some p → p.2.Within w
  /-- Only a started thread object has a context. -/
  started : ∀ (i : Nat) (s : Slot), w.slots[i]? = some s → s.ctx.isSome → s.started = true
  /-- A running managed thread names every mutex it owns, guards or has moves on. -/
  named : ∀ i x, w.ctx? (.thread i) = some x → x.ended = none → ∀ m,
    ((w.cell (.mutex m)).owner = some (.thread i) ∨ LockRef.mutex m ∈ x.guards ∨
      ∃ op ∈ x.code, op.lock? = some (.mutex m)) → x.scope.refersTo m = true
  /-- An ended managed thread owns no lock. -/
  ended : ∀ i x, w.ctx? (.thread i) = some x → x.ended.isSome → ∀ l,
    (w.cell l).owner ≠ some (.thread i)
  /-- Main's scope names each mutex by one id at most. -/
  keys : (w.main.scope.mutexes.map Prod.snd).Nodup

/-- A move of context `c` to state `x'` in which no lock cell but that of `l₀` changes, the other
contexts are at most woken, the stores and the tids handed out only grow, and the thread objects
are those there were (`Slot.Later`) and new ones whose functions name only what exists. -/
structure Local (w w' : World) (c : Ctx) (x' : Context) (l₀ : LockRef) : Prop where
  self : w'.ctx? c = some x'
  others : ∀ d, d ≠ c → Option.Rel Context.Wakes (w.ctx? d) (w'.ctx? d)
  cells : ∀ l, l ≠ l₀ → w'.cell l = w.cell l
  mutexes : w.mutexes.size ≤ w'.mutexes.size
  latches : w.latches.size ≤ w'.latches.size
  nextTid : w.nextTid ≤ w'.nextTid
  slots : ∀ (i : Nat) (s' : Slot), w'.slots[i]? = some s' →
    (∃ s, w.slots[i]? = some s ∧ s.Later s') ∨
      (w.slots[i]? = none ∧ ∀ p, s'.program = some p → p.2.Within w')

/-- Cell `b` comes from cell `a` by a move of context `c`: it is unchanged, or `c` took the lock
from nobody or gave its own up, leaving no holder once the lock is free. -/
def LockCell.Passes (c : Ctx) (a b : LockCell) : Prop :=
  b = a ∨ ((a.owner = none ∨ a.owner = some c) ∧ (b.owner = none ∨ b.owner = some c) ∧
    (b.owner = none → b.holder = 0))

/-- What the mover of a local move keeps, from state `x` to `x'`: its tid, the cell of the lock it
changed (taken from nobody or given to nobody), and its own standing. -/
structure Keeps (w w' : World) (c : Ctx) (x x' : Context) (l₀ : LockRef) : Prop where
  self : x'.self.Sound ∧ x'.self.kernel = x.self.kernel
  cell : LockCell.Passes c (w.cell l₀) (w'.cell l₀)
  follows : ∀ l, w'.Follows c x' l
  code : ∀ op ∈ x'.code, ∀ l, op.lock? = some l → (w'.lock? l).isSome
  scope : x'.scope.Within w'
  named : ∀ i, c = .thread i → x'.ended = none → ∀ m,
    ((w'.cell (.mutex m)).owner = some c ∨ LockRef.mutex m ∈ x'.guards ∨
      ∃ op ∈ x'.code, op.lock? = some (.mutex m)) → x'.scope.refersTo m = true
  ended : ∀ i, c = .thread i → x'.ended.isSome → ∀ l, (w'.cell l).owner ≠ some c
  keys : c = .main → (x'.scope.mutexes.map Prod.snd).Nodup

section
variable {w w' : World} {c : Ctx} {x x' : Context} {l₀ : LockRef}

/-- After a local move, a context is the mover in its new state, or another one, at most woken. -/
theorem Local.ctx?_some (hl : Local w w' c x' l₀) {d : Ctx} {y' : Context}
    (h : w'.ctx? d = some y') :
    (d = c ∧ y' = x') ∨ (d ≠ c ∧ ∃ y, w.ctx? d = some y ∧ Context.Wakes y y') := by
  by_cases hd : d = c
  · subst hd
    rw [hl.self] at h
    exact .inl ⟨rfl, (Option.some.inj h).symm⟩
  · right
    refine ⟨hd, ?_⟩
    have hr := hl.others d hd
    rw [h] at hr
    cases hy : w.ctx? d with
    | none =>
      rw [hy] at hr
      cases hr
    | some y =>
      rw [hy] at hr
      cases hr with
      | some hw => exact ⟨y, rfl, hw⟩

theorem Local.isSome (hl : Local w w' c x' l₀) {d : Ctx} (h : (w.ctx? d).isSome) :
    (w'.ctx? d).isSome := by
  by_cases hd : d = c
  · subst hd
    simp [hl.self]
  · cases hr : w.ctx? d with
    | none => simp [hr] at h
    | some y =>
      have hr' := hl.others d hd
      rw [hr] at hr'
      cases hy' : w'.ctx? d with
      | none =>
        rw [hy'] at hr'
        cases hr'
      | some _ => rfl

theorem Local.isSome_back (hl : Local w w' c x' l₀) (hx : w.ctx? c = some x) {d : Ctx}
    (h : (w'.ctx? d).isSome) : (w.ctx? d).isSome := by
  obtain ⟨y', hy⟩ := Option.isSome_iff_exists.mp h
  rcases hl.ctx?_some hy with ⟨rfl, -⟩ | ⟨-, y, hy0, -⟩
  · simp [hx]
  · simp [hy0]

theorem Local.exists (hl : Local w w' c x' l₀) {l : LockRef} (h : (w.lock? l).isSome) :
    (w'.lock? l).isSome :=
  World.lock?_isSome_mono hl.mutexes hl.latches h

/-- The mover put in its new state, after quiet updates of the world. -/
theorem Local.put {w₁ : World} (hq : Quiet w w₁) (hx : w.ctx? c = some x) :
    Local w (w₁.put c x') c x' l₀ where
  self := by
    have hr := hq.ctx c
    rw [hx] at hr
    cases hc : w₁.ctx? c with
    | none =>
      rw [hc] at hr
      cases hr
    | some y => exact ctx_put_self w₁ c x' (by simp [hc])
  others d hd := by
    rw [ctx?_put_ne w₁ x' hd]
    exact hq.ctx d
  cells l _ := by rw [cell_put, hq.cell]
  mutexes := by simp [hq.mutexes]
  latches := by simp [hq.latches]
  nextTid := by simp [hq.nextTid]
  slots i s' h := by
    obtain ⟨s₁, h₁, hst, hp⟩ := slots_put h
    obtain ⟨s, h0, hl⟩ := hq.slots i s₁ h₁
    exact .inl ⟨s, h0, hl.trans ⟨fun h => hst ▸ h, .inl hp⟩⟩

/-- A change to the one lock the move may change. -/
theorem Local.modifyLock {w₁ : World} (h : Local w w₁ c x' l₀) (f : LockCell → LockCell) :
    Local w (w₁.modifyLock l₀ f) c x' l₀ where
  self := by rw [ctx?_modifyLock]; exact h.self
  others d hd := by rw [ctx?_modifyLock]; exact h.others d hd
  cells l hl := by rw [cell_modifyLock_ne _ _ hl]; exact h.cells l hl
  mutexes := by simpa using h.mutexes
  latches := by simpa using h.latches
  nextTid := by simpa using h.nextTid
  slots i s' hs' := by
    rw [modifyLock_slots] at hs'
    rcases h.slots i s' hs' with hold | ⟨h0, hp⟩
    · exact .inl hold
    · exact .inr ⟨h0, fun p hp' => (hp p hp').mono (by simp) (by simp)⟩

/-- Quiet updates after the move that leave the mover as it is. -/
theorem Local.quiet {w₁ w₂ : World} (h : Local w w₁ c x' l₀) (hq : Quiet w₁ w₂)
    (hc : w₂.ctx? c = some x') : Local w w₂ c x' l₀ where
  self := hc
  others d hd := rel_trans (h.others d hd) (hq.ctx d) Context.Wakes.trans
  cells l hl := by rw [hq.cell]; exact h.cells l hl
  mutexes := by rw [hq.mutexes]; exact h.mutexes
  latches := by rw [hq.latches]; exact h.latches
  nextTid := by rw [hq.nextTid]; exact h.nextTid
  slots i s₂ h₂ := by
    obtain ⟨s₁, h₁, hl₁⟩ := hq.slots i s₂ h₂
    rcases h.slots i s₁ h₁ with ⟨s, h0, hl⟩ | ⟨h0, hp⟩
    · exact .inl ⟨s, h0, hl.trans hl₁⟩
    · refine .inr ⟨h0, fun p hp₂ => ?_⟩
      rcases hl₁.2 with he | he
      · rw [he] at hp₂
        exact (hp p hp₂).mono (Nat.le_of_eq hq.mutexes.symm) (Nat.le_of_eq hq.latches.symm)
      · rw [he] at hp₂
        cases hp₂

/-- Nobody but the mover gains or loses a lock, nor sees its holder change. -/
theorem Keeps.other (hk : Keeps w w' c x x' l₀) (hl : Local w w' c x' l₀) {d : Ctx} (hd : d ≠ c)
    (l : LockRef) : ((w'.cell l).owner = some d ↔ (w.cell l).owner = some d) ∧
      ((w.cell l).owner = some d → (w'.cell l).holder = (w.cell l).holder) := by
  by_cases h0 : l = l₀
  · subst h0
    rcases hk.cell with he | ⟨ho, ho', -⟩
    · simp [he]
    · have hne : ∀ o : Option Ctx, (o = none ∨ o = some c) → o ≠ some d := by
        rintro o (rfl | rfl) he
        · cases he
        · exact hd (Option.some.inj he).symm
      exact ⟨iff_of_false (hne _ ho') (hne _ ho), fun h => absurd h (hne _ ho)⟩
  · simp [hl.cells l h0]

/-- A local move keeps the invariant when its mover keeps its own part: the other contexts are
at most woken, and nobody but the mover gains or loses a lock. -/
theorem Sound.of_local (hs : w.Sound) (hx : w.ctx? c = some x) (hl : Local w w' c x' l₀)
    (hk : Keeps w w' c x x' l₀) : w'.Sound where
  self := by
    intro d y' hy
    rcases hl.ctx?_some hy with ⟨rfl, rfl⟩ | ⟨-, y, hy0, hw⟩
    · obtain ⟨-, hpos, hlt⟩ := hs.self d x hx
      rw [hk.self.2]
      exact ⟨hk.self.1, hpos, Nat.lt_of_lt_of_le hlt hl.nextTid⟩
    · obtain ⟨hsnd, hpos, hlt⟩ := hs.self d y hy0
      rw [hw.same.1]
      exact ⟨hsnd, hpos, Nat.lt_of_lt_of_le hlt hl.nextTid⟩
  distinct := by
    have back : ∀ d y', w'.ctx? d = some y' →
        ∃ y, w.ctx? d = some y ∧ y'.self.kernel = y.self.kernel := by
      intro d y' hy
      rcases hl.ctx?_some hy with ⟨rfl, rfl⟩ | ⟨-, y, hy0, hw⟩
      · exact ⟨x, hx, hk.self.2⟩
      · exact ⟨y, hy0, by rw [hw.same.1]⟩
    intro d e y' z' hy hz he
    obtain ⟨y, hy0, hky⟩ := back d y' hy
    obtain ⟨z, hz0, hkz⟩ := back e z' hz
    exact hs.distinct d e y z hy0 hz0 (by rw [← hky, ← hkz, he])
  unowned := by
    intro l hl0
    by_cases h : l = l₀
    · subst h
      rcases hk.cell with he | ⟨-, -, hh⟩
      · rw [he] at hl0 ⊢
        exact hs.unowned l hl0
      · exact hh hl0
    · rw [hl.cells l h] at hl0 ⊢
      exact hs.unowned l hl0
  owner := by
    intro l d hd
    by_cases hdc : d = c
    · subst hdc
      simp [hl.self]
    · exact hl.isSome (hs.owner l d ((hk.other hl hdc l).1.mp hd))
  follows := by
    intro d y' hy l
    rcases hl.ctx?_some hy with ⟨rfl, rfl⟩ | ⟨hd, y, hy0, hw⟩
    · exact hk.follows l
    · obtain ⟨p, hfit, ha⟩ := hs.follows d y hy0 l
      obtain ⟨hself, -, -, -, hcode, -, -⟩ := hw.same
      obtain ⟨ho, hh⟩ := hk.other hl hd l
      refine ⟨p, ⟨?_, ?_, ?_⟩, ?_⟩
      · rw [hw.grip]
        exact hfit.grip
      · rw [ho]
        exact hfit.owner
      · intro hp
        rw [hself, hh (hfit.owner.mpr hp)]
        exact hfit.holder hp
      · rw [hw.names, hcode]
        exact ha
  code := by
    intro d y' hy op hop l hop'
    rcases hl.ctx?_some hy with ⟨rfl, rfl⟩ | ⟨-, y, hy0, hw⟩
    · exact hk.code op hop l hop'
    · rw [hw.same.2.2.2.2.1] at hop
      exact hl.exists (hs.code d y hy0 op hop l hop')
  scope := by
    intro d y' hy
    rcases hl.ctx?_some hy with ⟨rfl, rfl⟩ | ⟨-, y, hy0, hw⟩
    · exact hk.scope
    · rw [hw.same.2.2.2.2.2.1]
      exact (hs.scope d y hy0).mono hl.mutexes hl.latches
  programs := by
    intro i s' p hs' hp
    rcases hl.slots i s' hs' with ⟨s, hs0, -, hprog⟩ | ⟨-, hnew⟩
    · rcases hprog with he | he
      · rw [he] at hp
        exact (hs.programs i s p hs0 hp).mono hl.mutexes hl.latches
      · rw [he] at hp
        cases hp
    · exact hnew p hp
  started := by
    intro i s' hs' hctx
    have h' : (w'.ctx? (.thread i)).isSome := by simpa [ctx?, hs'] using hctx
    have h0 := hl.isSome_back hx h'
    rcases hl.slots i s' hs' with ⟨s, hs0, hst, -⟩ | ⟨hs0, -⟩
    · exact hst (hs.started i s hs0 (by simpa [ctx?, hs0] using h0))
    · simp [ctx?, hs0] at h0
  named := by
    intro i y' hy hend m hm
    rcases hl.ctx?_some hy with ⟨rfl, rfl⟩ | ⟨hd, y, hy0, hw⟩
    · exact hk.named i rfl hend m hm
    · obtain ⟨-, hg, -, -, hcode, hsc, hen⟩ := hw.same
      rw [hsc]
      apply hs.named i y hy0 (hen ▸ hend) m
      rcases hm with ho | hg' | hc'
      · exact .inl ((hk.other hl hd _).1.mp ho)
      · exact .inr (.inl (hg ▸ hg'))
      · exact .inr (.inr (hcode ▸ hc'))
  ended := by
    intro i y' hy hend l
    rcases hl.ctx?_some hy with ⟨rfl, rfl⟩ | ⟨hd, y, hy0, hw⟩
    · exact hk.ended i rfl hend l
    · rw [Ne, (hk.other hl hd l).1]
      exact hs.ended i y hy0 (hw.same.2.2.2.2.2.2 ▸ hend) l
  keys := by
    by_cases hc : c = .main
    · subst hc
      have hm : w'.main = x' := by simpa [ctx?] using hl.self
      rw [hm]
      exact hk.keys rfl
    · have hr := hl.others .main (Ne.symm hc)
      simp only [ctx?] at hr
      cases hr with
      | some hw =>
        rw [hw.same.2.2.2.2.2.1]
        exact hs.keys

end

section
variable {w w' : World} {c : Ctx} {x x' : Context} {op : Op} {rest : List Op} {l₀ : LockRef}

/-- What the mover of a local move keeps, from what the move changes. -/
theorem Keeps.of_code (hs : w.Sound) (hx : w.ctx? c = some x) (hcode : x.code = op :: rest)
    (hend : x.ended = none) (hl : Local w w' c x' l₀) (hself : x'.self.Sound)
    (hk : x'.self.kernel = x.self.kernel) (hms : x'.scope.mutexes = x.scope.mutexes)
    (hls : x'.scope.latches = x.scope.latches) (hen : x'.ended = none)
    (hguards : ∀ l ∈ x'.guards, l ∈ x.guards ∨ op.lock? = some l)
    (hops : ∀ op' ∈ x'.code, ∀ l, op'.lock? = some l → ∃ op'' ∈ x.code, op''.lock? = some l)
    (hcell : LockCell.Passes c (w.cell l₀) (w'.cell l₀))
    (hl₀ : op.lock? = some l₀ ∨ w'.cell l₀ = w.cell l₀) (hfollows : ∀ l, w'.Follows c x' l) :
    Keeps w w' c x x' l₀ where
  self := ⟨hself, hk⟩
  cell := hcell
  follows := hfollows
  code op' hop' l hl' := by
    obtain ⟨op'', hmem, hl''⟩ := hops op' hop' l hl'
    exact hl.exists (hs.code c x hx op'' hmem l hl'')
  scope := ((hs.scope c x hx).congr hms hls).mono hl.mutexes hl.latches
  named i hc _ m hm := by
    subst hc
    rw [Scope.refersTo, hms]
    apply hs.named i x hx hend m
    have hop : op ∈ x.code := by simp [hcode]
    rcases hm with ho | hg | ⟨op', hop', hl'⟩
    · -- the owner changed only if the move works on that mutex
      by_cases h0 : LockRef.mutex m = l₀
      · subst h0
        rcases hl₀ with hop' | he
        · exact .inr (.inr ⟨op, hop, hop'⟩)
        · exact .inl (he ▸ ho)
      · exact .inl (hl.cells _ h0 ▸ ho)
    · rcases hguards _ hg with hg' | hop'
      · exact .inr (.inl hg')
      · exact .inr (.inr ⟨op, hop, hop'⟩)
    · obtain ⟨op'', hmem, hl''⟩ := hops op' hop' _ hl'
      exact .inr (.inr ⟨op'', hmem, hl''⟩)
  ended _ _ h := by simp [hen] at h
  keys hc := by
    subst hc
    have hm : w.main = x := by simpa [ctx?] using hx
    rw [hms, ← hm]
    exact hs.keys

/-- A move that changes no lock cell and leaves the mover's standing with every lock as it was. -/
theorem Keeps.quiet (hs : w.Sound) (hx : w.ctx? c = some x) (hcode : x.code = op :: rest)
    (hend : x.ended = none) (hl : Local w w' c x' l₀) (hcell : w'.cell l₀ = w.cell l₀)
    (hop : ∀ p : Phase, p.step op = .phase p ∨ p.step op = .wrong) (hf : ∀ f, op ≠ .finish f)
    (hal : x.Alike x') (hself : x'.self.Sound) (hc : x'.code = rest) : Keeps w w' c x x' l₀ := by
  have hcells : ∀ l, w'.cell l = w.cell l := by
    intro l
    by_cases h0 : l = l₀
    · rw [h0, hcell]
    · exact hl.cells l h0
  refine Keeps.of_code hs hx hcode hend hl hself hal.kernel hal.mutexes hal.latches
    (hal.ended.trans hend)
    (fun l hg => .inl (hal.guards ▸ hg)) ?_ (.inl hcell) (.inr hcell) fun l => ?_
  · intro op' hop' l hl'
    rw [hc] at hop'
    exact ⟨op', by simp [hcode, hop'], hl'⟩
  · exact (hs.follows c x hx l).inner hcode hop hf (hcells l) hal.kernel (hal.grip l)
      (Context.names_of_scope hal.mutexes l) hc

/-- A move on lock `l₀` that changes the mover's standing with no other lock: it keeps the
invariant when the mover follows the protocol of `l₀` afterwards. -/
theorem Keeps.touch (hs : w.Sound) (hx : w.ctx? c = some x) (hcode : x.code = op :: rest)
    (hend : x.ended = none) (hl : Local w w' c x' l₀) (hl₀ : op.lock? = some l₀)
    (hself : x'.self.Sound) (hk : x'.self.kernel = x.self.kernel) (hsc : x'.scope = x.scope)
    (hen : x'.ended = none) (hguards : ∀ l ∈ x'.guards, l ∈ x.guards ∨ l = l₀)
    (hgrip : ∀ l, l ≠ l₀ → x'.grip l = x.grip l) (hc : x'.code = rest)
    (hcell : LockCell.Passes c (w.cell l₀) (w'.cell l₀)) (hf₀ : w'.Follows c x' l₀) :
    Keeps w w' c x x' l₀ := by
  refine Keeps.of_code hs hx hcode hend hl hself hk (by rw [hsc]) (by rw [hsc]) hen ?_ ?_ hcell
    (.inl hl₀) fun l => ?_
  · intro l hg
    rcases hguards l hg with hg' | rfl
    · exact .inl hg'
    · exact .inr hl₀
  · intro op' hop' l hl'
    rw [hc] at hop'
    exact ⟨op', by simp [hcode, hop'], hl'⟩
  · by_cases h0 : l = l₀
    · rw [h0]
      exact hf₀
    · have hne : op.lock? ≠ some l := by
        rw [hl₀]
        exact fun he => h0 (Option.some.inj he).symm
      exact (hs.follows c x hx l).pass hcode hne (Op.ne_finish_of_lock? hl₀) (hl.cells l h0) hk
        (fun _ => hgrip l h0) (Context.names_of_scope (by rw [hsc]) l) hc

end

/-- A process at its start: main alone, idle and holding nothing, with no lock or thread object
yet; its tid is the process id, and its caches are empty but for its tid and the name `main`,
which only a registered fork hook fills. A fresh process begins so, and so does a forked child. -/
structure Begins (w : World) : Prop where
  slots : w.slots = #[]
  mutexes : w.mutexes = #[]
  latches : w.latches = #[]
  scope : w.main.scope = {}
  code : w.main.code = []
  held : w.main.held = []
  guards : w.main.guards = []
  waitingOn : w.main.waitingOn = none
  parked : w.main.parked = none
  ended : w.main.ended = none
  pos : 0 < w.main.self.kernel
  pid : w.main.self.kernel = w.process.pid
  fresh : w.main.self.kernel < w.nextTid
  self : w.main.self.Sound
  text : w.main.self.cache.text = ""
  name : w.main.self.cache.name = none ∨ w.main.self.cache.name = some Identity.mainName
  unhooked : w.process.hooked = false → w.main.self.cache = {}

namespace Begins

variable {w : World} (hb : w.Begins)
include hb

theorem ctx {c : Ctx} {x : Context} (h : w.ctx? c = some x) : c = .main ∧ x = w.main := by
  cases c with
  | main => exact ⟨rfl, (Option.some.inj h).symm⟩
  | thread i => simp [ctx?, hb.slots] at h

theorem slot (i : Nat) : w.slots[i]? = none := by
  simp [hb.slots]

theorem cell (l : LockRef) : w.cell l = {} := by
  cases l <;> simp [World.cell, World.lock?, hb.mutexes, hb.latches]

end Begins

theorem Begins.init (host : Host) (steps : List Script.Value) : (World.init host steps).Begins :=
  ⟨rfl, rfl, rfl, rfl, rfl, rfl, rfl, rfl, rfl, rfl, by simp [World.init, World.pid], rfl,
    by simp [World.init], .inl rfl, rfl, .inl rfl, fun _ => rfl⟩

/-- The child of a fork begins as a fresh process does: its only thread has the caches the fork
hook leaves, or, with no hook registered, the empty ones it inherited. -/
theorem Begins.forkChild (w : World) (x : Context) (hpos : 0 < w.nextTid)
    (hcache : w.process.hooked = false → x.self.cache = {}) : (w.forkChild x).Begins := by
  refine ⟨rfl, rfl, rfl, rfl, rfl, rfl, rfl, rfl, rfl, rfl, ?_, ?_, ?_, ?_, ?_, ?_, ?_⟩ <;>
    simp only [forkChild_main, forkChild_process, forkChild_nextTid]
  all_goals cases hh : w.process.hooked
  all_goals simp [Identity.Self.forkChild_hooked, Identity.Self.forkChild_unhooked, hh, hpos,
    hcache, Identity.Self.Sound]

end World

end ThreadKit
