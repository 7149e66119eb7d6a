import ThreadKit.Proofs.Wakeup

/-! The fork hook. A thread fills its identity caches only through a request for its tid, and a
request that misses the cache registers the process's fork hook. Main never renames itself, and a
managed thread's first move publishes its tid, which is such a request. So in every world a process
reaches, the hook is registered as soon as any thread has cached anything (`World.Registered`),
and a fork always finds it in place, whichever thread forks and whatever it had cached. -/
namespace ThreadKit

open Script

namespace Identity

namespace Self

variable {s : Self} {p : Process}

/-- A request for the tid leaves the hook registered when it misses the cache or the hook was
registered already. -/
theorem hooked_tid (h : s.cache.tid = 0 ∨ p.hooked = true) : (s.tid p).2.2.hooked = true := by
  unfold Self.tid
  split
  · rename_i hc
    exact h.resolve_left hc
  · rfl

theorem text_hooked (hp : p.hooked = true) : (s.text p).2.2.hooked = true := by
  have h := hooked_tid (s := s) (.inr hp)
  rcases ht : s.tid p with ⟨t, s', p'⟩
  rw [ht] at h
  simp only [Self.text, ht]
  split <;> exact h

theorem isMain_hooked (hp : p.hooked = true) : (s.isMain p).2.2.hooked = true := by
  have h := hooked_tid (s := s) (.inr hp)
  rcases ht : s.tid p with ⟨t, s', p'⟩
  rw [ht] at h
  simpa [Self.isMain, ht] using h

theorem name_hooked (hp : p.hooked = true) : (s.name p).2.2.hooked = true := by
  unfold Self.name
  split
  · exact hp
  · have h := isMain_hooked (s := s) hp
    rcases hm : s.isMain p with ⟨m, s', p'⟩
    rw [hm] at h
    simpa using h

end Self

end Identity

namespace Context

/-- Context `y'` has the identity and the moves of `y`. -/
def SameSelf (y y' : Context) : Prop := y'.self = y.self ∧ y'.code = y.code

theorem SameSelf.refl (y : Context) : SameSelf y y := ⟨rfl, rfl⟩

theorem SameSelf.trans {a b c : Context} (h₁ : SameSelf a b) (h₂ : SameSelf b c) : SameSelf a c :=
  ⟨h₂.1.trans h₁.1, h₂.2.trans h₁.2⟩

theorem Wakes.sameSelf {y y' : Context} (h : Wakes y y') : SameSelf y y' := by
  rcases h with rfl | rfl <;> exact ⟨rfl, rfl⟩

@[simp] theorem requestTid_process (x : Context) (p : Identity.Process) :
    (x.requestTid p).2.2 = (x.self.tid p).2.2 := rfl

end Context

namespace World

/-! ### The process -/

section
variable (w : World)

@[simp] theorem put_process (c : Ctx) (x : Context) : (w.put c x).process = w.process := by
  cases c <;> rfl

@[simp] theorem modifyLock_process (l : LockRef) (f : LockCell → LockCell) :
    (w.modifyLock l f).process = w.process := by
  cases l <;> rfl

@[simp] theorem modifySlot_process (i : Nat) (f : Slot → Slot) :
    (w.modifySlot i f).process = w.process := rfl

@[simp] theorem modifyLatch_process (k : Nat) (f : LatchCell → LatchCell) :
    (w.modifyLatch k f).process = w.process := rfl

@[simp] theorem update_process (m : Nat) (f : Int64 → Int64) (v : Int64) :
    (w.update m f v).process = w.process := rfl

@[simp] theorem modifyValue_process (m : Nat) (f : Int64 → Int64) :
    (w.modifyValue m f).process = w.process := rfl

@[simp] theorem dropRefs_process (keys : List Nat) : (w.dropRefs keys).process = w.process := by
  unfold dropRefs
  split <;> rfl

@[simp] theorem wake_process (c : Ctx) : (w.wake c).process = w.process := by
  unfold wake
  split <;> simp

@[simp] theorem signal_process (cv : CondRef) : (w.signal cv).process = w.process := by
  unfold signal
  split <;> simp

@[simp] theorem broadcast_process (cv : CondRef) : (w.broadcast cv).process = w.process := by
  unfold broadcast
  generalize w.contexts = cs
  induction cs generalizing w with
  | nil => rfl
  | cons d rest ih =>
    simp only [List.foldl_cons]
    rw [ih]
    split <;> simp

end

/-! ### Moves that leave identities alone -/

/-- Every context of `w` keeps its identity and its moves on the way to `w'`, and none comes or
goes. -/
def SameSelves (w w' : World) : Prop := ∀ d, Option.Rel Context.SameSelf (w.ctx? d) (w'.ctx? d)

namespace SameSelves

variable {w w₁ w' : World}

theorem refl (w : World) : SameSelves w w := fun _ => rel_refl Context.SameSelf.refl _

theorem trans (h₁ : SameSelves w w₁) (h₂ : SameSelves w₁ w') : SameSelves w w' :=
  fun d => rel_trans (h₁ d) (h₂ d) Context.SameSelf.trans

theorem back (h : SameSelves w w') {d : Ctx} {y' : Context} (hy' : w'.ctx? d = some y') :
    ∃ y, w.ctx? d = some y ∧ y.SameSelf y' :=
  rel_some_right (h d) hy'

theorem of_quiet (hq : Quiet w w') : SameSelves w w' :=
  fun d => rel_mono Context.Wakes.sameSelf (hq.ctx d)

theorem of_views (hm : w'.main = w.main) (hs : w'.slots = w.slots) : SameSelves w w' := by
  intro d
  rw [ctx?_congr hm hs]
  exact rel_refl Context.SameSelf.refl _

theorem modifyLock (w : World) (l : LockRef) (f : LockCell → LockCell) :
    SameSelves w (w.modifyLock l f) :=
  of_views (by cases l <;> rfl) (modifyLock_slots w l f)

theorem pushSlot (w : World) (s : Slot) (n : Nat) (hs : s.ctx = none) :
    SameSelves w { w with slots := w.slots.push s, created := n } := by
  intro d
  rw [ctx?_pushSlot _ _ hs]
  exact rel_refl Context.SameSelf.refl _

theorem put {c : Ctx} {x x' : Context} (h : SameSelves w w₁) (hx : w.ctx? c = some x)
    (hs : x.SameSelf x') : SameSelves w (w₁.put c x') :=
  rel_ctx_put h hx hs

end SameSelves

/-! ### The invariant -/

/-- The fork hook is registered before any thread caches anything: until then every context's
caches are empty and every managed thread has yet to make the first move of its start handshake.
Main never renames itself. -/
structure Registered (w : World) : Prop where
  cache : w.process.hooked = false → ∀ c x, w.ctx? c = some x → x.self.cache = {}
  threads : w.process.hooked = false → ∀ i x, w.ctx? (.thread i) = some x →
    ∃ k name, x.code = spawnCode i k name
  main : ∀ n, .rename n ∉ w.main.code

section
variable {w w₁ w' : World} {c : Ctx} {x x' : Context}

/-- A managed thread that has moved did so in a process whose hook is registered. -/
theorem Registered.hooked_of_code {i : Nat} (hr : w.Registered) (hx : w.ctx? (.thread i) = some x)
    (hne : ∀ k name, x.code ≠ spawnCode i k name) : w.process.hooked = true := by
  cases hh : w.process.hooked with
  | true => rfl
  | false =>
    obtain ⟨k, name, hc⟩ := hr.threads hh i x hx
    exact absurd hc (hne k name)

/-- A context has cached no tid, or its process has the hook. -/
theorem Registered.uncached_or_hooked (hr : w.Registered) (hx : w.ctx? c = some x) :
    x.self.cache.tid = 0 ∨ w.process.hooked = true := by
  cases hh : w.process.hooked with
  | false => exact .inl (by rw [hr.cache hh c x hx])
  | true => exact .inr rfl

/-- Any context's request for its tid leaves the hook registered. -/
theorem Registered.tid_hooked (hr : w.Registered) (hx : w.ctx? c = some x) :
    (x.self.tid w.process).2.2.hooked = true :=
  Identity.Self.hooked_tid (hr.uncached_or_hooked hx)

theorem Registered.main_eq (hx : w.ctx? .main = some x) : x = w.main :=
  (Option.some.inj hx).symm

/-- A move of `c` to `x'`, between changes that leave every identity alone, keeps the invariant when
an unregistered hook leaves the process and main's identity as they were. -/
theorem Registered.put (hr : w.Registered) (hx : w.ctx? c = some x) (h₁ : SameSelves w w₁)
    (h₂ : SameSelves (w₁.put c x') w')
    (hp : w'.process.hooked = false → w'.process = w.process ∧ c = .main ∧ x'.self = x.self)
    (hmain : c = .main → ∀ n, .rename n ∉ x'.code) : w'.Registered := by
  have hback : ∀ d y', w'.ctx? d = some y' →
      (d = c ∧ x'.SameSelf y') ∨ ∃ y, w.ctx? d = some y ∧ y.SameSelf y' :=
    fun _ _ hy' => rel_ctx_back (fun h h' => h.trans h') h₁ h₂ hx hy'
  refine ⟨fun hh d y' hy' => ?_, fun hh i y' hy' => ?_, fun n hn => ?_⟩
  · obtain ⟨hpw, -, hself⟩ := hp hh
    have hw : w.process.hooked = false := hpw ▸ hh
    rcases hback d y' hy' with ⟨rfl, hs⟩ | ⟨y, hy, hs⟩
    · rw [hs.1, hself]
      exact hr.cache hw d x hx
    · rw [hs.1]
      exact hr.cache hw d y hy
  · obtain ⟨hpw, hc, -⟩ := hp hh
    have hw : w.process.hooked = false := hpw ▸ hh
    rcases hback (.thread i) y' hy' with ⟨he, -⟩ | ⟨y, hy, hs⟩
    · rw [hc] at he
      cases he
    · rw [hs.2]
      exact hr.threads hw i y hy
  · rcases hback .main w'.main rfl with ⟨hc, hs⟩ | ⟨y, hy, hs⟩
    · rw [hs.2] at hn
      exact hmain hc.symm n hn
    · rw [hs.2, main_eq hy] at hn
      exact hr.main n hn

/-- A move of a context that is not at the start of a handshake: a managed thread that has moved
needs no care, since its process has the hook. -/
theorem Registered.move (hr : w.Registered) (hx : w.ctx? c = some x)
    (hmoved : ∀ i, c = .thread i → ∀ k name, x.code ≠ spawnCode i k name)
    (h₁ : SameSelves w w₁) (h₂ : SameSelves (w₁.put c x') w')
    (hp : w'.process.hooked = false → w'.process = w.process ∧ (c = .main → x'.self = x.self))
    (hmain : c = .main → ∀ n, .rename n ∉ x'.code) : w'.Registered := by
  refine hr.put hx h₁ h₂ (fun hh => ?_) hmain
  obtain ⟨hpw, hself⟩ := hp hh
  cases c with
  | main => exact ⟨hpw, rfl, hself rfl⟩
  | thread i =>
    have hw := hr.hooked_of_code hx (hmoved i rfl)
    rw [hpw, hw] at hh
    cases hh

/-- A move that takes its own move, which is no publication, off the mover's code. -/
theorem Registered.pop {op : Op} {rest : List Op} (hr : w.Registered) (hx : w.ctx? c = some x)
    (hcode : x.code = op :: rest) (hop : ∀ i, op ≠ .publish i) (h₁ : SameSelves w w₁)
    (h₂ : SameSelves (w₁.put c x') w')
    (hp : w'.process.hooked = false → w'.process = w.process ∧ (c = .main → x'.self = x.self))
    (hc : ∀ n, .rename n ∈ x'.code → .rename n ∈ rest) : w'.Registered := by
  refine hr.move hx (fun i _ k name he => ?_) h₁ h₂ hp (fun hm n hn => ?_)
  · rw [hcode, spawnCode] at he
    exact hop i (List.cons.inj he).1
  · subst hm
    apply hr.main n
    rw [← main_eq hx, hcode]
    exact List.mem_cons_of_mem _ (hc n hn)

/-- A move of a context whose moves have run out. -/
theorem Registered.idle (hr : w.Registered) (hx : w.ctx? c = some x) (hcode : x.code = [])
    (h₁ : SameSelves w w₁) (h₂ : SameSelves (w₁.put c x') w')
    (hp : w'.process.hooked = false → w'.process = w.process ∧ (c = .main → x'.self = x.self))
    (hmain : c = .main → ∀ n, .rename n ∉ x'.code) : w'.Registered :=
  hr.move hx (fun i _ k name he => by simp [hcode, spawnCode] at he) h₁ h₂ hp hmain

/-- A move that asks for the tid: the process is the one the request leaves, whose hook is
registered. -/
theorem Registered.request {p : Identity.Process} (hr : w.Registered) (hx : w.ctx? c = some x)
    (h : SameSelves ({ w with process := p }.put c x') w') (hh : w'.process.hooked = true)
    (hmain : c = .main → ∀ n, .rename n ∉ x'.code) : w'.Registered :=
  hr.put hx (show SameSelves w { w with process := p } from .of_views rfl rfl) h
    (fun hf => absurd (hh.symm.trans hf) (by simp)) hmain

/-- A move that asks for the tid and takes its own move off the mover's code. -/
theorem Registered.request_pop {p : Identity.Process} {op : Op} {rest : List Op}
    (hr : w.Registered) (hx : w.ctx? c = some x) (hcode : x.code = op :: rest)
    (h : SameSelves ({ w with process := p }.put c x') w') (hh : w'.process.hooked = true)
    (hc : ∀ n, .rename n ∈ x'.code → .rename n ∈ rest) : w'.Registered := by
  refine hr.request hx h hh fun hm n hn => ?_
  subst hm
  apply hr.main n
  rw [← main_eq hx, hcode]
  exact List.mem_cons_of_mem _ (hc n hn)

/-- A change that leaves every identity and the process alone. -/
theorem Registered.frame (hr : w.Registered) (h : SameSelves w w') (hp : w'.process = w.process) :
    w'.Registered := by
  refine ⟨fun hh d y' hy' => ?_, fun hh i y' hy' => ?_, fun n hn => ?_⟩
  · obtain ⟨y, hy, hs⟩ := h.back hy'
    rw [hs.1]
    exact hr.cache (hp ▸ hh) d y hy
  · obtain ⟨y, hy, hs⟩ := h.back hy'
    rw [hs.2]
    exact hr.threads (hp ▸ hh) i y hy
  · obtain ⟨y, hy, hs⟩ := h.back (rfl : w'.ctx? .main = some w'.main)
    rw [hs.2, main_eq hy] at hn
    exact hr.main n hn


theorem Registered.exec {op : Op} {rest : List Op} (hr : w.Registered) (hx : w.ctx? c = some x)
    (hcode : x.code = op :: rest) : (w.exec c { x with code := rest } op).Registered := by
  have hpop : ∀ {x' : Context} {w₁ w' : World}, (∀ i, op ≠ .publish i) →
      SameSelves (w₁.put c x') w' → SameSelves w w₁ → w'.process = w.process → x'.self = x.self →
      (∀ n, .rename n ∈ x'.code → .rename n ∈ rest) → w'.Registered :=
    fun hop h₂ h₁ hp hs hc => hr.pop hx hcode hop h₁ h₂ (fun _ => ⟨hp, fun _ => hs⟩) hc
  have hreq : ∀ {p : Identity.Process} {x' : Context} {w' : World},
      SameSelves ({ w with process := p }.put c x') w' → w'.process.hooked = true →
      (∀ n, .rename n ∈ x'.code → .rename n ∈ rest) → w'.Registered :=
    fun h hh hc => hr.request_pop hx hcode h hh hc
  have hput : (∀ i, op ≠ .publish i) → (w.put c { x with code := rest }).Registered :=
    fun hop => hpop hop (.refl _) (.refl w) (by simp) rfl fun _ h => h
  have htid := hr.tid_hooked hx
  cases op with
  | acquire l =>
    simp only [World.exec]
    exact hpop (by simp) (.modifyLock _ _ _) (.refl w) (by simp) rfl fun _ h => h
  | assign l =>
    simp only [World.exec]
    split
    · rw [record_eq]
      exact hreq (.modifyLock _ _ _) (by simp [htid]) fun _ h => h
    · exact hput (by simp)
  | unassign l =>
    simp only [World.exec]
    split
    · exact hpop (by simp) (.modifyLock _ _ _) (.refl w) (by simp) rfl fun _ h => h
    · exact hput (by simp)
  | release l =>
    simp only [World.exec]
    split
    · exact hpop (by simp) (.modifyLock _ _ _) (.refl w) (by simp) rfl fun _ h => h
    · exact hput (by simp)
  | vacate l =>
    simp only [World.exec]
    split
    · exact hpop (by simp) (.modifyLock _ _ _) (.refl w) (by simp) rfl fun _ h => h
    · exact hput (by simp)
  | park cv l =>
    simp only [World.exec]
    split
    · exact hpop (by simp) (.modifyLock _ _ _) (.of_views rfl rfl) (by simp) rfl fun _ h => h
    · exact hput (by simp)
  | reclaim l =>
    simp only [World.exec]
    split
    · rw [record_eq]
      exact hreq (.modifyLock _ _ _) (by simp [htid]) fun _ h => h
    · exact hput (by simp)
  | waitWhile cv l p =>
    simp only [World.exec]
    split
    · exact hpop (by simp) (.refl _) (.refl w) (by simp) rfl fun _ h => by simpa using h
    · exact hput (by simp)
  | signal cv =>
    simp only [World.exec]
    exact hpop (by simp) (.of_quiet (Quiet.signal _ _)) (.refl w) (by simp) rfl fun _ h => h
  | broadcast cv =>
    simp only [World.exec]
    exact hpop (by simp) (.of_quiet (Quiet.broadcast _ _)) (.refl w) (by simp) rfl fun _ h => h
  | read m =>
    simp only [World.exec]
    split
    · exact hpop (by simp) (.refl _) (.refl w) (by simp) rfl fun _ h => h
    · exact hput (by simp)
  | write m f =>
    simp only [World.exec]
    split
    · exact hpop (by simp) (.of_quiet (Quiet.update _ _ _ _)) (.refl w) (by simp) rfl fun _ h => h
    · exact hput (by simp)
  | countDown k =>
    simp only [World.exec]
    split
    · have hq₀ := Quiet.modifyLatch (w.put c { x with code := rest }) k
        (fun l => { l with downs := l.downs + 1 }) fun _ => rfl
      split
      · exact hpop (by simp) (.of_quiet hq₀) (.refl w) (by simp) rfl fun _ h => h
      · exact hpop (by simp) (.of_quiet ((hq₀.trans (Quiet.modifyLatch _ k
          (fun l => { l with count := 0 }) fun _ => rfl)).trans (Quiet.broadcast _ _))) (.refl w)
          (by simp) rfl fun _ h => h
      · rename_i n _
        exact hpop (by simp) (.of_quiet (hq₀.trans (Quiet.modifyLatch _ k
          (fun l => { l with count := n + 1 }) fun _ => rfl))) (.refl w) (by simp) rfl fun _ h => h
    · exact hput (by simp)
  | keep m =>
    simp only [World.exec]
    exact hpop (by simp) (.refl _) (.refl w) (by simp) rfl fun _ h => h
  | unkeep m =>
    simp only [World.exec]
    exact hpop (by simp) (.refl _) (.refl w) (by simp) rfl fun _ h => h
  | note q =>
    simp only [World.exec]
    split
    · exact hreq (.refl _) (by simp [htid]) fun _ h => h
    · exact hpop (by simp) (.refl _) (.refl w) (by simp) rfl fun _ h => h
  | complete =>
    simp only [World.exec]
    exact hpop (by simp) (.refl _) (.refl w) (by simp) rfl fun _ h => h
  | publish i =>
    -- the first move of a managed thread: it may find the hook unregistered, and registers it
    simp only [World.exec]
    exact hreq (.of_quiet (Quiet.modifySlot _ i _ (fun _ => by rfl) fun _ => by exact ⟨id, .inl rfl⟩))
      (by simp [htid]) fun _ h => h
  | rename n =>
    cases c with
    | main =>
      refine absurd ?_ (hr.main n)
      rw [← main_eq hx, hcode]
      exact List.mem_cons_self
    | thread i =>
      simp only [World.exec]
      exact hr.pop hx hcode (by simp) (.refl w) (.refl _) (fun _ => ⟨by simp, fun h => by cases h⟩)
        fun _ h => h
  | adopt i =>
    simp only [World.exec]
    split
    · exact hpop (by simp)
        (.of_quiet (Quiet.modifySlot _ i _ (fun _ => by rfl) fun _ => by exact ⟨id, .inl rfl⟩))
        (by exact .of_views rfl rfl) (by simp) (by rfl) fun _ h => h
    · exact hput (by simp)
  | awaitEnd i =>
    simp only [World.exec]
    split
    · split
      · exact hpop (by simp) (.refl _) (.refl w) (by simp) rfl fun _ h => h
      · exact hpop (by simp) (.refl _) (.refl w) (by simp) rfl fun _ h => h
      · exact hput (by simp)
    · exact hput (by simp)
  | pause t => exact hput (by simp)
  | fork b => exact hput (by simp)
  | finish f =>
    cases c with
    | main =>
      simp only [World.exec, World.finish]
      exact hpop (by simp) (.of_quiet ((Quiet.release _ _).trans (Quiet.dropRefs _ _))) (.refl w) (by simp) rfl fun _ h => h
    | thread i =>
      have hp : ∀ {w' : World}, w'.process = w.process →
          w'.process.hooked = false → w'.process = w.process ∧ (Ctx.thread i = .main → False) :=
        fun he _ => ⟨he, fun h => by cases h⟩
      cases f with
      | some f =>
        simp only [World.exec, World.finish, Option.isSome_some, if_true]
        split
        · exact hr.pop hx hcode (by simp) (.refl w)
            ((SameSelves.of_quiet ((Quiet.release _ _).trans (Quiet.dropRefs _ _))).trans (.of_views rfl rfl))
            (fun h => (hp (by simp) h).imp_right fun hf hm => absurd hm hf) fun _ h => h
        · exact hr.pop hx hcode (by simp) (.refl w) (.of_quiet ((Quiet.release _ _).trans (Quiet.dropRefs _ _)))
            (fun h => (hp (by simp) h).imp_right fun hf hm => absurd hm hf) fun _ h => h
      | none =>
        simp only [World.exec, World.finish]
        exact hr.pop hx hcode (by simp) (.refl w) (.of_quiet ((Quiet.release _ _).trans (Quiet.dropRefs _ _)))
          (fun h => (hp (by simp) h).imp_right fun hf hm => absurd hm hf) fun _ h => h


/-- A failed step: main answers with the failure, a managed thread unwinds. -/
theorem Registered.failStep (hr : w.Registered) (hx : w.ctx? c = some x) (hcode : x.code = [])
    (h₁ : SameSelves w w₁)
    (hp : w₁.process.hooked = false → w₁.process = w.process ∧ (c = .main → x'.self = x.self))
    (hc : x'.code = []) (f : Failure) : (w₁.failStep c x' f).Registered := by
  cases c with
  | main =>
    exact hr.idle hx hcode h₁ (.refl _) hp fun _ n hn => by simp [Context.answer, hc] at hn
  | thread i => exact hr.idle hx hcode h₁ (.refl _) hp fun h => by cases h

/-- A new managed thread with empty caches at the start of its handshake, and its starter with its
identity as it was: main, or a thread, which has moved, so the hook is registered. -/
theorem Registered.spawn (hr : w.Registered) {u : World} {i k : Nat} {name : String} {t : Context}
    {f : Slot → Slot} (hm : u.main = w.main) (hs : u.slots = w.slots) (hp : u.process = w.process)
    (hf : ∀ s, (f s).ctx = some t) (htc : t.self.cache = {}) (htt : t.code = spawnCode i k name)
    (hx : w.ctx? c = some x) (hcode : x.code = []) (hself : x'.self = x.self)
    (hmain : ∀ n, .rename n ∉ x'.code) : ((u.modifySlot i f).put c x').Registered := by
  have hctx : u.ctx? = w.ctx? := ctx?_congr hm hs
  cases c with
  | thread j =>
    have hw := hr.hooked_of_code hx fun _ _ he => by simp [hcode, spawnCode] at he
    have hu : ((u.modifySlot i f).put (.thread j) x').process.hooked = true := by
      rw [← hw, ← hp]
      rfl
    refine ⟨fun hh => absurd (hu.symm.trans hh) (by simp),
      fun hh => absurd (hu.symm.trans hh) (by simp), fun n hn => hr.main n ?_⟩
    rw [← hm]
    exact hn
  | main =>
    refine ⟨fun hh d y hy => ?_, fun hh j y hy => ?_, hmain⟩
    · have hw : w.process.hooked = false := by simpa [hp] using hh
      cases d with
      | main =>
        have hy' : y = x' := (Option.some.inj hy).symm
        rw [hy', hself]
        exact hr.cache hw .main x hx
      | thread j =>
        rw [ctx?_put_ne _ _ (by simp)] at hy
        rcases ctx?_modifySlot_some hf hy with ⟨-, rfl⟩ | hy
        · exact htc
        · rw [hctx] at hy
          exact hr.cache hw _ y hy
    · have hw : w.process.hooked = false := by simpa [hp] using hh
      rw [ctx?_put_ne _ _ (by simp)] at hy
      rcases ctx?_modifySlot_some hf hy with ⟨he, rfl⟩ | hy
      · cases he
        exact ⟨k, name, htt⟩
      · rw [hctx] at hy
        exact hr.threads hw j y hy

/-- Starting thread object `i` answers at once, or the OS refuses the thread, which drops its
function and moves no one, or a new thread starts its handshake with empty caches. -/
theorem Registered.start {i : Nat} {s : Slot} (hr : w.Registered) (hx : w.ctx? c = some x)
    (hcode : x.code = []) (hself : x'.self = x.self) (hc : x'.code = []) :
    (w.start c x' i s).Registered := by
  unfold World.start
  split
  · exact hr.failStep hx hcode (.refl w) (fun _ => ⟨rfl, fun _ => hself⟩) hc _
  · split
    · exact hr.frame (.of_views rfl rfl) rfl
    · rename_i actions captured hp
      split
      · have h₁ := SameSelves.of_quiet ((Quiet.modifySlot w i
          (fun s => { s with started := true, program := none }) (fun _ => rfl)
          fun _ => ⟨fun _ => rfl, .inr rfl⟩).trans (Quiet.dropRefs _ (captured.mutexes.map (·.2))))
        dsimp only
        split
        · exact hr.frame h₁ (by simp)
        · exact hr.frame (h₁.trans (.of_views rfl rfl)) (by simp)
      · exact hr.spawn rfl rfl rfl (fun _ => rfl) rfl rfl hx hcode hself
          (by simp [awaitSpawnCode, Op.scoped])

/-- Joining thread object `i` answers at once, or waits for the thread. -/
theorem Registered.join {i : Nat} {s : Slot} (hr : w.Registered) (hx : w.ctx? c = some x)
    (hcode : x.code = []) (hself : x'.self = x.self) (hc : x'.code = []) :
    (w.join c x' i s).Registered := by
  unfold World.join
  split
  · exact hr.failStep hx hcode (.refl w) (fun _ => ⟨rfl, fun _ => hself⟩) hc _
  · split
    · exact hr.failStep hx hcode (.refl w) (fun _ => ⟨rfl, fun _ => hself⟩) hc _
    · split
      · exact hr.frame (.of_views rfl rfl) rfl
      · exact hr.idle hx hcode
          (.of_quiet (Quiet.modifySlot _ i _ (fun _ => by rfl) fun _ => by exact ⟨id, .inl rfl⟩))
          (.refl _) (fun _ => ⟨by simp [install], fun _ => hself⟩) fun _ n hn => by simp at hn

theorem current_hooked {x : Context} (h : (x.self.tid w.process).2.2.hooked = true) :
    (w.current x).2.2.hooked = true := by
  unfold World.current
  rcases ht : x.self.tid w.process with ⟨t, s₁, p₁⟩
  rw [ht] at h
  rcases hn : s₁.name p₁ with ⟨n, s₂, p₂⟩
  have h₂ : p₂.hooked = true := by simpa [hn] using Identity.Self.name_hooked (s := s₁) h
  rcases hm : s₂.isMain p₂ with ⟨m, s₃, p₃⟩
  have h₃ : p₃.hooked = true := by simpa [hm] using Identity.Self.isMain_hooked (s := s₂) h₂
  rcases hx : s₃.text p₃ with ⟨tx, s₄, p₄⟩
  have h₄ : p₄.hooked = true := by simpa [hx] using Identity.Self.text_hooked (s := s₃) h₃
  simpa [ht, hn, hm, hx] using h₄

theorem Registered.perform {st : Step} {rest : List Value} (hr : w.Registered)
    (hx : w.ctx? c = some x) (hcode : x.code = []) :
    (w.perform c { x with plan := rest } st).Registered := by
  have hreply : ∀ {w₁ : World}, SameSelves w w₁ → w₁.process = w.process → ∀ r : Reply,
      (w₁.reply c { x with plan := rest } r).Registered :=
    fun h₁ hp _ => hr.idle hx hcode h₁ (.refl _) (fun _ => ⟨by simp [reply, hp], fun _ => rfl⟩)
      fun _ n hn => by simp [Context.answer, hcode] at hn
  have hinstall : ∀ {code : List Op}, (∀ n, .rename n ∉ code) →
      (w.install c { x with plan := rest } code).Registered :=
    fun hc => hr.idle hx hcode (.refl w) (.refl _) (fun _ => ⟨by simp [install], fun _ => rfl⟩)
      fun _ => hc
  have hask : ∀ {p : Identity.Process} {x' : Context}, p.hooked = true → x'.code = [] →
      ∀ r : Reply, ({ w with process := p }.reply c x' r).Registered :=
    fun hh hc _ => hr.request hx (.refl _) (by simpa [reply] using hh)
      fun _ n hn => by simp [Context.answer, hc] at hn
  have htid := hr.tid_hooked hx
  cases st with
  | lock m =>
    simp only [World.perform]
    split
    · exact hreply (.refl w) rfl _
    · exact hinstall (by simp [Op.lockKept])
  | unlock m =>
    simp only [World.perform]
    split
    · exact hinstall (by simp [Op.unlockKept])
    · exact hreply (.refl w) rfl _
  | get m =>
    simp only [World.perform]
    split
    · exact hreply (.refl w) rfl _
    · exact hinstall (by simp [Op.scoped])
  | set m v =>
    simp only [World.perform]
    split
    · exact hreply (.of_quiet (Quiet.modifyValue _ _ _)) (by simp) _
    · exact hinstall (by simp [Op.scoped])
  | add m v times =>
    simp only [World.perform]
    split
    · exact hreply (.of_quiet (Quiet.modifyValue _ _ _)) (by simp) _
    · exact hinstall (by simp [Op.scoped])
  | holder m => exact hreply (.refl w) rfl _
  | isLocked m =>
    simp only [World.perform]
    exact hask (by simpa using htid) (by exact hcode) _
  | assertLocked m =>
    simp only [World.perform]
    split
    · exact hask (by simpa using htid) (by exact hcode) _
    · exact hr.failStep hx hcode (by exact .of_views rfl rfl)
        (fun hh => absurd hh (by simp [htid])) (by exact hcode) _
  | mutexDebug m => exact hreply (.refl w) rfl _
  | guardDebug m =>
    simp only [World.perform]
    split <;> exact hreply (.refl w) rfl _
  | countDown l => exact hinstall (by simp [Op.scoped])
  | wait l => exact hinstall (by simp [Op.scoped])
  | count l => exact hinstall (by simp [Op.scoped])
  | latchDebug l => exact hinstall (by simp [Op.scoped])
  | notify cv => exact hreply (.of_quiet (Quiet.signal w _)) (by simp) _
  | notifyAll cv => exact hreply (.of_quiet (Quiet.broadcast w _)) (by simp) _
  | condDebug cv => exact hreply (.refl w) rfl _
  | waitWhile cv m cmp v =>
    simp only [World.perform]
    split
    · exact hinstall (by simp)
    · exact hinstall (by simp [Op.scoped])
  | current =>
    simp only [World.perform]
    exact hask (by exact current_hooked (by simpa using htid)) (by exact hcode) _
  | sleep usec =>
    simp only [World.perform]
    split
    · exact hreply (.refl w) rfl _
    · exact hinstall (by simp)
  | fail f => exact hr.failStep hx hcode (.refl w) (fun _ => ⟨rfl, fun _ => by rfl⟩) (by exact hcode) f
  | fork =>
    simp only [World.perform]
    exact hr.request hx (.refl _) (by simpa [install] using Identity.Self.text_hooked htid)
      fun _ n hn => by simp at hn
  | mutexNew id v =>
    simp only [World.perform]
    exact hr.idle hx hcode (by exact .of_views rfl rfl) (.refl _)
      (fun _ => ⟨by simp [reply], fun _ => rfl⟩) fun _ n hn => by simp [Context.answer, hcode] at hn
  | mutexDrop m =>
    simp only [World.perform]
    exact hr.idle hx hcode (((SameSelves.refl w).put hx (by exact ⟨rfl, rfl⟩)).trans
      (.of_quiet (Quiet.dropRefs _ _))) (.refl _) (fun _ => ⟨by simp [reply], fun _ => rfl⟩)
      fun _ n hn => by simp [Context.answer, hcode] at hn
  | getMut m set =>
    simp only [World.perform]
    split
    · exact hreply (.refl w) rfl _
    · exact hreply (.of_quiet (Quiet.modifyValue _ _ _)) (by simp) _
  | latchNew id n =>
    simp only [World.perform]
    exact hr.idle hx hcode (by exact .of_views rfl rfl) (.refl _)
      (fun _ => ⟨by simp [reply], fun _ => rfl⟩) fun _ n hn => by simp [Context.answer, hcode] at hn
  | condNew id =>
    simp only [World.perform]
    exact hr.idle hx hcode (by exact .of_views rfl rfl) (.refl _)
      (fun _ => ⟨by simp [reply], fun _ => rfl⟩) fun _ n hn => by simp [Context.answer, hcode] at hn
  | threadNew spec =>
    simp only [World.perform]
    exact hr.idle hx hcode (.pushSlot w _ _ rfl) (.refl _)
      (fun _ => ⟨by simp [reply], fun _ => rfl⟩) fun _ n hn => by simp [Context.answer, hcode] at hn
  | threadStart t =>
    simp only [World.perform]
    split
    · exact hr.start hx hcode rfl hcode
    · exact hreply (.refl w) rfl _
  | threadJoin t =>
    simp only [World.perform]
    split
    · exact hr.join hx hcode rfl hcode
    · exact hreply (.refl w) rfl _
  | threadInfo t => exact hreply (.refl w) rfl _
  | threadDrop t =>
    simp only [World.perform]
    split
    · split
      · exact hr.idle hx hcode (.of_quiet (Quiet.modifySlot w _
          (fun s => { s with handle := false }) (fun _ => rfl) fun _ => ⟨id, .inl rfl⟩))
          (.refl _) (fun _ => ⟨by simp [reply], fun _ => rfl⟩)
          fun _ n hn => by simp [Context.answer, hcode] at hn
      · exact hr.idle hx hcode (((SameSelves.of_quiet (Quiet.modifySlot w _
          (fun s => { s with program := none }) (fun _ => rfl) fun _ => ⟨id, .inr rfl⟩)).put hx
            (by exact ⟨rfl, rfl⟩)).trans (.of_quiet (Quiet.dropRefs _ _))) (.refl _)
          (fun _ => ⟨by simp [reply], fun _ => rfl⟩) fun _ n hn => by simp [Context.answer, hcode] at hn
    · exact hr.idle hx hcode (.refl w) (.refl _) (fun _ => ⟨by simp [reply], fun _ => rfl⟩)
        fun _ n hn => by simp [Context.answer, hcode] at hn
  | numCreated => exact hreply (.refl w) rfl _
  | classify f => exact hreply (.refl w) rfl _
  | exceptionNew what => exact hreply (.refl w) rfl _


/-- A context whose moves have run out begins its next step, or releases its kept guards and
finishes. -/
theorem Registered.begin (hr : w.Registered) (hx : w.ctx? c = some x) (hcode : x.code = []) :
    (w.begin c x).Registered := by
  unfold World.begin
  split
  · exact hr.idle hx hcode (.refl w) (.refl _) (fun _ => ⟨by simp [install], fun _ => rfl⟩)
      fun _ n hn => by simp [Op.unlockKept] at hn
  · dsimp only
    split
    · exact hr.idle hx hcode (.refl w) (.refl _) (fun _ => ⟨by simp [reply], fun _ => rfl⟩)
        fun _ n hn => by simp [Context.answer, hcode] at hn
    · exact hr.perform hx hcode

theorem Registered.advance (hr : w.Registered) (h : w.advance c = (w', true)) : w'.Registered := by
  unfold World.advance at h
  split at h
  · cases h
  · rename_i x hx
    split at h
    · cases h
    · split at h
      · rename_i op rest hcode
        split at h
        · cases h
        · cases h
          exact hr.exec hx hcode
      · rename_i hcode
        cases h
        exact hr.begin hx hcode

end

theorem Registered.of_begins {w : World} (hb : w.Begins) : w.Registered where
  cache hh c x hx := by
    obtain ⟨-, rfl⟩ := hb.ctx hx
    exact hb.unhooked hh
  threads _ i x hx := absurd (hb.ctx hx).1 (by simp)
  main n := by simp [hb.code]

/-- A fork keeps the invariant: the forker asks for its tid again, which registers the hook. -/
theorem Registered.forked {w : World} {c : Ctx} {x : Context} {b : Tid} {rest : List Op}
    (hr : w.Registered) (hx : w.ctx? c = some x) (hcode : x.code = .fork b :: rest) (e : World) :
    (w.forked c { x with code := rest } b e).Registered := by
  rw [forked_eq]
  exact hr.request_pop hx hcode (.refl _) (by simpa using hr.tid_hooked hx)
    fun n hn => by simpa [Context.answer] using hn

theorem Registered.moves {w w' : World} (hr : w.Registered) (h : Moves w w') : w'.Registered := by
  cases h with
  | move c _ hm => exact hr.advance (advance_of_move? hm)
  | wakeUp c x _ _ _ => exact hr.frame (.of_quiet (Quiet.wake w c)) (by simp)
  | tick t _ _ => exact hr.frame (.of_views rfl rfl) rfl
  | fork c x b rest n _ hx _ _ hcode => exact hr.forked hx hcode _

end World

end ThreadKit
