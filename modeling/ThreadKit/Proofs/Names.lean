import ThreadKit.Proofs.TidText
import ThreadKit.Proofs.ForkHook
import ThreadKit.Proofs.Roster

/-! The names and tid texts threads report. A thread's requests keep its tid text cached empty or
as the text of its own tid, so the text it reports reads back as its tid. Main has the process's
tid and is never given a name, so it reports `main`. A managed thread is started with the OS label
of its object's name as its OS name, and the name it has taken followed by the names its moves are
still to give is that name, once, until it ends (`World.Named`). So once it has taken its name,
and while its function runs, it reports that name, NULs and all, and the OS knows it by the
label. -/
namespace ThreadKit

open Script

/-- The name a move gives its thread, if it renames it. -/
def Op.renamed? : Op → Option String
  | .rename n => some n
  | _ => none

/-- Unwinding the guards kept and ending renames nothing. -/
theorem Op.renamed?_unlockAll (held : List Nat) (f : Option Failure) :
    (held.flatMap Op.unlockKept ++ [Op.finish f]).filterMap Op.renamed? = [] := by
  simp only [List.filterMap_eq_nil_iff, List.mem_append, List.mem_flatMap, List.mem_singleton]
  rintro a (⟨m, -, ha⟩ | rfl)
  · simp only [Op.unlockKept, List.mem_cons, List.not_mem_nil, or_false] at ha
    rcases ha with rfl | rfl | rfl <;> rfl
  · rfl

namespace Context

/-- The names a context has taken and has still to take, in order: the one it was given, then
those its moves give. -/
def naming (x : Context) : List String := x.self.cache.name.toList ++ x.code.filterMap Op.renamed?

/-- Context `y'` has the identity, moves, OS name and ending of `y`. -/
def SameNames (y y' : Context) : Prop :=
  y'.self = y.self ∧ y'.code = y.code ∧ y'.osName = y.osName ∧ y'.ended = y.ended

theorem SameNames.refl (y : Context) : SameNames y y := ⟨rfl, rfl, rfl, rfl⟩

theorem SameNames.trans {a b c : Context} (h₁ : SameNames a b) (h₂ : SameNames b c) :
    SameNames a c :=
  ⟨h₂.1.trans h₁.1, h₂.2.1.trans h₁.2.1, h₂.2.2.1.trans h₁.2.2.1, h₂.2.2.2.trans h₁.2.2.2⟩

theorem Wakes.sameNames {y y' : Context} (h : Wakes y y') : SameNames y y' := by
  rcases h with rfl | rfl <;> exact ⟨rfl, rfl, rfl, rfl⟩

theorem naming_eq {y y' : Context} (hn : y'.self.cache.name = y.self.cache.name)
    (hc : y'.code.filterMap Op.renamed? = y.code.filterMap Op.renamed?) : y'.naming = y.naming := by
  simp [naming, hn, hc]

theorem SameNames.naming {y y' : Context} (h : SameNames y y') : y'.naming = y.naming := by
  simp [Context.naming, h.1, h.2.1]

end Context

namespace World

/-! ### Changes that leave every name alone -/

/-- Every context of `w` keeps its identity, moves, OS name and ending on the way to `w'`, none
comes or goes, every thread object keeps its name, and the process keeps its id. -/
structure SameNames (w w' : World) : Prop where
  ctx : ∀ d, Option.Rel Context.SameNames (w.ctx? d) (w'.ctx? d)
  slots : ∀ (i : Nat) (s : Slot), w.slots[i]? = some s →
    ∃ s', w'.slots[i]? = some s' ∧ s'.name = s.name
  pid : w'.process.pid = w.process.pid

namespace SameNames

variable {w w₁ w' : World}

theorem refl (w : World) : SameNames w w :=
  ⟨fun _ => rel_refl Context.SameNames.refl _, fun _ s h => ⟨s, h, rfl⟩, rfl⟩

theorem trans (h₁ : SameNames w w₁) (h₂ : SameNames w₁ w') : SameNames w w' where
  ctx d := rel_trans (h₁.ctx d) (h₂.ctx d) Context.SameNames.trans
  slots i s h := by
    obtain ⟨s₁, hs₁, hn₁⟩ := h₁.slots i s h
    obtain ⟨s₂, hs₂, hn₂⟩ := h₂.slots i s₁ hs₁
    exact ⟨s₂, hs₂, hn₂.trans hn₁⟩
  pid := h₂.pid.trans h₁.pid

theorem back (h : SameNames w w') {d : Ctx} {y' : Context} (hy' : w'.ctx? d = some y') :
    ∃ y, w.ctx? d = some y ∧ y.SameNames y' :=
  rel_some_right (h.ctx d) hy'

theorem of_quiet (hq : Quiet w w') (hr : SameRoster w w') (hp : w'.process = w.process) :
    SameNames w w' where
  ctx d := rel_mono Context.Wakes.sameNames (hq.ctx d)
  slots i s h := by
    have hn := hr.names i
    rw [h] at hn
    cases hs' : w'.slots[i]? with
    | none => simp [hs'] at hn
    | some s' =>
      rw [hs'] at hn
      exact ⟨s', rfl, Option.some.inj hn⟩
  pid := by rw [hp]

theorem of_views (hm : w'.main = w.main) (hs : w'.slots = w.slots)
    (hp : w'.process.pid = w.process.pid) : SameNames w w' where
  ctx d := by
    rw [ctx?_congr hm hs]
    exact rel_refl Context.SameNames.refl _
  slots i s h := ⟨s, hs ▸ h, rfl⟩
  pid := hp

theorem modifyLock (w : World) (l : LockRef) (f : LockCell → LockCell) :
    SameNames w (w.modifyLock l f) :=
  of_views (by cases l <;> rfl) (modifyLock_slots w l f) (by simp)

/-- A change of thread objects that keeps their contexts and names. -/
theorem modifySlot (w : World) (i : Nat) (f : Slot → Slot) (hc : ∀ s, (f s).ctx = s.ctx)
    (hn : ∀ s, (f s).name = s.name) : SameNames w (w.modifySlot i f) where
  ctx d := by
    rw [ctx?_modifySlot_of_ctx w i hc]
    exact rel_refl Context.SameNames.refl _
  slots j s h := by
    refine ⟨if i = j then f s else s, ?_, by split <;> simp [hn]⟩
    simp only [World.modifySlot, Array.getElem?_modify, h]
    split <;> rfl
  pid := rfl

theorem pushSlot (w : World) (s : Slot) (n : Nat) (hs : s.ctx = none) :
    SameNames w { w with slots := w.slots.push s, created := n } where
  ctx d := by
    rw [ctx?_pushSlot _ _ hs]
    exact rel_refl Context.SameNames.refl _
  slots j s' h :=
    ⟨s', by simp [Array.getElem?_push, (Array.getElem?_eq_some_iff.mp h).1.ne, h], rfl⟩
  pid := rfl

theorem slots_put (h : SameNames w w₁) (c : Ctx) (x' : Context) (i : Nat) (s : Slot)
    (hsl : w.slots[i]? = some s) : ∃ s', (w₁.put c x').slots[i]? = some s' ∧ s'.name = s.name := by
  obtain ⟨s₁, hs₁, hn₁⟩ := h.slots i s hsl
  have hn := name_put w₁ c x' i
  rw [hs₁] at hn
  cases hs' : (w₁.put c x').slots[i]? with
  | none => simp [hs'] at hn
  | some s' =>
    rw [hs'] at hn
    exact ⟨s', rfl, (Option.some.inj hn).trans hn₁⟩

theorem put {c : Ctx} {x x' : Context} (h : SameNames w w₁) (hx : w.ctx? c = some x)
    (hs : x.SameNames x') : SameNames w (w₁.put c x') where
  ctx := rel_ctx_put h.ctx hx hs
  slots := h.slots_put c x'
  pid := by rw [put_process]; exact h.pid

theorem modifyLatch (w : World) (k : Nat) (f : LatchCell → LatchCell) :
    SameNames w (w.modifyLatch k f) :=
  of_views rfl rfl rfl

theorem dropRefs (w : World) (keys : List Nat) : SameNames w (w.dropRefs keys) :=
  of_quiet (Quiet.dropRefs w keys) (SameRoster.dropRefs w keys) (dropRefs_process w keys)

theorem wake (w : World) (c : Ctx) : SameNames w (w.wake c) :=
  of_quiet (Quiet.wake w c) (SameRoster.wake w c) (wake_process w c)

theorem signal (w : World) (cv : CondRef) : SameNames w (w.signal cv) :=
  of_quiet (Quiet.signal w cv) (SameRoster.signal w cv) (signal_process w cv)

theorem broadcast (w : World) (cv : CondRef) : SameNames w (w.broadcast cv) :=
  of_quiet (Quiet.broadcast w cv) (SameRoster.broadcast w cv) (broadcast_process w cv)

theorem release (w : World) (keys : List Nat) : SameNames w (w.release keys) :=
  of_quiet (Quiet.release w keys) (SameRoster.release w keys) (release_process w keys)

end SameNames

/-! ### What a `current` step finds -/

section
open Identity Identity.Self
variable (w : World) {x : Context}

/-- A `current` step leaves the context as it was but for the requests of its identity, and the
process with its id. -/
theorem current_asked (hs : x.self.Sound) :
    (w.current x).2.1 = { x with self := (w.current x).2.1.self } ∧
      x.self.Asked (w.current x).2.1.self ∧ (w.current x).2.2.pid = w.process.pid := by
  have hs₁ := tid_sound w.process hs
  have hs₂ := name_sound (x.self.tid w.process).2.2 hs₁
  refine ⟨rfl, ?_⟩
  simp only [World.current, isMain_snd, isMain_process]
  refine ⟨(tid_asked _ _).trans ((name_asked _ _).1.trans ((tid_asked _ _).trans
    (text_asked (tid_sound _ hs₂) _).1)), ?_⟩
  simp only [(text_asked (tid_sound _ hs₂) _).2, tid_pid, (name_asked _ _).2]

/-- What a `current` step reports, read off the context's identity and the process. -/
theorem current_fst (hs : x.self.Sound) :
    (w.current x).1 =
      { tid := x.self.kernel
        name := x.self.cache.name.getD
          (if x.self.kernel = w.process.pid then mainName else unknownName)
        isMain := x.self.kernel == w.process.pid
        textTid := readTid
          (if x.self.cache.text = "" then tidString x.self.kernel else x.self.cache.text)
        shape := (if x.self.cache.text = "" then tidString x.self.kernel else x.self.cache.text) ==
          tidString x.self.kernel
        osName := x.osName } := by
  have hs₁ := tid_sound w.process hs
  have hs₂ := name_sound (x.self.tid w.process).2.2 hs₁
  have hp₂ := (name_asked (x.self.tid w.process).2.1 (x.self.tid w.process).2.2).2
  simp only [World.current]
  rw [tid_fst _ hs, name_fst hs₁, isMain_fst hs₂, isMain_snd, text_fst (tid_sound _ hs₂)]
  simp [hp₂]

end

/-! ### The invariant -/

/-- The names and texts the contexts report. Every cached tid text is empty or the text of the
context's own tid. Main has the process's tid, and the only name it is given or is to take is
`main`, which a fork hook gives the child's thread. A managed
thread's OS name is the OS label of its object's name, and until it ends, the name it has taken
followed by those its moves are still to give is exactly the name its object's name gives it. -/
structure Named (w : World) : Prop where
  texts : ∀ c x, w.ctx? c = some x → x.self.TextFresh
  pid : w.main.self.kernel = w.process.pid
  main : ∀ n ∈ w.main.naming, n = Identity.mainName
  threads : ∀ (i : Nat) (s : Slot) (x : Context), w.slots[i]? = some s → s.ctx = some x →
    x.osName = Identity.osLabel s.name ∧
      (x.ended = none → x.naming = [Identity.takenName s.name])

section
variable {w w₁ w' : World} {c : Ctx} {x x' : Context}

theorem ctx?_thread_iff {i : Nat} {y : Context} :
    w.ctx? (.thread i) = some y ↔ ∃ s, w.slots[i]? = some s ∧ s.ctx = some y := by
  simp [ctx?, Option.bind_eq_some_iff]

/-- A context with the names of a managed thread's context, under an object of the same name, is
what the invariant says of the thread. -/
theorem Named.thread_same (hn : w.Named) {i : Nat} {s s' : Slot} {y y' : Context}
    (hsl : w.slots[i]? = some s) (hsc : s.ctx = some y) (hs : y.SameNames y')
    (hname : s'.name = s.name) :
    y'.osName = Identity.osLabel s'.name ∧
      (y'.ended = none → y'.naming = [Identity.takenName s'.name]) := by
  obtain ⟨hos₀, hnm₀⟩ := hn.threads i s y hsl hsc
  rw [hname]
  exact ⟨by rw [hs.2.2.1, hos₀], fun he => by rw [hs.naming]; exact hnm₀ (hs.2.2.2 ▸ he)⟩

/-- A move of `c` to `x'`, between changes that leave every name alone, keeps the invariant when the
mover keeps its tid, OS name and names, or is a thread that ends. -/
theorem Named.put (hn : w.Named) (hx : w.ctx? c = some x) (hend : x.ended = none)
    (h₁ : SameNames w w₁) (h₂ : SameNames (w₁.put c x') w')
    (hk : x'.self.kernel = x.self.kernel) (hfresh : x.self.TextFresh → x'.self.TextFresh)
    (hos : x'.osName = x.osName) (hnaming : x'.naming = x.naming ∨ (c ≠ .main ∧ x'.ended.isSome)) :
    w'.Named := by
  have hback : ∀ d y', w'.ctx? d = some y' →
      (d = c ∧ x'.SameNames y') ∨ ∃ y, w.ctx? d = some y ∧ y.SameNames y' :=
    fun _ _ hy' => rel_ctx_back (fun h h' => h.trans h') h₁.ctx h₂.ctx hx hy'
  have hname : ∀ (i : Nat) (s : Slot) (s' : Slot), w.slots[i]? = some s → w'.slots[i]? = some s' →
      s'.name = s.name := by
    intro i s s' hs hs'
    obtain ⟨s₁, hs₁, hn₁⟩ := h₁.slots_put c x' i s hs
    obtain ⟨s₂, hs₂, hn₂⟩ := h₂.slots i s₁ hs₁
    rw [hs'] at hs₂
    cases hs₂
    exact hn₂.trans hn₁
  have hpid : w'.process.pid = w.process.pid := h₂.pid.trans (by rw [put_process]; exact h₁.pid)
  have hmain : c = .main → x'.naming = x.naming := by
    rintro rfl
    rcases hnaming with h | ⟨h, -⟩
    · exact h
    · exact absurd rfl h
  refine ⟨fun d y' hy' => ?_, ?_, ?_, fun i s' y' hs' hy' => ?_⟩
  · rcases hback d y' hy' with ⟨rfl, hs⟩ | ⟨y, hy, hs⟩
    · rw [hs.1]
      exact hfresh (hn.texts _ x hx)
    · rw [hs.1]
      exact hn.texts d y hy
  · rcases hback .main w'.main rfl with ⟨hc, hs⟩ | ⟨y, hy, hs⟩
    · subst hc
      rw [hs.1, hk, Registered.main_eq hx, hpid]
      exact hn.pid
    · rw [hs.1, Registered.main_eq hy, hpid]
      exact hn.pid
  · rcases hback .main w'.main rfl with ⟨hc, hs⟩ | ⟨y, hy, hs⟩
    · subst hc
      rw [hs.naming, hmain rfl, Registered.main_eq hx]
      exact hn.main
    · rw [hs.naming, Registered.main_eq hy]
      exact hn.main
  · have hy'c : w'.ctx? (.thread i) = some y' := ctx?_thread_iff.mpr ⟨s', hs', hy'⟩
    rcases hback _ y' hy'c with ⟨hc, hs⟩ | ⟨y, hy, hs⟩
    · subst hc
      obtain ⟨s, hsl, hsc⟩ := ctx?_thread_iff.mp hx
      obtain ⟨hos₀, hnm₀⟩ := hn.threads i s x hsl hsc
      rw [hname i s s' hsl hs']
      refine ⟨by rw [hs.2.2.1, hos, hos₀], fun he => ?_⟩
      rw [hs.naming]
      rcases hnaming with h | ⟨-, h⟩
      · rw [h]
        exact hnm₀ hend
      · rw [← hs.2.2.2, he] at h
        cases h
    · obtain ⟨s, hsl, hsc⟩ := ctx?_thread_iff.mp hy
      exact hn.thread_same hsl hsc hs (hname i s s' hsl hs')

/-- A change that leaves every name alone. -/
theorem Named.frame (hn : w.Named) (h : SameNames w w') : w'.Named := by
  obtain ⟨m, hm, hsm⟩ := h.back (rfl : w'.ctx? .main = some w'.main)
  rw [Registered.main_eq hm] at hsm
  refine ⟨fun d y' hy' => ?_, ?_, ?_, fun i s' y' hs' hy' => ?_⟩
  · obtain ⟨y, hy, hs⟩ := h.back hy'
    rw [hs.1]
    exact hn.texts d y hy
  · rw [hsm.1, h.pid]
    exact hn.pid
  · rw [hsm.naming]
    exact hn.main
  · obtain ⟨y, hy, hs⟩ := h.back (ctx?_thread_iff.mpr ⟨s', hs', hy'⟩)
    obtain ⟨s, hsl, hsc⟩ := ctx?_thread_iff.mp hy
    obtain ⟨s'', hs'', hn''⟩ := h.slots i s hsl
    rw [hs'] at hs''
    cases hs''
    exact hn.thread_same hsl hsc hs hn''

/-- Replacing context `c` by one that meets what the invariant asks of `c`. -/
theorem Named.put_fits (hn : w.Named) (hc : (w.ctx? c).isSome) (hfresh : x'.self.TextFresh)
    (hmain : c = .main → x'.self.kernel = w.process.pid ∧ ∀ n ∈ x'.naming, n = Identity.mainName)
    (hthread : ∀ j s, c = .thread j → w.slots[j]? = some s →
      x'.osName = Identity.osLabel s.name ∧ (x'.ended = none → x'.naming = [Identity.takenName s.name])) :
    (w.put c x').Named := by
  refine ⟨fun d y hy => ?_, ?_, ?_, fun j s' y hs' hy => ?_⟩
  · by_cases hd : d = c
    · subst hd
      rw [ctx_put_self _ _ _ hc] at hy
      cases hy
      exact hfresh
    · rw [ctx?_put_ne _ _ hd] at hy
      exact hn.texts d y hy
  · cases c with
    | main => exact (hmain rfl).1
    | thread j => exact hn.pid
  · cases c with
    | main => exact (hmain rfl).2
    | thread j => exact hn.main
  · cases c with
    | main => exact hn.threads j s' y hs' hy
    | thread k =>
      simp only [World.put, World.modifySlot, Array.getElem?_modify] at hs'
      split at hs'
      · subst k
        cases hs₀ : w.slots[j]? with
        | none => simp [hs₀] at hs'
        | some s₀ =>
          simp only [hs₀, Option.map_some, Option.some.injEq] at hs'
          subst hs'
          cases hy
          exact hthread j s₀ rfl hs₀
      · exact hn.threads j s' y hs' hy

theorem Named.exec {op : Op} {rest : List Op} (hn : w.Named) (hx : w.ctx? c = some x)
    (hend : x.ended = none) (hcode : x.code = op :: rest) :
    (w.exec c { x with code := rest } op).Named := by
  have hpop : ∀ {x' : Context} {w₁ w' : World}, op.renamed? = none →
      SameNames (w₁.put c x') w' → SameNames w w₁ → x.self.Asked x'.self →
      x'.osName = x.osName → x'.code.filterMap Op.renamed? = rest.filterMap Op.renamed? →
      w'.Named :=
    fun hop h₂ h₁ ha hos hc => hn.put hx hend h₁ h₂ ha.kernel ha.fresh hos
      (.inl (by simp [Context.naming, ha.name, hc, hcode, hop]))
  have hput : op.renamed? = none → (w.put c { x with code := rest }).Named :=
    fun hop => hpop hop (.refl _) (.refl w) (.refl _) rfl rfl
  have htid : SameNames w { w with process := (x.self.tid w.process).2.2 } :=
    .of_views rfl rfl (by simp)
  cases op with
  | acquire l =>
    simp only [World.exec]
    exact hpop rfl (.modifyLock _ _ _) (.refl w) (.refl _) rfl rfl
  | assign l =>
    simp only [World.exec]
    split
    · rw [record_eq]
      exact hpop rfl (.modifyLock _ _ _) htid (Identity.Self.tid_asked _ _) rfl rfl
    · exact hput rfl
  | unassign l =>
    simp only [World.exec]
    split
    · exact hpop rfl (.modifyLock _ _ _) (.refl w) (.refl _) rfl rfl
    · exact hput rfl
  | release l =>
    simp only [World.exec]
    split
    · exact hpop rfl (.modifyLock _ _ _) (.refl w) (.refl _) rfl rfl
    · exact hput rfl
  | vacate l =>
    simp only [World.exec]
    split
    · exact hpop rfl (.modifyLock _ _ _) (.refl w) (.refl _) rfl rfl
    · exact hput rfl
  | park cv l =>
    simp only [World.exec]
    split
    · exact hpop rfl (.modifyLock _ _ _) (.of_views rfl rfl rfl) (.refl _) rfl rfl
    · exact hput rfl
  | reclaim l =>
    simp only [World.exec]
    split
    · rw [record_eq]
      exact hpop rfl (.modifyLock _ _ _) htid (Identity.Self.tid_asked _ _) rfl rfl
    · exact hput rfl
  | waitWhile cv l p =>
    simp only [World.exec]
    split
    · exact hpop rfl (.refl _) (.refl w) (.refl _) rfl rfl
    · exact hput rfl
  | signal cv =>
    simp only [World.exec]
    exact hpop rfl (.signal _ _) (.refl w) (.refl _) rfl rfl
  | broadcast cv =>
    simp only [World.exec]
    exact hpop rfl (.broadcast _ _) (.refl w) (.refl _) rfl rfl
  | read m =>
    simp only [World.exec]
    split
    · exact hpop rfl (.refl _) (.refl w) (.refl _) rfl rfl
    · exact hput rfl
  | write m f =>
    simp only [World.exec]
    split
    · exact hpop rfl (.of_views rfl rfl rfl) (.refl w) (.refl _) rfl rfl
    · exact hput rfl
  | countDown k =>
    simp only [World.exec]
    split
    · split
      · exact hpop rfl (.modifyLatch _ _ _) (.refl w) (.refl _) rfl rfl
      · exact hpop rfl ((SameNames.modifyLatch _ _ _).trans
          ((SameNames.modifyLatch _ _ _).trans (.broadcast _ _))) (.refl w) (.refl _) rfl rfl
      · exact hpop rfl ((SameNames.modifyLatch _ _ _).trans (.modifyLatch _ _ _)) (.refl w)
          (.refl _) rfl rfl
    · exact hput rfl
  | keep m =>
    simp only [World.exec]
    exact hpop rfl (.refl _) (.refl w) (.refl _) rfl rfl
  | unkeep m =>
    simp only [World.exec]
    exact hpop rfl (.refl _) (.refl w) (.refl _) rfl rfl
  | note q =>
    simp only [World.exec]
    split
    · exact hpop rfl (.refl _) htid (Identity.Self.tid_asked _ _) rfl rfl
    · exact hpop rfl (.refl _) (.refl w) (.refl _) rfl rfl
  | complete =>
    simp only [World.exec]
    exact hpop rfl (.refl _) (.refl w) (.refl _) rfl rfl
  | publish i =>
    simp only [World.exec]
    exact hpop rfl (.modifySlot _ i _ (fun _ => rfl) fun _ => rfl) htid
      (Identity.Self.tid_asked _ _) rfl rfl
  | rename n =>
    cases c with
    | main =>
      -- main may take no name but `main`, one of those it had
      have hm := hn.main
      rw [← Registered.main_eq hx] at hm
      simp only [World.exec]
      refine hn.put_fits (by simp [hx]) (hn.texts _ x hx)
        (fun _ => ⟨by rw [← hn.pid, ← Registered.main_eq hx]; rfl, fun m hmem => hm m ?_⟩)
        fun j s h => by cases h
      simp only [Context.naming, Identity.Self.rename, Option.toList_some, List.mem_append,
        List.mem_singleton] at hmem
      simp only [Context.naming, hcode, List.filterMap_cons, Op.renamed?, List.mem_append,
        List.mem_cons]
      tauto
    | thread i =>
      obtain ⟨s, hsl, hsc⟩ := ctx?_thread_iff.mp hx
      have hnm := (hn.threads i s x hsl hsc).2 hend
      have hnone : x.self.cache.name = none := by
        rw [Context.naming, hcode] at hnm
        cases h : x.self.cache.name with
        | none => rfl
        | some a => simp [h, Op.renamed?] at hnm
      simp only [World.exec]
      exact hn.put hx hend (.refl w) (.refl _) rfl id rfl
        (.inl (by simp [Context.naming, hcode, hnone, Op.renamed?, Identity.Self.rename]))
  | adopt i =>
    simp only [World.exec]
    split
    · exact hpop rfl (.modifySlot _ i _ (fun _ => rfl) fun _ => rfl) (.of_views rfl rfl rfl)
        (.refl _) rfl rfl
    · exact hput rfl
  | awaitEnd i =>
    simp only [World.exec]
    split
    · split
      · exact hpop rfl (.refl _) (.refl w) (.refl _) rfl rfl
      · exact hpop rfl (.refl _) (.refl w) (.refl _) rfl rfl
      · exact hput rfl
    · exact hput rfl
  | pause t => exact hput rfl
  | fork b => exact hput rfl
  | finish f =>
    cases c with
    | main =>
      simp only [World.exec, World.finish]
      exact hpop rfl ((SameNames.release _ _).trans (.dropRefs _ _)) (.refl w) (.refl _) rfl rfl
    | thread i =>
      cases f with
      | some f =>
        simp only [World.exec, World.finish, Option.isSome_some, if_true]
        split
        · exact hn.put hx hend (.refl w) (((SameNames.release _ _).trans (.dropRefs _ _)).trans
            (.of_views rfl rfl rfl)) rfl id rfl (.inr ⟨by simp, rfl⟩)
        · exact hn.put hx hend (.refl w) ((SameNames.release _ _).trans (.dropRefs _ _)) rfl id rfl
            (.inr ⟨by simp, rfl⟩)
      | none =>
        simp only [World.exec, World.finish]
        exact hn.put hx hend (.refl w) ((SameNames.release _ _).trans (.dropRefs _ _)) rfl id rfl
          (.inr ⟨by simp, rfl⟩)

/-- A failed step: main answers with the failure, a managed thread unwinds and ends. -/
theorem Named.failStep {f : Failure} (hn : w.Named) (hx : w.ctx? c = some x)
    (hend : x.ended = none) (hcode : x.code = []) (h₁ : SameNames w w₁) (ha : x.self.Asked x'.self)
    (hos : x'.osName = x.osName) (hc : x'.code = []) : (w₁.failStep c x' f).Named := by
  unfold World.failStep
  split
  · exact hn.put hx hend h₁ (.refl _) ha.kernel ha.fresh hos
      (.inl (Context.naming_eq ha.name (by simp [Context.answer, hc, hcode])))
  · exact hn.put hx hend h₁ (.refl _) ha.kernel ha.fresh hos
      (.inl (Context.naming_eq ha.name (by rw [Op.renamed?_unlockAll, hcode]; rfl)))

/-- A new managed thread at the start of its handshake, with empty caches, the OS label of its
object's name, and that name to take; the starter with its identity and names as they were. -/
theorem Named.spawn (hn : w.Named) {u : World} {i : Nat} {s : Slot} {t : Context}
    {f : Slot → Slot} (hm : u.main = w.main) (hs : u.slots = w.slots) (hp : u.process = w.process)
    (hsl : w.slots[i]? = some s) (hf : ∀ s, (f s).ctx = some t ∧ (f s).name = s.name)
    (htc : t.self.cache = {}) (hto : t.osName = Identity.osLabel s.name)
    (htn : t.code.filterMap Op.renamed? = [Identity.takenName s.name])
    (hx : w.ctx? c = some x) (hend : x.ended = none)
    (hself : x'.self = x.self) (hos : x'.osName = x.osName) (hnm : x'.naming = x.naming) :
    ((u.modifySlot i f).put c x').Named := by
  have hctx : u.ctx? = w.ctx? := ctx?_congr hm hs
  have hnew : (u.modifySlot i f).Named := by
    refine ⟨fun d y hy => ?_, ?_, ?_, fun j s' y hs' hy => ?_⟩
    · rcases ctx?_modifySlot_some (fun s => (hf s).1) hy with ⟨-, rfl⟩ | hy
      · exact .inl (by rw [htc])
      · rw [hctx] at hy
        exact hn.texts _ y hy
    · show u.main.self.kernel = u.process.pid
      rw [hm, hp]
      exact hn.pid
    · show ∀ n ∈ u.main.naming, n = Identity.mainName
      rw [hm]
      exact hn.main
    · simp only [World.modifySlot, Array.getElem?_modify, hs] at hs'
      split at hs'
      · subst j
        rw [hsl] at hs'
        cases hs'
        rw [(hf s).1] at hy
        cases hy
        refine ⟨by rw [hto, (hf s).2], fun _ => ?_⟩
        simp [Context.naming, htc, htn, (hf s).2]
      · exact hn.threads j s' y hs' hy
  refine hnew.put_fits (isSome_ctx?_modifySlot (fun s => (hf s).1) (by rw [hctx, hx]; rfl))
    (hself ▸ hn.texts c x hx) ?_ ?_
  · rintro rfl
    rw [Registered.main_eq hx] at hself hnm
    refine ⟨?_, by rw [hnm]; exact hn.main⟩
    show x'.self.kernel = u.process.pid
    rw [hself, hp]
    exact hn.pid
  · rintro j s' rfl hs'
    obtain ⟨s₀, hs₀, hsc⟩ := ctx?_thread_iff.mp hx
    have hname : s'.name = s₀.name := by
      have h := ((SameRoster.modifySlot u i f fun s => (hf s).2).names j).trans (by rw [hs])
      rw [hs', hs₀] at h
      exact Option.some.inj h
    obtain ⟨hos₀, hnm₀⟩ := hn.threads j s₀ x hs₀ hsc
    rw [hname, hos, hos₀]
    exact ⟨rfl, fun _ => hnm.trans (hnm₀ hend)⟩

/-- Context `c` starts thread object `i`: it answers at once, or the OS refuses the thread and its
function goes, or a new thread starts its handshake. -/
theorem Named.start {i : Nat} {s : Slot} (hn : w.Named) (hx : w.ctx? c = some x)
    (hend : x.ended = none) (hcode : x.code = []) (hsl : w.slots[i]? = some s)
    (hself : x'.self = x.self) (hos : x'.osName = x.osName) (hc : x'.code = []) :
    (w.start c x' i s).Named := by
  have ha : x.self.Asked x'.self := hself ▸ .refl _
  unfold World.start
  split
  · exact hn.failStep hx hend hcode (.refl w) ha hos hc
  · split
    · exact hn.frame (.of_views rfl rfl rfl)
    · rename_i actions captured hp
      split
      · have h₁ := (SameNames.modifySlot w i (fun s => { s with started := true, program := none })
          (fun _ => rfl) (fun _ => rfl)).trans (.dropRefs _ (captured.mutexes.map (·.2)))
        dsimp only
        split
        · exact hn.frame h₁
        · exact hn.frame (h₁.trans (.of_views rfl rfl rfl))
      · dsimp only
        exact hn.spawn rfl rfl rfl hsl (fun _ => ⟨rfl, rfl⟩) rfl rfl rfl hx hend hself hos
          (Context.naming_eq ha.name (by rw [hcode]; rfl))

/-- Context `c` joins thread object `i`: it answers at once, or waits for the thread. -/
theorem Named.join {i : Nat} {s : Slot} (hn : w.Named) (hx : w.ctx? c = some x)
    (hend : x.ended = none) (hcode : x.code = []) (hself : x'.self = x.self)
    (hos : x'.osName = x.osName) (hc : x'.code = []) : (w.join c x' i s).Named := by
  have ha : x.self.Asked x'.self := hself ▸ .refl _
  unfold World.join
  split
  · exact hn.failStep hx hend hcode (.refl w) ha hos hc
  · split
    · exact hn.failStep hx hend hcode (.refl w) ha hos hc
    · split
      · exact hn.frame (.of_views rfl rfl rfl)
      · exact hn.put hx hend (.modifySlot _ i (fun s => { s with joined := true, handle := false })
          (fun _ => rfl) fun _ => rfl) (.refl _) ha.kernel ha.fresh hos
          (.inl (Context.naming_eq ha.name (by rw [hcode]; rfl)))

theorem Named.perform {st : Step} {rest : List Value} (hn : w.Named) (hx : w.ctx? c = some x)
    (hend : x.ended = none) (hcode : x.code = []) (hself : x.self.Sound) :
    (w.perform c { x with plan := rest } st).Named := by
  have hreply : ∀ {w₁ : World} {x' : Context} {r : Reply}, SameNames w w₁ → x.self.Asked x'.self →
      x'.osName = x.osName → x'.code = [] → (w₁.reply c x' r).Named :=
    fun h₁ ha hos hc => hn.put hx hend h₁ (.refl _) ha.kernel ha.fresh hos
      (.inl (Context.naming_eq ha.name (by rw [hcode]; exact congrArg _ hc)))
  have hinstall : ∀ {code : List Op}, code.filterMap Op.renamed? = [] →
      (w.install c { x with plan := rest } code).Named :=
    fun hc => hn.put hx hend (.refl w) (.refl _) rfl id rfl
      (.inl (Context.naming_eq rfl (by rw [hcode]; exact hc)))
  have htid : SameNames w { w with process := (x.self.tid w.process).2.2 } :=
    .of_views rfl rfl (by simp)
  cases st with
  | lock m =>
    simp only [World.perform]
    split
    · exact hreply (.refl w) (.refl _) rfl hcode
    · exact hinstall rfl
  | unlock m =>
    simp only [World.perform]
    split
    · exact hinstall rfl
    · exact hreply (.refl w) (.refl _) rfl hcode
  | get m =>
    simp only [World.perform]
    split
    · exact hreply (.refl w) (.refl _) rfl hcode
    · exact hinstall rfl
  | set m v =>
    simp only [World.perform]
    split
    · exact hreply (.of_views rfl rfl rfl) (.refl _) rfl hcode
    · exact hinstall rfl
  | add m v times =>
    simp only [World.perform]
    split
    · exact hreply (.of_views rfl rfl rfl) (.refl _) rfl hcode
    · exact hinstall rfl
  | holder m => exact hreply (.refl w) (.refl _) rfl hcode
  | isLocked m =>
    simp only [World.perform]
    exact hreply htid (Identity.Self.tid_asked _ _) rfl hcode
  | assertLocked m =>
    simp only [World.perform]
    split
    · exact hreply htid (Identity.Self.tid_asked _ _) rfl hcode
    · exact hn.failStep hx hend hcode htid (Identity.Self.tid_asked _ _) rfl hcode
  | mutexDebug m => exact hreply (.refl w) (.refl _) rfl hcode
  | guardDebug m =>
    simp only [World.perform]
    split
    · exact hreply (.refl w) (.refl _) rfl hcode
    · exact hreply (.refl w) (.refl _) rfl hcode
  | countDown l => exact hinstall rfl
  | wait l => exact hinstall rfl
  | count l => exact hinstall rfl
  | latchDebug l => exact hinstall rfl
  | notify cv => exact hreply (.signal w _) (.refl _) rfl hcode
  | notifyAll cv => exact hreply (.broadcast w _) (.refl _) rfl hcode
  | condDebug cv => exact hreply (.refl w) (.refl _) rfl hcode
  | waitWhile cv m cmp v =>
    simp only [World.perform]
    split
    · exact hinstall rfl
    · exact hinstall rfl
  | current =>
    obtain ⟨hsnd, ha, hp⟩ := current_asked w (x := { x with plan := rest }) hself
    simp only [World.perform]
    refine hreply (.of_views rfl rfl hp) ha ?_ ?_
    · rw [hsnd]
    · rw [hsnd]
      exact hcode
  | sleep usec =>
    simp only [World.perform]
    split
    · exact hreply (.refl w) (.refl _) rfl hcode
    · exact hinstall rfl
  | fail f => exact hn.failStep hx hend hcode (.refl w) (.refl _) rfl hcode
  | fork =>
    have ht := Identity.Self.tid_asked x.self w.process
    have hx₂ := Identity.Self.text_asked (Identity.Self.tid_sound w.process hself)
      (x.self.tid w.process).2.2
    simp only [World.perform]
    refine hn.put hx hend ?_ (.refl _) ?_ ?_ ?_ (.inl ?_)
    · exact .of_views rfl rfl (by simp [hx₂.2])
    · exact (ht.trans hx₂.1).kernel
    · exact (ht.trans hx₂.1).fresh
    · rfl
    · exact Context.naming_eq (ht.trans hx₂.1).name (by simp [hcode, Op.renamed?])
  | mutexNew id v =>
    simp only [World.perform]
    exact hreply (by exact .of_views rfl rfl rfl) (.refl _) rfl hcode
  | mutexDrop m =>
    simp only [World.perform]
    exact hreply (((SameNames.refl w).put hx (by exact ⟨rfl, rfl, rfl, rfl⟩)).trans
      (.dropRefs _ _)) (.refl _) rfl hcode
  | getMut m set =>
    simp only [World.perform]
    split
    · exact hreply (.refl w) (.refl _) rfl hcode
    · exact hreply (.of_views rfl rfl rfl) (.refl _) rfl hcode
  | latchNew id n => exact hreply (.of_views rfl rfl rfl) (.refl _) rfl hcode
  | condNew id => exact hreply (.of_views rfl rfl rfl) (.refl _) rfl hcode
  | threadNew spec => exact hreply (.pushSlot w _ _ rfl) (.refl _) rfl hcode
  | threadStart t =>
    simp only [World.perform]
    split
    · rename_i s hsl
      exact hn.start hx hend hcode hsl rfl rfl hcode
    · exact hreply (.refl w) (.refl _) rfl hcode
  | threadJoin t =>
    simp only [World.perform]
    split
    · exact hn.join hx hend hcode rfl rfl hcode
    · exact hreply (.refl w) (.refl _) rfl hcode
  | threadInfo t => exact hreply (.refl w) (.refl _) rfl hcode
  | threadDrop t =>
    simp only [World.perform]
    split
    · split
      · exact hreply (.modifySlot w _ (fun s => { s with handle := false }) (fun _ => rfl)
          fun _ => rfl) (.refl _) rfl hcode
      · exact hreply (((SameNames.modifySlot w _ (fun s => { s with program := none })
          (fun _ => rfl) fun _ => rfl).put hx (by exact ⟨rfl, rfl, rfl, rfl⟩)).trans
            (.dropRefs _ _)) (.refl _) rfl hcode
    · exact hreply (.refl w) (.refl _) rfl hcode
  | numCreated => exact hreply (.refl w) (.refl _) rfl hcode
  | classify f => exact hreply (.refl w) (.refl _) rfl hcode
  | exceptionNew what => exact hreply (.refl w) (.refl _) rfl hcode

/-- A context whose moves have run out begins its next step, or unwinds and finishes. -/
theorem Named.begin (hn : w.Named) (hx : w.ctx? c = some x) (hend : x.ended = none)
    (hcode : x.code = []) (hself : x.self.Sound) : (w.begin c x).Named := by
  unfold World.begin
  split
  · exact hn.put hx hend (.refl w) (.refl _) rfl id rfl
      (.inl (Context.naming_eq rfl (by rw [Op.renamed?_unlockAll, hcode]; rfl)))
  · dsimp only
    split
    · exact hn.put hx hend (.refl w) (.refl _) rfl id rfl
        (.inl (Context.naming_eq rfl (by simp [Context.answer, hcode])))
    · exact hn.perform hx hend hcode hself

theorem Named.advance (hn : w.Named) (hs : w.Sound) (h : w.advance c = (w', true)) :
    w'.Named := by
  unfold World.advance at h
  split at h
  · cases h
  · rename_i x hx
    split at h
    · cases h
    · rename_i hidle
      have hend : x.ended = none := by
        cases he : x.ended <;> simp_all
      split at h
      · rename_i op rest hcode
        split at h
        · cases h
        · cases h
          exact hn.exec hx hend hcode
      · rename_i hcode
        cases h
        exact hn.begin hx hend hcode (hs.self c x hx).1

end

theorem Named.of_begins {w : World} (hb : w.Begins) : w.Named where
  texts c x h := by
    obtain ⟨-, rfl⟩ := hb.ctx h
    exact .inl hb.text
  pid := hb.pid
  main n hn := by
    rcases hb.name with h | h <;> simp_all [Context.naming, hb.code]
  threads i s x h := by simp [hb.slot] at h

/-- A fork keeps the invariant: the forker asks for its tid, which keeps its names. -/
theorem Named.forked {w : World} {c : Ctx} {x : Context} {b : Tid} {rest : List Op}
    (hn : w.Named) (hx : w.ctx? c = some x) (hend : x.ended = none)
    (hcode : x.code = .fork b :: rest) (e : World) :
    (w.forked c { x with code := rest } b e).Named := by
  have ht := Identity.Self.tid_asked x.self w.process
  rw [forked_eq]
  refine hn.put hx hend ?_ (.refl _) ?_ ?_ ?_ (.inl ?_)
  · exact .of_views rfl rfl (by simp)
  · exact ht.kernel
  · exact ht.fresh
  · rfl
  · exact Context.naming_eq ht.name (by rw [hcode]; rfl)

theorem Named.moves {w w' : World} (hn : w.Named) (hs : w.Sound) (h : Moves w w') : w'.Named := by
  cases h with
  | move c _ hm => exact hn.advance hs (advance_of_move? hm)
  | wakeUp c x _ _ _ => exact hn.frame (.wake w c)
  | tick t _ _ => exact hn.frame (.of_views rfl rfl rfl)
  | fork c x b rest n _ hx hend _ hcode => exact hn.forked hx hend hcode _

/-! ### What threads report -/

section
open Identity Identity.Self
variable {w : World} {c : Ctx} {x : Context}

/-- The text a context reports is the text of its kernel tid. -/
theorem Named.text_eq (hn : w.Named) (hx : w.ctx? c = some x) (hself : x.self.Sound) :
    (x.self.text w.process).1 = tidString x.self.kernel := by
  rw [text_fst hself, (hn.texts c x hx).shown]

/-- A `current` step reads the tid back from the text it finds, and finds the text in its shape. -/
theorem Named.current_text (hn : w.Named) (hx : w.ctx? c = some x) (hself : x.self.Sound) :
    (w.current x).1.textTid = some (w.current x).1.tid ∧ (w.current x).1.shape = true := by
  simp only [current_fst w hself, (hn.texts c x hx).shown, readTid_tidString, beq_self_eq_true,
    and_self]

/-- Main reports the name `main`: it was given that name or none, and its tid is the process id. -/
theorem Named.main_name (hn : w.Named) (hself : w.main.self.Sound) :
    (w.current w.main).1.name = mainName := by
  cases h : w.main.self.cache.name with
  | none => simp [current_fst w hself, h, hn.pid]
  | some n => simp [current_fst w hself, h, hn.main n (by simp [Context.naming, h])]

/-- Once a managed thread has taken its name, and until it ends, it reports the name its object's
name gives it. -/
theorem Named.thread_name (hn : w.Named) {i : Nat} {s : Slot} (hs : w.slots[i]? = some s)
    (hx : s.ctx = some x) (hself : x.self.Sound) (hend : x.ended = none)
    (hrun : ∀ n, Op.rename n ∉ x.code) : (w.current x).1.name = Identity.takenName s.name := by
  have hcode : x.code.filterMap Op.renamed? = [] := by
    refine List.filterMap_eq_nil_iff.mpr fun op hop => ?_
    cases op with
    | rename n => exact absurd hop (hrun n)
    | _ => rfl
  have hname : x.self.cache.name = some (Identity.takenName s.name) := by
    have h := (hn.threads i s x hs hx).2 hend
    simpa [Context.naming, hcode] using h
  simp [current_fst w hself, hname]

/-- A start of an unstarted object that holds its function, with a stack the OS accepts, starts its
thread whatever the object's name. -/
theorem start_spawns {i : Nat} {s : Slot} (hsl : w.slots[i]? = some s) (hst : s.started = false)
    (hne : c ≠ .thread i) (hp : s.program.isSome) (hstack : w.host.refusal s.stackSize = none) :
    ∃ s' y, (w.start c x i s).slots[i]? = some s' ∧ s'.started = true ∧ s'.name = s.name ∧
      s'.ctx = some y ∧ y.osName = osLabel s.name ∧ y.code = spawnCode i w.latches.size s.name ∧
      (w.start c x i s).abort = w.abort := by
  obtain ⟨⟨actions, captured⟩, hf⟩ := Option.isSome_iff_exists.mp hp
  unfold World.start
  simp only [hst, Bool.false_eq_true, if_false, hf, hstack, World.install]
  rw [getElem?_put_ne _ _ hne]
  simp [World.modifySlot, Array.getElem?_modify, hsl]

end

end World

end ThreadKit
