import ThreadKit.Proofs.Moves
import ThreadKit.Proofs.Read

/-! Beginning a step keeps `World.Sound`. A context whose moves have run out stands with every lock
in a phase a step may begin in: free, with a kept guard, or with a forgotten one. The moves it
installs are accepted from there: a scoped guard is taken only of a lock whose guard the script does
not keep, and a kept guard is dropped only when it is kept. Reading the step makes sure that each id
names a lock that exists and that a managed thread can name. -/
namespace ThreadKit

open Script

namespace Scope

theorem mem_of_lookup {ms : List (String × Nat)} {id : String} {k : Nat}
    (h : ms.lookup id = some k) : (id, k) ∈ ms := by
  obtain ⟨l₁, l₂, rfl, -⟩ := List.lookup_eq_some_iff.mp h
  simp

theorem refersTo_of_lookup {s : Scope} {id : String} {k : Nat} (h : s.mutexes.lookup id = some k) :
    s.refersTo k = true := by
  simp only [refersTo, List.any_eq_true, beq_iff_eq]
  exact ⟨(id, k), mem_of_lookup h, rfl⟩

theorem Within.mutex {s : Scope} {w : World} (hw : s.Within w) {id : String} {k : Nat}
    (h : s.mutexes.lookup id = some k) : (w.lock? (.mutex k)).isSome := by
  rw [World.lock?_isSome_iff]
  exact hw.1 _ (mem_of_lookup h)

theorem Within.latch {s : Scope} {w : World} (hw : s.Within w) {id : String} {k : Nat}
    (h : s.latches.lookup id = some k) : (w.lock? (.latch k)).isSome := by
  rw [World.lock?_isSome_iff]
  exact hw.2 _ (mem_of_lookup h)

/-- In a table that names each key once, two ids of one key are the same. -/
theorem id_unique {ms : List (String × Nat)} (hn : (ms.map Prod.snd).Nodup) {a b : String}
    {k : Nat} (ha : (a, k) ∈ ms) (hb : (b, k) ∈ ms) : a = b := by
  induction ms with
  | nil => simp at ha
  | cons e t ih =>
    simp only [List.map_cons, List.nodup_cons, List.mem_map] at hn
    rcases List.mem_cons.mp ha with ha | ha <;> rcases List.mem_cons.mp hb with hb | hb
    · rw [← ha] at hb
      exact (Prod.mk.inj hb).1.symm
    · exact absurd ⟨(b, k), hb, by rw [← ha]⟩ hn.1
    · exact absurd ⟨(a, k), ha, by rw [← hb]⟩ hn.1
    · exact ih hn.2 ha hb

/-- With each mutex named by one id at most, forgetting the id of mutex `k` forgets `k`. -/
theorem refersTo_forgetMutex_self {s : Scope} {id : String} {k : Nat}
    (hn : (s.mutexes.map Prod.snd).Nodup) (h : s.mutexes.lookup id = some k) :
    (s.forgetMutex id).refersTo k = false := by
  rw [Bool.eq_false_iff]
  intro hr
  simp only [refersTo, forgetMutex, List.any_eq_true, List.mem_filter, beq_iff_eq] at hr
  obtain ⟨⟨a, b⟩, ⟨hp, hne⟩, rfl⟩ := hr
  have hai : a = id := id_unique hn hp (mem_of_lookup h)
  simp [hai] at hne

theorem refersTo_forgetMutex {s : Scope} {id : String} {m : Nat}
    (h : (s.forgetMutex id).refersTo m = true) : s.refersTo m = true := by
  simp only [refersTo, forgetMutex, List.any_eq_true, List.mem_filter] at h ⊢
  obtain ⟨p, ⟨hp, -⟩, he⟩ := h
  exact ⟨p, hp, he⟩

theorem refersTo_bindMutex {s : Scope} {id : String} {k m : Nat}
    (h : (s.bindMutex id k).refersTo m = true) : m = k ∨ s.refersTo m = true := by
  simp only [refersTo, bindMutex, List.any_cons, Bool.or_eq_true, beq_iff_eq, List.any_eq_true,
    List.mem_filter] at h ⊢
  rcases h with h | ⟨p, ⟨hp, -⟩, he⟩
  · exact .inl h.symm
  · exact .inr ⟨p, hp, he⟩

end Scope

@[simp] theorem World.current_kernel (w : World) (x : Context) :
    (w.current x).2.1.self.kernel = x.self.kernel := by
  simp [World.current]

theorem Context.Alike.current {x y : Context} (h : x.Alike y) (w : World) :
    x.Alike (w.current y).2.1 :=
  ⟨(World.current_kernel w y).trans h.kernel,
    h.mutexes, h.latches, h.held, h.guards, h.waitingOn, h.ended⟩

theorem World.current_sound (w : World) {x : Context} (h : x.self.Sound) :
    (w.current x).2.1.self.Sound := by
  simp only [current]
  exact Identity.Self.text_sound _ (Identity.Self.tid_sound _
    (Identity.Self.name_sound _ (Identity.Self.tid_sound _ h)))

namespace World

theorem lock?_isSome_of_owner {w : World} {l : LockRef} {c : Ctx} (h : (w.cell l).owner = some c) :
    (w.lock? l).isSome := by
  unfold cell at h
  cases hl : w.lock? l with
  | none => simp [hl] at h
  | some _ => rfl

section
variable {w : World} {c : Ctx} {x : Context}

/-- A context with no moves left stands with each lock in a phase a step may begin in. -/
theorem Sound.idle (hs : w.Sound) (hx : w.ctx? c = some x) (hcode : x.code = []) (l : LockRef) :
    ∃ p : Phase, p.Fits (w.cell l) c x.self.kernel (x.grip l) ∧ p.Accepts (x.names l) l [] := by
  obtain ⟨p, hfit, hacc⟩ := hs.follows c x hx l
  rw [hcode] at hacc
  exact ⟨p, hfit, hacc⟩

/-- Of the phases a step begins in, the one with a kept guard is that of a mutex the script
keeps. -/
theorem guarded_true_iff {p : Phase} {cell : LockCell} {t : Tid} {named : Bool} {l : LockRef}
    (hfit : p.Fits cell c t (x.grip l)) (hidle : p.Accepts named l []) :
    p = .guarded true ↔ ∃ m ∈ x.held, l = .mutex m := by
  have hk : l.kept x.held = p.grip.kept := (Context.grip_eq_iff.mp hfit.grip).2.2
  cases l with
  | mutex m =>
    have hmem : m ∈ x.held ↔ 0 < x.held.count m := List.count_pos_iff.symm
    simp only [LockRef.kept] at hk
    rcases Phase.idle_of_accepts_nil hidle with rfl | rfl | ⟨rfl, -⟩ <;>
      simp_all [Phase.grip]
  | latch k =>
    rcases Phase.idle_of_accepts_nil hidle with rfl | rfl | ⟨rfl, -⟩ <;>
      simp_all [Phase.grip, LockRef.kept]

/-- A context keeps at most one guard of each mutex. -/
theorem Sound.held_nodup (hs : w.Sound) (hx : w.ctx? c = some x) : x.held.Nodup := by
  rw [List.nodup_iff_count]
  intro m
  obtain ⟨p, hfit, -⟩ := hs.follows c x hx (.mutex m)
  have hk : (LockRef.mutex m).kept x.held = p.grip.kept := (Context.grip_eq_iff.mp hfit.grip).2.2
  simp only [LockRef.kept] at hk
  rw [hk]
  rcases p with _ | _ | ⟨_ | _⟩ | ⟨_ | _⟩ | ⟨_ | _⟩ <;> simp [Phase.grip]

/-- Between steps, a kept guard is one whose lock the context owns. -/
theorem Sound.owner_of_held (hs : w.Sound) (hx : w.ctx? c = some x) (hcode : x.code = [])
    {m : Nat} (hm : m ∈ x.held) : (w.cell (.mutex m)).owner = some c := by
  obtain ⟨p, hfit, hidle⟩ := hs.idle hx hcode (.mutex m)
  have hp : p = .guarded true := (guarded_true_iff hfit hidle).mpr ⟨m, hm, rfl⟩
  exact hfit.owner.mpr (by rw [hp]; rfl)

/-! ### Local moves that change no lock -/

/-- A world whose stores and tids only grew, with the contexts and thread objects there were and
new objects not yet started, is a local move of any context that stays as it was. -/
theorem Local.grown {w₁ : World} (l₀ : LockRef) (hx : w.ctx? c = some x)
    (hctx : ∀ d, w₁.ctx? d = w.ctx? d) (hcells : ∀ l, w₁.cell l = w.cell l)
    (hm : w.mutexes.size ≤ w₁.mutexes.size) (hla : w.latches.size ≤ w₁.latches.size)
    (hn : w.nextTid ≤ w₁.nextTid)
    (hslots : ∀ (i : Nat) (s' : Slot), w₁.slots[i]? = some s' →
      (∃ s, w.slots[i]? = some s ∧ s.Later s') ∨
        (w.slots[i]? = none ∧ ∀ p, s'.program = some p → p.2.Within w₁)) :
    Local w w₁ c x l₀ where
  self := by rw [hctx]; exact hx
  others d _ := by rw [hctx]; exact rel_refl Context.Wakes.refl _
  cells l _ := hcells l
  mutexes := hm
  latches := hla
  nextTid := hn
  slots := hslots

/-- Quiet updates are a local move of any context, in the state they leave it in. -/
theorem Local.of_quiet {w₁ : World} {x' : Context} {l₀ : LockRef} (hq : Quiet w w₁)
    (hx : w₁.ctx? c = some x') : Local w w₁ c x' l₀ where
  self := hx
  others d _ := hq.ctx d
  cells l _ := hq.cell l
  mutexes := Nat.le_of_eq hq.mutexes.symm
  latches := Nat.le_of_eq hq.latches.symm
  nextTid := Nat.le_of_eq hq.nextTid.symm
  slots i s' h := .inl (hq.slots i s' h)

/-- Putting the mover in yet another state after a local move. -/
theorem Local.reput {w₁ : World} {y : Context} {l₀ : LockRef} (h : Local w w₁ c y l₀)
    (x' : Context) : Local w (w₁.put c x') c x' l₀ where
  self := ctx_put_self w₁ c x' (by simp [h.self])
  others d hd := by
    rw [ctx?_put_ne w₁ x' hd]
    exact h.others d hd
  cells l hl := by rw [cell_put]; exact h.cells l hl
  mutexes := by simpa using h.mutexes
  latches := by simpa using h.latches
  nextTid := by simpa using h.nextTid
  slots i s' hs' := by
    obtain ⟨s₁, h₁, hst, hp⟩ := slots_put hs'
    rcases h.slots i s₁ h₁ with ⟨s, h0, hl⟩ | ⟨h0, hnew⟩
    · exact .inl ⟨s, h0, hl.trans ⟨fun h => hst ▸ h, .inl hp⟩⟩
    · refine .inr ⟨h0, fun p hp' => ?_⟩
      rw [hp] at hp'
      exact (hnew p hp').mono (by simp) (by simp)

theorem Follows.of_cell {w' : World} {l : LockRef} (h : w.Follows c x l)
    (hc : w'.cell l = w.cell l) : w'.Follows c x l := by
  unfold Follows
  rw [hc]
  exact h

theorem Follows.of_wakes {w' : World} {x' : Context} {l : LockRef} (h : w.Follows c x l)
    (hw : x.Wakes x') (hc : w'.cell l = w.cell l) : w'.Follows c x' l := by
  obtain ⟨p, hfit, ha⟩ := h
  obtain ⟨hself, -, -, -, hcode, -, -⟩ := hw.same
  refine ⟨p, ⟨?_, ?_, ?_⟩, ?_⟩
  · rw [hw.grip]
    exact hfit.grip
  · rw [hc]
    exact hfit.owner
  · rw [hc, hself]
    exact hfit.holder
  · rw [hw.names, hcode]
    exact ha

/-- A context that is at most woken, with no lock cell changed, keeps its part of the invariant. -/
theorem Keeps.of_wakes {w' : World} {x' : Context} {l₀ : LockRef} (hs : w.Sound)
    (hx : w.ctx? c = some x) (hl : Local w w' c x' l₀) (hw : x.Wakes x')
    (hcells : ∀ l, w'.cell l = w.cell l) : Keeps w w' c x x' l₀ := by
  obtain ⟨hself, hg, -, -, hcode, hsc, hen⟩ := hw.same
  refine ⟨⟨hself ▸ (hs.self c x hx).1, by rw [hself]⟩, .inl (hcells l₀),
    fun l => (hs.follows c x hx l).of_wakes hw (hcells l), ?_, ?_, ?_, ?_, ?_⟩
  · intro op hop l h
    rw [hcode] at hop
    exact hl.exists (hs.code c x hx op hop l h)
  · rw [hsc]
    exact (hs.scope c x hx).mono hl.mutexes hl.latches
  · intro i hc hend m hm
    subst hc
    rw [hcells, hg, hcode] at hm
    rw [hsc]
    exact hs.named i x hx (hen ▸ hend) m hm
  · intro i hc he l
    subst hc
    rw [hcells]
    exact hs.ended i x hx (hen ▸ he) l
  · intro hc
    subst hc
    have hm : w.main = x := by simpa [ctx?] using hx
    rw [hsc, ← hm]
    exact hs.keys

/-- Quiet updates keep the invariant: every context is at most woken and no lock changes. -/
theorem Sound.quiet {w' : World} (hs : w.Sound) (hq : Quiet w w') : w'.Sound := by
  have hr := hq.ctx .main
  simp only [ctx?] at hr
  cases hr with
  | some hw =>
    have hl : Local w w' .main w'.main (.mutex 0) := Local.of_quiet hq rfl
    exact hs.of_local rfl hl (Keeps.of_wakes hs rfl hl hw hq.cell)

/-! ### Installing the moves of a step -/

/-- What the mover keeps when it begins a step: no cell changes, and its new moves work on locks
that exist. -/
theorem Keeps.begin {w' : World} {x' : Context} {l₀ : LockRef} (hl : Local w w' c x' l₀)
    (hcells : ∀ l, w'.cell l = w.cell l) (hself : x'.self.Sound)
    (hk : x'.self.kernel = x.self.kernel) (hen : x'.ended = none)
    (hex : ∀ op ∈ x'.code, ∀ l, op.lock? = some l → (w.lock? l).isSome)
    (hscope : x'.scope.Within w')
    (hnamed : ∀ i, c = .thread i → ∀ m, ((w.cell (.mutex m)).owner = some c ∨
      LockRef.mutex m ∈ x'.guards ∨ ∃ op ∈ x'.code, op.lock? = some (.mutex m)) →
        x'.scope.refersTo m = true)
    (hkeys : c = .main → (x'.scope.mutexes.map Prod.snd).Nodup)
    (hfollows : ∀ l, w'.Follows c x' l) : Keeps w w' c x x' l₀ where
  self := ⟨hself, hk⟩
  cell := .inl (hcells l₀)
  follows := hfollows
  code op hop l h := hl.exists (hex op hop l h)
  scope := hscope
  named i hc _ m hm := hnamed i hc m (by rwa [hcells] at hm)
  ended _ _ h := by simp [hen] at h
  keys := hkeys

/-- Beginning a step that leaves the mover standing with every lock as it did and installs moves
accepted from every phase a step begins in. -/
theorem Sound.install {w' : World} {x' : Context} {l₀ : LockRef} (hs : w.Sound)
    (hx : w.ctx? c = some x) (hcode : x.code = []) (hend : x.ended = none)
    (hl : Local w w' c x' l₀) (hcells : ∀ l, w'.cell l = w.cell l) (hal : x.Alike x')
    (hself : x'.self.Sound) (hex : ∀ op ∈ x'.code, ∀ l, op.lock? = some l → (w.lock? l).isSome)
    (hnamed : ∀ i, c = .thread i → ∀ op ∈ x'.code, ∀ m, op.lock? = some (.mutex m) →
      x.scope.refersTo m = true)
    (hacc : ∀ l (p : Phase), p.Fits (w.cell l) c x.self.kernel (x.grip l) →
      p.Accepts (x.names l) l [] → p.Accepts (x.names l) l x'.code) : w'.Sound := by
  refine hs.of_local hx hl (Keeps.begin hl hcells hself hal.kernel (hal.ended.trans hend) hex
    (((hs.scope c x hx).congr hal.mutexes hal.latches).mono hl.mutexes hl.latches) ?_ ?_
    fun l => ?_)
  · intro i hc m hm
    subst hc
    rw [Scope.refersTo, hal.mutexes]
    rcases hm with ho | hg | ⟨op, hop, hl'⟩
    · exact hs.named i x hx hend m (.inl ho)
    · exact hs.named i x hx hend m (.inr (.inl (hal.guards ▸ hg)))
    · exact hnamed i rfl op hop m hl'
  · intro hc
    subst hc
    have hm : w.main = x := by simpa [ctx?] using hx
    rw [hal.mutexes, ← hm]
    exact hs.keys
  · obtain ⟨p, hfit, hidle⟩ := hs.idle hx hcode l
    refine ⟨p, ⟨?_, ?_, ?_⟩, ?_⟩
    · rw [hal.grip]
      exact hfit.grip
    · rw [hcells]
      exact hfit.owner
    · rw [hcells, hal.kernel]
      exact hfit.holder
    · rw [Context.names_of_scope hal.mutexes]
      exact hacc l p hfit hidle

/-- `Sound.install` after quiet updates of the world. -/
theorem Sound.install_put {w₁ : World} (x' : Context) (hs : w.Sound) (hx : w.ctx? c = some x)
    (hcode : x.code = []) (hend : x.ended = none) (hq : Quiet w w₁) (hal : x.Alike x')
    (hself : x'.self.Sound) (hex : ∀ op ∈ x'.code, ∀ l, op.lock? = some l → (w.lock? l).isSome)
    (hnamed : ∀ i, c = .thread i → ∀ op ∈ x'.code, ∀ m, op.lock? = some (.mutex m) →
      x.scope.refersTo m = true)
    (hacc : ∀ l (p : Phase), p.Fits (w.cell l) c x.self.kernel (x.grip l) →
      p.Accepts (x.names l) l [] → p.Accepts (x.names l) l x'.code) : (w₁.put c x').Sound :=
  hs.install hx hcode hend (Local.put hq hx : Local w (w₁.put c x') c x' (.mutex 0))
    (fun l => by rw [cell_put, hq.cell]) hal hself hex hnamed hacc

/-- Answering a step at once, after quiet updates of the world. -/
theorem Sound.reply_put {w₁ : World} (x' : Context) (hs : w.Sound) (hx : w.ctx? c = some x)
    (hcode : x.code = []) (hend : x.ended = none) (hq : Quiet w w₁) (hal : x.Alike x')
    (hself : x'.self.Sound) (hc : x'.code = []) : (w₁.put c x').Sound :=
  hs.install_put x' hx hcode hend hq hal hself (by simp [hc]) (by simp [hc])
    fun _ _ _ h => by rwa [hc]

/-- Answering a step at once after a local move that changes no lock. -/
theorem Sound.answer {w' : World} {x' : Context} (hs : w.Sound)
    (hx : w.ctx? c = some x) (hcode : x.code = []) (hend : x.ended = none)
    (hl : Local w w' c x' (.mutex 0)) (hcells : ∀ l, w'.cell l = w.cell l) (hal : x.Alike x')
    (hself : x'.self.Sound) (hc : x'.code = []) : w'.Sound :=
  hs.install hx hcode hend hl hcells hal hself (by simp [hc]) (by simp [hc])
    fun _ _ _ h => by rwa [hc]

/-- Answering a step after the mover was put in a state alike to its own, and quiet updates
followed. -/
theorem Sound.answer_over {w₁ w₂ : World} (y : Context) (r : Reply) (hs : w.Sound)
    (hx : w.ctx? c = some x) (hcode : x.code = []) (hend : x.ended = none) (hq₁ : Quiet w w₁)
    (hq₂ : Quiet (w₁.put c y) w₂) (hal : x.Alike y) (hself : y.self.Sound) (hc : y.code = [])
    (hp : y.parked = none) : (w₂.reply c y r).Sound := by
  unfold World.reply
  have hl₁ : Local w (w₁.put c y) c y (.mutex 0) := Local.put hq₁ hx
  have hl := (hl₁.quiet hq₂ (hq₂.ctx?_of_awake hl₁.self hp)).reput (y.answer r)
  exact hs.answer hx hcode hend hl (fun l => by rw [cell_put, hq₂.cell, cell_put, hq₁.cell])
    (hal.answer r) hself hc

/-- Beginning a step whose moves work on lock `l'` alone: `l'` exists and the mover can name it. -/
theorem Sound.install_on {w₁ : World} (y : Context) (code : List Op) {l' : LockRef}
    (hs : w.Sound) (hx : w.ctx? c = some x) (hcode : x.code = []) (hend : x.ended = none)
    (hq : Quiet w w₁) (hal : x.Alike y) (hself : y.self.Sound)
    (hops : ∀ op ∈ code, ∀ l, op.lock? = some l → l = l') (hex : (w.lock? l').isSome)
    (hnamed : ∀ i m, c = .thread i → l' = .mutex m → x.scope.refersTo m = true)
    (hacc : ∀ l (p : Phase), p.Fits (w.cell l) c x.self.kernel (x.grip l) →
      p.Accepts (x.names l) l [] → p.Accepts (x.names l) l code) :
    (w₁.put c { y with code := code }).Sound := by
  refine hs.install_put _ hx hcode hend hq (hal.setCode code) hself ?_ ?_ hacc
  · intro op hop l hl
    rw [hops op hop l hl]
    exact hex
  · intro i hc op hop m hl
    exact hnamed i m hc (hops op hop _ hl).symm

/-- A scoped guard of lock `l'` around `body`, then moves on no lock: `l'` exists, the mover can
name it, and the script keeps no guard of it. -/
theorem Sound.install_scoped {w₁ : World} (y : Context) {l' : LockRef} {body tail : List Op}
    (hs : w.Sound) (hx : w.ctx? c = some x) (hcode : x.code = []) (hend : x.ended = none)
    (hq : Quiet w w₁) (hal : x.Alike y) (hself : y.self.Sound) (hex : (w.lock? l').isSome)
    (hnamed : ∀ i m, c = .thread i → l' = .mutex m → x.scope.refersTo m = true)
    (hkept : ∀ m ∈ x.held, l' ≠ .mutex m)
    (hbody : (Outcome.phase (.guarded false)).run l' body = .phase (.guarded false))
    (hops : ∀ op ∈ body, op.lock? = some l')
    (htail : ∀ op ∈ tail, op.lock? = none ∧ op.ends = false) :
    (w₁.put c { y with code := Op.scoped l' body ++ tail }).Sound := by
  refine hs.install_on y _ hx hcode hend hq hal hself ?_ hex hnamed ?_
  · intro op hop l hl
    rcases List.mem_append.mp hop with hop | hop
    · rw [Op.lock?_of_mem_scoped hops hop] at hl
      exact (Option.some.inj hl).symm
    · rw [(htail op hop).1] at hl
      cases hl
  · intro l p hfit hidle
    refine Phase.accepts_scoped hidle (fun he hp => ?_) hbody hops htail
    obtain ⟨m, hm, rfl⟩ := (guarded_true_iff hfit hidle).mp hp
    exact hkept m hm he.symm

/-- A scoped guard of a mutex the step names and whose guard the script does not keep. -/
theorem Sound.install_mutex {w₁ : World} (y : Context) {id : String} {k : Nat}
    {body tail : List Op} (hs : w.Sound) (hx : w.ctx? c = some x) (hcode : x.code = [])
    (hend : x.ended = none) (hq : Quiet w w₁) (hal : x.Alike y) (hself : y.self.Sound)
    (hk : x.scope.mutexes.lookup id = some k) (hnot : k ∉ x.held)
    (hbody : (Outcome.phase (.guarded false)).run (.mutex k) body = .phase (.guarded false))
    (hops : ∀ op ∈ body, op.lock? = some (.mutex k))
    (htail : ∀ op ∈ tail, op.lock? = none ∧ op.ends = false) :
    (w₁.put c { y with code := Op.scoped (.mutex k) body ++ tail }).Sound :=
  hs.install_scoped y hx hcode hend hq hal hself ((hs.scope c x hx).mutex hk)
    (fun _ _ _ he => by cases he; exact Scope.refersTo_of_lookup hk)
    (fun m hm he => by cases he; exact hnot hm) hbody hops htail

/-- A scoped guard of a latch the step names. -/
theorem Sound.install_latch {w₁ : World} (y : Context) {id : String} {k : Nat}
    {body tail : List Op} (hs : w.Sound) (hx : w.ctx? c = some x) (hcode : x.code = [])
    (hend : x.ended = none) (hq : Quiet w w₁) (hal : x.Alike y) (hself : y.self.Sound)
    (hk : x.scope.latches.lookup id = some k)
    (hbody : (Outcome.phase (.guarded false)).run (.latch k) body = .phase (.guarded false))
    (hops : ∀ op ∈ body, op.lock? = some (.latch k))
    (htail : ∀ op ∈ tail, op.lock? = none ∧ op.ends = false) :
    (w₁.put c { y with code := Op.scoped (.latch k) body ++ tail }).Sound :=
  hs.install_scoped y hx hcode hend hq hal hself ((hs.scope c x hx).latch hk)
    (fun _ _ _ he => by cases he) (fun _ _ he => by cases he) hbody hops htail

/-- Moves on no lock, none of which ends the function. -/
theorem Sound.install_free {w₁ : World} (y : Context) (code : List Op) (hs : w.Sound)
    (hx : w.ctx? c = some x) (hcode : x.code = []) (hend : x.ended = none) (hq : Quiet w w₁)
    (hal : x.Alike y) (hself : y.self.Sound)
    (hops : ∀ op ∈ code, op.lock? = none ∧ op.ends = false) :
    (w₁.put c { y with code := code }).Sound := by
  refine hs.install_put _ hx hcode hend hq (hal.setCode code) hself ?_ ?_ ?_
  · intro op hop l hl
    rw [(hops op hop).1] at hl
    cases hl
  · intro i _ op hop m hl
    rw [(hops op hop).1] at hl
    cases hl
  · intro l p _ hidle
    refine Phase.accepts_untouched hidle fun op hop => ?_
    rw [(hops op hop).1, (hops op hop).2]
    exact ⟨by simp, rfl⟩

/-- Dropping every kept guard and finishing. -/
theorem Sound.install_release {w₁ : World} (y : Context) (f : Option Failure) (hs : w.Sound)
    (hx : w.ctx? c = some x) (hcode : x.code = []) (hend : x.ended = none) (hq : Quiet w w₁)
    (hal : x.Alike y) (hself : y.self.Sound) :
    (w₁.put c { y with code := y.held.flatMap Op.unlockKept ++ [.finish f] }).Sound := by
  have hops : ∀ op ∈ y.held.flatMap Op.unlockKept ++ [.finish f], ∀ l, op.lock? = some l →
      ∃ m ∈ x.held, l = .mutex m := by
    intro op hop l hl
    rcases List.mem_append.mp hop with hop | hop
    · obtain ⟨m, hm, hop⟩ := List.mem_flatMap.mp hop
      refine ⟨m, hal.held ▸ hm, ?_⟩
      simp only [Op.unlockKept, List.mem_cons, List.mem_nil_iff, or_false] at hop
      rcases hop with rfl | rfl | rfl <;> simpa [Op.lock?] using hl.symm
    · rw [List.mem_singleton.mp hop] at hl
      cases hl
  refine hs.install_put _ hx hcode hend hq (hal.setCode _) hself ?_ ?_ ?_
  · intro op hop l hl
    obtain ⟨m, hm, rfl⟩ := hops op hop l hl
    exact lock?_isSome_of_owner (hs.owner_of_held hx hcode hm)
  · intro i hc op hop m hl
    obtain ⟨m', hm', he⟩ := hops op hop _ hl
    cases he
    subst hc
    exact hs.named i x hx hend m (.inl (hs.owner_of_held hx hcode hm'))
  · intro l p hfit hidle
    have hiff := guarded_true_iff hfit hidle
    show p.Accepts _ l (y.held.flatMap Op.unlockKept ++ [.finish f])
    rw [hal.held]
    exact Phase.accepts_unlockAll (hs.held_nodup hx) hidle (fun m hm he => hiff.mpr ⟨m, hm, he⟩)
      hiff.mp

/-- A step that fails: main answers with the failure, a managed thread unwinds and finishes. -/
theorem Sound.failStep {w₁ : World} (y : Context) (f : Failure) (hs : w.Sound)
    (hx : w.ctx? c = some x) (hcode : x.code = []) (hend : x.ended = none) (hq : Quiet w w₁)
    (hal : x.Alike y) (hself : y.self.Sound) (hc : y.code = []) : (w₁.failStep c y f).Sound := by
  cases c with
  | main => exact hs.reply_put _ hx hcode hend hq (hal.answer _) hself hc
  | thread i => exact hs.install_release y (some f) hx hcode hend hq hal hself
/-! ### Steps only main runs -/

/-- A step that main answers at once, in a world that only grew, keeps the world sound. -/
theorem Sound.answer_main {w₁ : World} (x' : Context) (hs : w.Sound) (hx : w.ctx? .main = some x)
    (hcode : x.code = []) (hl : Local w w₁ .main x (.mutex 0))
    (hcells : ∀ l, w₁.cell l = w.cell l) (hself : x'.self.Sound)
    (hk : x'.self.kernel = x.self.kernel) (hheld : x'.held = x.held)
    (hguards : x'.guards = x.guards) (hwait : x'.waitingOn = x.waitingOn)
    (hen : x'.ended = none) (hc : x'.code = []) (hscope : x'.scope.Within w₁)
    (hkeys : (x'.scope.mutexes.map Prod.snd).Nodup)
    (hnames : ∀ l, x'.names l = true → x.names l = true ∨ (w.lock? l).isSome = false) :
    (w₁.put .main x').Sound := by
  have hl' := hl.reput x'
  have hcells' : ∀ l, (w₁.put .main x').cell l = w.cell l := fun l => by rw [cell_put, hcells]
  refine hs.of_local hx hl' (Keeps.begin hl' hcells' hself hk hen (by simp [hc])
    (hscope.mono (by simp) (by simp)) (fun i h => by cases h) (fun _ => hkeys) fun l => ?_)
  obtain ⟨p, hfit, hidle⟩ := hs.idle hx hcode l
  refine ⟨p, ⟨?_, ?_, ?_⟩, ?_⟩
  · have hg : x'.grip l = x.grip l :=
      Context.grip_congr (by rw [hguards]) (by rw [hwait]) (by rw [hheld])
    rw [hg]
    exact hfit.grip
  · rw [hcells']
    exact hfit.owner
  · rw [hcells', hk]
    exact hfit.holder
  · rw [hc]
    cases hname : x'.names l with
    | false => exact Outcome.Ends.forget hidle
    | true =>
      rcases hnames l hname with h | h
      · rw [h] at hidle
        exact hidle
      · -- a lock that did not exist has no owner, so main stands free of it
        have ho : p.owned = false := by
          rw [Bool.eq_false_iff]
          intro hp
          have := hfit.owner.mpr hp
          rw [cell_of_lock?_none h] at this
          cases this
        rw [Phase.eq_free_of_idle hidle ho]
        trivial

/-- Main makes mutex `k`, the next key, and names it by `id`. -/
theorem Sound.mutexNew (y : Context) (id : String) (v : Int64) (hs : w.Sound)
    (hx : w.ctx? .main = some x) (hcode : x.code = []) (hend : x.ended = none) (hal : x.Alike y)
    (hself : y.self.Sound) (hc : y.code = []) :
    ({ w with mutexes := w.mutexes.push { value := v } }.reply .main
      { y with scope := y.scope.bindMutex id w.mutexes.size } .empty).Sound := by
  have hm : w.main = x := by simpa [ctx?] using hx
  have hcells : ∀ l, ({ w with mutexes := w.mutexes.push { value := v } } : World).cell l =
      w.cell l := cell_push_mutex rfl rfl
  have hwithin := hs.scope .main x hx
  refine hs.answer_main _ hx hcode (Local.grown (.mutex 0) hx (fun d => by cases d <;> rfl) hcells
    (by simp) (Nat.le_refl _) (Nat.le_refl _) fun i s' h => .inl ⟨s', h, .refl s'⟩) hcells hself
    hal.kernel hal.held hal.guards hal.waitingOn (hal.ended.trans hend) hc ⟨?_, ?_⟩ ?_ ?_
  · intro p hp
    simp only [Context.answer, Scope.bindMutex, List.mem_cons, List.mem_filter] at hp
    rcases hp with rfl | ⟨hp, -⟩
    · simp
    · have := hwithin.1 p (hal.mutexes ▸ hp)
      simp only [Array.size_push]
      omega
  · intro p hp
    exact hwithin.2 p (hal.latches ▸ hp)
  · -- the new key is above every key main names
    have hkeys : (y.scope.mutexes.map Prod.snd).Nodup := by rw [hal.mutexes, ← hm]; exact hs.keys
    simp only [Context.answer, Scope.bindMutex, List.map_cons, List.nodup_cons, List.mem_map,
      List.mem_filter]
    refine ⟨?_, (List.filter_sublist.map Prod.snd).nodup hkeys⟩
    rintro ⟨p, ⟨hp, -⟩, he⟩
    have := hwithin.1 p (hal.mutexes ▸ hp)
    omega
  · intro l hname
    cases l with
    | mutex m =>
      rcases Scope.refersTo_bindMutex hname with rfl | h
      · exact .inr (by simp [lock?])
      · exact .inl (by simpa [Context.names, Scope.refersTo, hal.mutexes] using h)
    | latch k => exact .inl rfl

/-- Main makes latch `k`, the next key, and names it by `id`. -/
theorem Sound.latchNew (y : Context) (id : String) (n : Nat) (hs : w.Sound)
    (hx : w.ctx? .main = some x) (hcode : x.code = []) (hend : x.ended = none) (hal : x.Alike y)
    (hself : y.self.Sound) (hc : y.code = []) :
    ({ w with latches := w.latches.push { count := n } }.reply .main
      { y with scope := y.scope.bindLatch id w.latches.size } .empty).Sound := by
  have hm : w.main = x := by simpa [ctx?] using hx
  have hcells : ∀ l, ({ w with latches := w.latches.push { count := n } } : World).cell l =
      w.cell l := cell_push_latch rfl rfl
  have hwithin := hs.scope .main x hx
  refine hs.answer_main _ hx hcode (Local.grown (.mutex 0) hx (fun d => by cases d <;> rfl) hcells
    (Nat.le_refl _) (by simp) (Nat.le_refl _) fun i s' h => .inl ⟨s', h, .refl s'⟩) hcells hself
    hal.kernel hal.held hal.guards hal.waitingOn (hal.ended.trans hend) hc ⟨?_, ?_⟩ ?_ ?_
  · intro p hp
    exact hwithin.1 p (hal.mutexes ▸ hp)
  · intro p hp
    simp only [Context.answer, Scope.bindLatch, List.mem_cons, List.mem_filter] at hp
    rcases hp with rfl | ⟨hp, -⟩
    · simp
    · have := hwithin.2 p (hal.latches ▸ hp)
      simp only [Array.size_push]
      omega
  · show (y.scope.mutexes.map Prod.snd).Nodup
    rw [hal.mutexes, ← hm]
    exact hs.keys
  · intro l hname
    have hn : ({ y with scope := y.scope.bindLatch id w.latches.size }.answer .empty).names l =
        x.names l := Context.names_of_scope hal.mutexes l
    exact .inl (hn ▸ hname)

/-- Main drops its id of mutex `k`, and with it any guard of `k` the script keeps: main still owns
the lock, with a guard it can no longer name. -/
theorem Sound.mutexDrop (y : Context) {id : String} {k : Nat} (hs : w.Sound)
    (hx : w.ctx? .main = some x) (hcode : x.code = []) (hend : x.ended = none) (hal : x.Alike y)
    (hself : y.self.Sound) (hc : y.code = []) (hp : y.parked = none)
    (hk : x.scope.mutexes.lookup id = some k) :
    (((w.put .main { y with held := y.held.erase k, scope := y.scope.forgetMutex id }).dropRefs
      [k]).reply .main { y with held := y.held.erase k, scope := y.scope.forgetMutex id }
        .empty).Sound := by
  have hm : w.main = x := by simpa [ctx?] using hx
  have hkeys : (x.scope.mutexes.map Prod.snd).Nodup := by rw [← hm]; exact hs.keys
  let y' : Context := { y with held := y.held.erase k, scope := y.scope.forgetMutex id }
  show (((w.put .main y').dropRefs [k]).put .main (y'.answer .empty)).Sound
  have hl₁ : Local w (w.put .main y') .main y' (.mutex 0) := Local.put (Quiet.refl w) hx
  have hl := (hl₁.quiet (Quiet.dropRefs _ [k])
    ((Quiet.dropRefs _ [k]).ctx?_of_awake hl₁.self hp)).reput (y'.answer .empty)
  have hcells : ∀ l, (((w.put .main y').dropRefs [k]).put .main (y'.answer .empty)).cell l =
      w.cell l := fun l => by rw [cell_put, (Quiet.dropRefs _ _).cell, cell_put]
  have hk' : (y'.answer .empty).self.kernel = x.self.kernel := hal.kernel
  have hsub : ∀ p ∈ y'.scope.mutexes, p ∈ x.scope.mutexes := by
    intro p hp
    simp only [y', Scope.forgetMutex, List.mem_filter] at hp
    exact hal.mutexes ▸ hp.1
  have hwithin : y'.scope.Within w :=
    ⟨fun p hp => (hs.scope .main x hx).1 p (hsub p hp),
      fun p hp => (hs.scope .main x hx).2 p (hal.latches ▸ hp)⟩
  refine hs.of_local hx hl (Keeps.begin hl hcells hself hal.kernel (hal.ended.trans hend)
    (by simp [y', Context.answer, hc]) (hwithin.mono hl.mutexes hl.latches)
    (fun i h => by cases h) (fun _ => ?_) fun l => ?_)
  · exact (List.filter_sublist.map Prod.snd).nodup (hal.mutexes ▸ hkeys)
  · obtain ⟨p, hfit, hidle⟩ := hs.idle hx hcode l
    by_cases hkept : l = .mutex k ∧ k ∈ x.held
    · -- the kept guard becomes one main has forgotten
      obtain ⟨rfl, hmem⟩ := hkept
      have hp : p = .guarded true := (guarded_true_iff hfit hidle).mpr ⟨k, hmem, rfl⟩
      subst hp
      refine ⟨.guarded false, ⟨?_, ?_, fun _ => ?_⟩, ?_⟩
      · have hg := Context.grip_eq_iff.mp hfit.grip
        rw [Context.grip_eq_iff]
        refine ⟨?_, ?_, ?_⟩
        · show y.guards.count _ = _
          rw [hal.guards]
          exact hg.1
        · show y.waitingOn = _ ↔ _
          rw [hal.waitingOn]
          exact hg.2.1
        · have h1 : x.held.count k = 1 := hg.2.2
          show (y.held.erase k).count k = 0
          rw [hal.held, List.count_erase_self, h1]
      · rw [hcells]
        exact hfit.owner
      · rw [hcells, hk']
        exact hfit.holder rfl
      · have hn : (y'.answer .empty).names (.mutex k) = false := by
          show (y.scope.forgetMutex id).refersTo k = false
          exact Scope.refersTo_forgetMutex_self (hal.mutexes ▸ hkeys) (hal.mutexes ▸ hk)
        show Outcome.Ends _ ((Outcome.phase (.guarded false)).run (.mutex k) y.code)
        rw [hc, hn]
        rfl
    · -- main stands with `l` as before, and names it only if it named it before
      have hkl : l.kept (y.held.erase k) = l.kept x.held := by
        rw [hal.held]
        by_cases hl : l = .mutex k
        · subst hl
          have hnm : k ∉ x.held := fun h => hkept ⟨rfl, h⟩
          rw [List.erase_of_not_mem hnm]
        · exact LockRef.kept_erase_of_ne hl _
      have hg : (y'.answer .empty).grip l = x.grip l :=
        Context.grip_congr (congrArg (List.count l) hal.guards)
          (iff_of_eq (congrArg (· = some l) hal.waitingOn)) hkl
      refine ⟨p, ⟨by rw [hg]; exact hfit.grip, by rw [hcells]; exact hfit.owner,
        by rw [hcells, hk']; exact hfit.holder⟩, ?_⟩
      show Outcome.Ends _ ((Outcome.phase p).run l y.code)
      rw [hc]
      refine Outcome.Ends.mono hidle fun h => ?_
      cases l with
      | mutex m =>
        have h' : (y.scope.forgetMutex id).refersTo m = true := h
        simpa [Context.names, Scope.refersTo, hal.mutexes] using Scope.refersTo_forgetMutex h'
      | latch _ => rfl

/-- A thread object made by the step, not yet started, whose function names only what exists. -/
theorem Sound.threadNew (y : Context) (s : Slot) (id : String) (n : Nat) (r : Reply)
    (hs : w.Sound) (hx : w.ctx? c = some x) (hcode : x.code = []) (hend : x.ended = none)
    (hal : x.Alike y) (hself : y.self.Sound) (hc : y.code = []) (hctx : s.ctx = none)
    (hprog : ∀ p, s.program = some p → p.2.Within w) :
    ({ w with slots := w.slots.push s, created := n }.reply c
      { y with scope := y.scope.bindThread id w.slots.size } r).Sound := by
  unfold reply
  have hctx' : ∀ d, ({ w with slots := w.slots.push s, created := n } : World).ctx? d = w.ctx? d :=
    ctx?_pushSlot _ _ hctx
  have hl := Local.grown (.mutex 0) hx hctx' (fun l => cell_congr rfl rfl l) (Nat.le_refl _) (Nat.le_refl _)
    (Nat.le_refl _) fun j s' h => by
      simp only [Array.getElem?_push] at h
      split at h
      · subst j
        cases h
        exact .inr ⟨by simp, hprog⟩
      · exact .inl ⟨s', h, .refl s'⟩
  exact hs.answer hx hcode hend (hl.reput _) (fun l => by rw [cell_put]; exact cell_congr rfl rfl l)
    ((hal.setScope (y.scope.bindThread id w.slots.size) rfl rfl).answer r) hself hc

/-! ### Starting and joining threads -/

/-- The handshake's moves are accepted from the free phase of every lock. -/
theorem accepts_spawnCode {named : Bool} {l : LockRef} (i h : Nat) (name : String) :
    Phase.free.Accepts named l (spawnCode i h name) := by
  rw [spawnCode, List.cons_append, Phase.accepts_cons_pass (by simp [Op.lock?]) (by simp)]
  exact ⟨rfl, Phase.accepts_scoped trivial (fun _ h => by cases h)
    (by simp [Phase.next, Op.lock?, Phase.step]) (by simp [Op.lock?]) (by simp [Op.lock?, Op.ends])⟩

/-- The handshake's moves work on its latch alone. -/
theorem lock?_of_mem_spawnCode (i h : Nat) (name : String) :
    ∀ op ∈ spawnCode i h name, ∀ l, op.lock? = some l → l = .latch h := by
  intro op hop l hl
  simp only [spawnCode, Op.scoped, List.cons_append, List.singleton_append, List.nil_append,
    List.mem_cons, List.not_mem_nil, or_false] at hop
  rcases hop with rfl | rfl | rfl | rfl | rfl | rfl | rfl <;> simp_all [Op.lock?]

/-- Starting object `i` gives its thread a fresh tid and the handshake's moves, and leaves every
other context as it was. -/
theorem Sound.spawn (hs : w.Sound) {i : Nat} {s : Slot} {name : String}
    (hsl : w.slots[i]? = some s) (hst : s.started = false) (t : Context)
    (hself : t.self = { kernel := w.nextTid }) (hscope : t.scope.Within w) (hheld : t.held = [])
    (hguards : t.guards = []) (hwait : t.waitingOn = none) (hend : t.ended = none)
    (hcode : t.code = spawnCode i w.latches.size name) :
    (({ w with latches := w.latches.push { count := 1 }, nextTid := w.nextTid + 1 } : World).modifySlot i
      fun s => { s with started := true, program := none, ctx := some t,
                        latch := some w.latches.size, handle := true }).Sound := by
  generalize hw₂ : (({ w with latches := w.latches.push { count := 1 }, nextTid := w.nextTid + 1 } :
    World).modifySlot i fun s => { s with started := true, program := none, ctx := some t,
                                          latch := some w.latches.size, handle := true }) = w₂
  have hnone : s.ctx = none := by
    cases h : s.ctx with
    | none => rfl
    | some _ =>
      have := hs.started i s hsl (by simp [h])
      rw [hst] at this
      cases this
  have hslot : ∀ j, w₂.slots[j]? =
      if i = j then
        some { s with started := true, program := none, ctx := some t, latch := some w.latches.size,
                      handle := true }
      else w.slots[j]? := by
    intro j
    subst hw₂
    simp only [modifySlot, Array.getElem?_modify]
    split
    · subst j
      simp [hsl]
    · rfl
  have hctx : ∀ d, w₂.ctx? d = if d = .thread i then some t else w.ctx? d := by
    intro d
    cases d with
    | main =>
      subst hw₂
      rfl
    | thread j =>
      simp only [ctx?, hslot, Ctx.thread.injEq]
      by_cases hij : i = j
      · subst hij
        simp
      · simp [hij, Ne.symm hij]
  have hcell : ∀ l, w₂.cell l = w.cell l := by
    subst hw₂
    exact cell_push_latch rfl rfl
  have hmain : w₂.main = w.main := by
    subst hw₂
    rfl
  have hsizes : w.mutexes.size ≤ w₂.mutexes.size ∧ w.latches.size ≤ w₂.latches.size := by
    subst hw₂
    simp [modifySlot]
  have hnext : w₂.nextTid = w.nextTid + 1 := by
    subst hw₂
    rfl
  have hctxi : w.ctx? (.thread i) = none := by simp [ctx?, hsl, hnone]
  have hnot : ∀ l, (w.cell l).owner ≠ some (.thread i) := by
    intro l h
    have := hs.owner l _ h
    rw [hctxi] at this
    cases this
  have hlt : ∀ d y, w.ctx? d = some y → y.self.kernel < w.nextTid := fun d y hy =>
    (hs.self d y hy).2.2
  have hpos : 0 < w.nextTid := Nat.lt_of_le_of_lt (Nat.zero_le _) (hlt .main w.main rfl)
  have hnamed : ∀ m, ¬((w₂.cell (.mutex m)).owner = some (.thread i) ∨ LockRef.mutex m ∈ t.guards ∨
      ∃ op ∈ t.code, op.lock? = some (.mutex m)) := by
    rintro m (ho | hg | ⟨op, hop, hl⟩)
    · exact hnot _ (hcell _ ▸ ho)
    · simp [hguards] at hg
    · rw [hcode] at hop
      cases lock?_of_mem_spawnCode i _ name op hop _ hl
  constructor
  · intro d y hy
    rw [hctx] at hy
    split at hy
    · cases hy
      refine ⟨by rw [hself]; exact .inl rfl, by rw [hself]; exact hpos, ?_⟩
      rw [hself, hnext]
      exact Nat.lt_succ_self _
    · obtain ⟨h1, h2, h3⟩ := hs.self d y hy
      exact ⟨h1, h2, by rw [hnext]; exact Nat.lt_succ_of_lt h3⟩
  · intro d e y z hy hz he
    rw [hctx] at hy hz
    split at hy <;> split at hz
    · subst_vars
      rfl
    · cases hy
      rw [hself] at he
      exact absurd (he ▸ hlt e z hz) (Nat.lt_irrefl _)
    · cases hz
      rw [hself] at he
      exact absurd (he ▸ hlt d y hy) (Nat.lt_irrefl _)
    · exact hs.distinct d e y z hy hz he
  · intro l h
    rw [hcell] at h ⊢
    exact hs.unowned l h
  · intro l d h
    rw [hcell] at h
    rw [hctx]
    split
    · rfl
    · exact hs.owner l d h
  · intro d y hy l
    rw [hctx] at hy
    split at hy
    · cases hy
      rename_i hd
      subst hd
      refine ⟨.free, ⟨?_, ?_, fun h => by cases h⟩, ?_⟩
      · rw [Context.grip_eq_iff]
        refine ⟨by simp [hguards, Phase.grip], by simp [hwait, Phase.grip], ?_⟩
        cases l <;> simp [hheld, LockRef.kept, Phase.grip]
      · rw [hcell]
        exact iff_of_false (hnot l) (by simp [Phase.owned])
      · rw [hcode]
        exact accepts_spawnCode i _ name
    · exact (hs.follows d y hy l).of_cell (hcell l)
  · intro d y hy op hop l hl
    rw [hctx] at hy
    split at hy
    · cases hy
      rw [hcode] at hop
      rw [lock?_of_mem_spawnCode i _ name op hop l hl, lock?_isSome_iff]
      subst hw₂
      simp [modifySlot]
    · exact lock?_isSome_mono hsizes.1 hsizes.2 (hs.code d y hy op hop l hl)
  · intro d y hy
    rw [hctx] at hy
    split at hy
    · cases hy
      exact hscope.mono hsizes.1 hsizes.2
    · exact (hs.scope d y hy).mono hsizes.1 hsizes.2
  · intro j s' p hs' hp
    rw [hslot] at hs'
    split at hs'
    · cases hs'
      cases hp
    · exact (hs.programs j s' p hs' hp).mono hsizes.1 hsizes.2
  · intro j s' hs' hc
    rw [hslot] at hs'
    split at hs'
    · cases hs'
      rfl
    · exact hs.started j s' hs' hc
  · intro j y hy hend' m hm
    rw [hctx] at hy
    split at hy
    · cases hy
      rename_i hj
      cases hj
      exact absurd hm (hnamed m)
    · rw [hcell] at hm
      exact hs.named j y hy hend' m hm
  · intro j y hy he l
    rw [hctx] at hy
    split at hy
    · cases hy
      rw [hend] at he
      cases he
    · rw [hcell]
      exact hs.ended j y hy he l
  · rw [hmain]
    exact hs.keys

/-- A context that starts a thread object not yet started is not that object's thread, which has
no context yet. -/
theorem Sound.starter_ne (hs : w.Sound) (hx : w.ctx? c = some x) {i : Nat} {s : Slot}
    (hsl : w.slots[i]? = some s) (hst : s.started = false) : c ≠ .thread i := by
  rintro rfl
  have hsx : s.ctx = some x := by simpa [ctx?, hsl] using hx
  have := hs.started i s hsl (by simp [hsx])
  rw [hst] at this
  cases this

/-- Context `c` starts thread object `i`: a second start fails; a thread the OS refuses loses its
function; otherwise the thread runs the handshake while `c` waits for it on the new latch. -/
theorem Sound.start (y : Context) {i : Nat} {s : Slot} (hs : w.Sound)
    (hx : w.ctx? c = some x) (hcode : x.code = []) (hend : x.ended = none) (hal : x.Alike y)
    (hself : y.self.Sound) (hc : y.code = []) (hsl : w.slots[i]? = some s) :
    (w.start c y i s).Sound := by
  unfold World.start
  split
  · exact hs.failStep y _ hx hcode hend (Quiet.refl w) hal hself hc
  · rename_i hst
    have hst' : s.started = false := by simpa using hst
    split
    · exact hs.quiet (Quiet.of_views rfl rfl rfl rfl rfl)
    · rename_i actions captured hp
      split
      · -- the function is dropped, which may destroy a mutex only it named
        have hq := (Quiet.modifySlot w i (fun s => { s with started := true, program := none })
          (fun _ => rfl) fun _ => ⟨fun _ => rfl, .inr rfl⟩).trans (Quiet.dropRefs _
            (captured.mutexes.map (·.2)))
        dsimp only
        split
        · exact hs.quiet hq
        · exact hs.quiet (hq.trans (Quiet.of_views rfl rfl rfl rfl rfl))
      · have h₂ := hs.spawn hsl hst'
          { self := { kernel := w.nextTid }, osName := Identity.osLabel s.name, scope := captured,
            code := spawnCode i w.latches.size s.name, plan := actions }
          rfl (hs.programs i s _ hsl hp) rfl rfl rfl rfl rfl
        refine h₂.install_scoped y (by rw [ctx?_modifySlot_ne _ _ (hs.starter_ne hx hsl hst')]; exact hx)
          hcode hend (Quiet.refl _)
          hal hself (by simp [lock?, modifySlot]) (fun _ _ _ h => by cases h) (fun _ _ h => by cases h)
          (by simp [Phase.next, Op.lock?, Phase.step]) (by simp [Op.lock?])
          (by simp [Op.lock?, Op.ends])

/-- Context `c` joins thread object `i`: a join before the start or a second one fails; otherwise
`c` waits for the thread to end. -/
theorem Sound.join (y : Context) {i : Nat} {s : Slot} (hs : w.Sound)
    (hx : w.ctx? c = some x) (hcode : x.code = []) (hend : x.ended = none) (hal : x.Alike y)
    (hself : y.self.Sound) (hc : y.code = []) : (w.join c y i s).Sound := by
  unfold World.join
  split
  · exact hs.failStep y _ hx hcode hend (Quiet.refl w) hal hself hc
  · split
    · exact hs.failStep y _ hx hcode hend (Quiet.refl w) hal hself hc
    · split
      · exact hs.quiet (Quiet.of_views rfl rfl rfl rfl rfl)
      · exact hs.install_free y _ hx hcode hend
          (Quiet.modifySlot w i _ (fun _ => rfl) fun _ => ⟨id, .inl rfl⟩) hal hself
          (by simp [Op.lock?, Op.ends])

/-! ### Every step -/

/-- Beginning any step read for the mover keeps the invariant. -/
theorem Sound.perform {st : Step} {rest : List Value} (hs : w.Sound) (hx : w.ctx? c = some x)
    (hcode : x.code = []) (hend : x.ended = none) (hpk : x.parked = none)
    (hst : st.Resolved x.scope x.held (c != .main) w.host.threadsManage) :
    (w.perform c { x with plan := rest } st).Sound := by
  have hal : x.Alike { x with plan := rest } := ⟨rfl, rfl, rfl, rfl, rfl, rfl, rfl⟩
  have hself : x.self.Sound := (hs.self c x hx).1
  have hreply : ∀ {w₁ : World} (r : Reply), Quiet w w₁ →
      (w₁.reply c { x with plan := rest } r).Sound := fun r hq =>
    hs.reply_put _ hx hcode hend hq (hal.answer r) hself hcode
  cases st with
  | lock m =>
    simp only [World.perform]
    split
    · exact hreply _ (Quiet.refl w)
    · rename_i hnot
      have hm : x.scope.mutexes.lookup m.id = some m.key := hst.named
      refine hs.install_on _ _ hx hcode hend (Quiet.refl w) hal hself
        (by simp [Op.lockKept, Op.lock?, eq_comm]) ((hs.scope c x hx).mutex hm)
        (fun _ _ _ he => by cases he; exact Scope.refersTo_of_lookup hm)
        fun l p hfit hidle => Phase.accepts_lockKept hidle fun he hp => hnot ?_
      obtain ⟨k, hk, hl⟩ := (guarded_true_iff hfit hidle).mp hp
      rw [he] at hl
      cases hl
      exact hk
  | unlock m =>
    simp only [World.perform]
    split
    · rename_i hheld
      have hown := hs.owner_of_held hx hcode hheld
      refine hs.install_on _ _ hx hcode hend (Quiet.refl w) hal hself
        (by simp [Op.unlockKept, Op.lock?, eq_comm]) (lock?_isSome_of_owner hown)
        (fun i k hc he => by cases he; subst hc; exact hs.named i x hx hend _ (.inl hown))
        fun l p hfit hidle => Phase.accepts_unlockKept hidle fun he =>
          (guarded_true_iff hfit hidle).mpr ⟨m.key, hheld, he⟩
    · exact hreply _ (Quiet.refl w)
  | get m =>
    simp only [World.perform]
    split
    · exact hreply _ (Quiet.refl w)
    · exact hs.install_mutex _ hx hcode hend (Quiet.refl w) hal hself hst.named ‹_›
        (by simp [Phase.next, Op.lock?, Query.lock?, Phase.step]) (by simp [Op.lock?, Query.lock?])
        (by simp [Op.lock?, Op.ends])
  | set m v =>
    simp only [World.perform]
    split
    · exact hreply _ (Quiet.modifyValue w _ _)
    · exact hs.install_mutex _ hx hcode hend (Quiet.refl w) hal hself hst.named ‹_›
        (by simp [Phase.next, Op.lock?, Query.lock?, Phase.step]) (by simp [Op.lock?, Query.lock?])
        (by simp [Op.lock?, Op.ends])
  | add m v times =>
    simp only [World.perform]
    split
    · exact hreply _ (Quiet.modifyValue w _ _)
    · exact hs.install_mutex _ hx hcode hend (Quiet.refl w) hal hself hst.named ‹_›
        (by simp [Phase.next, Op.lock?, Phase.step]) (by simp [Op.lock?])
        (by simp [Op.lock?, Op.ends])
  | holder m => exact hreply _ (Quiet.refl w)
  | isLocked m =>
    exact hs.reply_put _ hx hcode hend (Quiet.of_views rfl rfl rfl rfl rfl)
      ((hal.setSelf _ (Identity.Self.tid_kernel _ _)).answer _) (Identity.Self.tid_sound _ hself)
      hcode
  | assertLocked m =>
    simp only [World.perform]
    split
    · exact hs.reply_put _ hx hcode hend (Quiet.of_views rfl rfl rfl rfl rfl)
        ((hal.setSelf _ (Identity.Self.tid_kernel _ _)).answer _)
        (Identity.Self.tid_sound _ hself) hcode
    · exact hs.failStep _ _ hx hcode hend (Quiet.of_views rfl rfl rfl rfl rfl)
        (hal.setSelf _ (Identity.Self.tid_kernel _ _)) (Identity.Self.tid_sound _ hself) hcode
  | mutexDebug m => exact hreply _ (Quiet.refl w)
  | guardDebug m =>
    simp only [World.perform]
    split <;> exact hreply _ (Quiet.refl w)
  | countDown l =>
    exact hs.install_latch _ hx hcode hend (Quiet.refl w) hal hself hst.named
      (by simp [Phase.next, Op.lock?, Phase.step]) (by simp [Op.lock?]) (by simp [Op.lock?, Op.ends])
  | wait l =>
    exact hs.install_latch _ hx hcode hend (Quiet.refl w) hal hself hst.named
      (by simp [Phase.next, Op.lock?, Phase.step]) (by simp [Op.lock?]) (by simp [Op.lock?, Op.ends])
  | count l =>
    exact hs.install_latch _ hx hcode hend (Quiet.refl w) hal hself hst.named
      (by simp [Phase.next, Op.lock?, Query.lock?, Phase.step]) (by simp [Op.lock?, Query.lock?])
      (by simp [Op.lock?, Op.ends])
  | latchDebug l =>
    exact hs.install_latch _ hx hcode hend (Quiet.refl w) hal hself hst.named
      (by simp [Phase.next, Op.lock?, Query.lock?, Phase.step]) (by simp [Op.lock?, Query.lock?])
      (by simp [Op.lock?, Op.ends])
  | notify cv => exact hreply _ (Quiet.signal w _)
  | notifyAll cv => exact hreply _ (Quiet.broadcast w _)
  | condDebug cv => exact hreply _ (Quiet.refl w)
  | waitWhile cv m cmp v =>
    simp only [World.perform]
    split
    · -- the script keeps the guard: the wait runs under it
      rename_i hheld
      have hown := hs.owner_of_held hx hcode hheld
      refine hs.install_on _ _ hx hcode hend (Quiet.refl w) hal hself
        (by simp [Op.lock?, Query.lock?, eq_comm]) (lock?_isSome_of_owner hown)
        (fun i k hc he => by cases he; subst hc; exact hs.named i x hx hend _ (.inl hown))
        fun l p hfit hidle => Phase.accepts_kept hidle
          (fun he => (guarded_true_iff hfit hidle).mpr ⟨m.key, hheld, he⟩)
          (by simp [Phase.next, Op.lock?, Query.lock?, Phase.step]) (by simp [Op.lock?, Query.lock?])
    · exact hs.install_mutex _ hx hcode hend (Quiet.refl w) hal hself hst.named ‹_›
        (by simp [Phase.next, Op.lock?, Query.lock?, Phase.step]) (by simp [Op.lock?, Query.lock?])
        (by simp [Op.lock?, Op.ends])
  | current =>
    simp only [World.perform]
    exact hs.reply_put _ hx hcode hend (Quiet.of_views rfl rfl rfl rfl rfl)
      ((hal.current w).answer _) (current_sound w hself) hcode
  | sleep usec =>
    simp only [World.perform]
    split
    · exact hreply _ (Quiet.refl w)
    · exact hs.install_free _ _ hx hcode hend (Quiet.refl w) hal hself (by simp [Op.lock?, Op.ends])
  | fail f => exact hs.failStep _ f hx hcode hend (Quiet.refl w) hal hself hcode
  | fork =>
    let s := ((x.self.tid w.process).2.1.text (x.self.tid w.process).2.2).2.1
    have hal' : x.Alike { x with plan := rest, self := s } := hal.setSelf _ (by simp [s])
    exact hs.install_free _ _ hx hcode hend (Quiet.of_views rfl rfl rfl rfl rfl) hal'
      (Identity.Self.text_sound _ (Identity.Self.tid_sound _ hself)) (by simp [Op.lock?, Op.ends])
  | mutexNew id v =>
    obtain rfl := hst.main rfl rfl
    exact hs.mutexNew _ id v hx hcode hend hal hself hcode
  | mutexDrop m =>
    obtain rfl := hst.main rfl rfl
    exact hs.mutexDrop _ hx hcode hend hal hself hcode hpk hst.named
  | getMut m set =>
    simp only [World.perform]
    split
    · exact hreply _ (Quiet.refl w)
    · exact hreply _ (Quiet.modifyValue w _ _)
  | latchNew id n =>
    obtain rfl := hst.main rfl rfl
    exact hs.latchNew _ id n hx hcode hend hal hself hcode
  | condNew id =>
    exact hs.reply_put _ hx hcode hend (Quiet.of_views rfl rfl rfl rfl rfl)
      ((hal.setScope ({ x with plan := rest }.scope.bindCond id w.conds) rfl rfl).answer _) hself
      hcode
  | threadNew spec =>
    obtain ⟨hm, hl, -⟩ : (∀ p ∈ spec.captured.mutexes, p ∈ x.scope.mutexes) ∧
        (∀ p ∈ spec.captured.latches, p ∈ x.scope.latches) ∧ spec.captured.threads = [] :=
      hst.named
    have hwithin := hs.scope c x hx
    simp only [World.perform]
    exact hs.threadNew { x with plan := rest } _ _ _ _ hx hcode hend hal hself hcode rfl fun p hp => by
      cases hp
      exact ⟨fun q hq => hwithin.1 q (hm q hq), fun q hq => hwithin.2 q (hl q hq)⟩
  | threadStart t =>
    simp only [World.perform]
    split
    · exact hs.start _ hx hcode hend hal hself hcode ‹_›
    · exact hreply _ (Quiet.refl w)
  | threadJoin t =>
    simp only [World.perform]
    split
    · exact hs.join _ hx hcode hend hal hself hcode
    · exact hreply _ (Quiet.refl w)
  | threadInfo t => exact hreply _ (Quiet.refl w)
  | threadDrop t =>
    have hal' := hal.setScope ({ x with plan := rest }.scope.forgetThread t.id) rfl rfl
    simp only [World.perform]
    split
    · split
      · exact hs.reply_put _ hx hcode hend
          (Quiet.modifySlot w _ _ (fun _ => rfl) fun _ => ⟨id, .inl rfl⟩) (hal'.answer _) hself hcode
      · -- the function is dropped, which may destroy a mutex only it named
        exact hs.answer_over _ _ hx hcode hend
          (Quiet.modifySlot w _ (fun s => { s with program := none }) (fun _ => rfl)
            fun _ => ⟨id, .inr rfl⟩) (Quiet.dropRefs _ _) hal' hself hcode hpk
    · exact hs.reply_put _ hx hcode hend (Quiet.refl w) (hal'.answer _) hself hcode
  | numCreated => exact hreply _ (Quiet.refl w)
  | classify f => exact hreply _ (Quiet.refl w)
  | exceptionNew what => exact hreply _ (Quiet.refl w)

/-- A context whose moves have run out begins its next step, or, with no steps left, drops its kept
guards and finishes: either way the invariant holds after. -/
theorem Sound.begin (hs : w.Sound) (hx : w.ctx? c = some x) (hcode : x.code = [])
    (hend : x.ended = none) (hpk : x.parked = none) : (w.begin c x).Sound := by
  have hself : x.self.Sound := (hs.self c x hx).1
  unfold World.begin
  split
  · exact hs.install_release x none hx hcode hend (Quiet.refl w) ⟨rfl, rfl, rfl, rfl, rfl, rfl, rfl⟩
      hself
  · rename_i rest _
    have hal : x.Alike { x with plan := rest } := ⟨rfl, rfl, rfl, rfl, rfl, rfl, rfl⟩
    dsimp only
    split
    · exact hs.reply_put _ hx hcode hend (Quiet.refl w) (hal.answer _) hself hcode
    · exact hs.perform hx hcode hend hpk (Step.read_resolved ‹_›)

end

end World

end ThreadKit
