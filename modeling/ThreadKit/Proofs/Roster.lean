import ThreadKit.Proofs.Lifecycle
import ThreadKit.Proofs.Ending

/-! Thread objects and their names. Making a thread object is the one move that changes the roster
of thread objects: it adds one at the end, named by the name it was given or, when that is empty,
by `Thread` and the number of thread objects made before it, and it counts one more made. Every
other move leaves the count and every name as they are (`SameRoster`). So over any run the thread
objects made are numbered in order from the count at its start, the count grows by exactly their
number, and a fork starts a child with no thread object that counts on from its parent's count
(`World.Builds.roster`). -/
namespace ThreadKit

open Script

namespace World

/-- `w'` has the count of thread objects made and the name of each thread object that `w` has. -/
structure SameRoster (w w' : World) : Prop where
  created : w'.created = w.created
  names : ∀ i : Nat, (w'.slots[i]?).map Slot.name = (w.slots[i]?).map Slot.name

namespace SameRoster

variable {w w₁ w' : World}

theorem refl (w : World) : SameRoster w w := ⟨rfl, fun _ => rfl⟩

theorem trans (h₁ : SameRoster w w₁) (h₂ : SameRoster w₁ w') : SameRoster w w' :=
  ⟨h₂.created.trans h₁.created, fun i => (h₂.names i).trans (h₁.names i)⟩

theorem of_views (hc : w'.created = w.created) (hs : w'.slots = w.slots) : SameRoster w w' :=
  ⟨hc, fun i => by rw [hs]⟩

theorem size (h : SameRoster w w') : w'.slots.size = w.slots.size := by
  have hlt : ∀ i, i < w'.slots.size ↔ i < w.slots.size := fun i => by
    simpa [isSome_getElem?] using Bool.eq_iff_iff.mp (congrArg Option.isSome (h.names i))
  rcases Nat.lt_trichotomy w'.slots.size w.slots.size with hl | he | hl
  · exact absurd ((hlt _).mpr hl) (Nat.lt_irrefl _)
  · exact he
  · exact absurd ((hlt _).mp hl) (Nat.lt_irrefl _)

theorem modifySlot (w : World) (i : Nat) (f : Slot → Slot) (hf : ∀ s, (f s).name = s.name) :
    SameRoster w (w.modifySlot i f) := by
  refine ⟨rfl, fun j => ?_⟩
  simp only [World.modifySlot, Array.getElem?_modify]
  split <;> simp [Function.comp_def, hf]

theorem release (w : World) (keys : List Nat) : SameRoster w (w.release keys) :=
  release_of_modifySlot refl trans (fun w i => modifySlot w i _ fun _ => rfl) w keys

theorem put (w : World) (c : Ctx) (x : Context) : SameRoster w (w.put c x) :=
  ⟨by cases c <;> rfl, name_put w c x⟩

theorem modifyLock (w : World) (l : LockRef) (f : LockCell → LockCell) :
    SameRoster w (w.modifyLock l f) :=
  of_views (by cases l <;> rfl) (modifyLock_slots w l f)

theorem dropRefs (w : World) (keys : List Nat) : SameRoster w (w.dropRefs keys) :=
  of_views (by rw [dropRefs_eq]) (by rw [dropRefs_eq])

theorem wake (w : World) (c : Ctx) : SameRoster w (w.wake c) := by
  unfold World.wake
  split
  · exact put w c _
  · exact refl w

theorem signal (w : World) (cv : CondRef) : SameRoster w (w.signal cv) :=
  signal_of_wake refl wake w cv

theorem broadcast (w : World) (cv : CondRef) : SameRoster w (w.broadcast cv) :=
  broadcast_of_wake refl (fun h₁ h₂ => h₁.trans h₂) wake w cv

theorem record (w : World) (c : Ctx) (x : Context) (l : LockRef) (f : Context → Context) :
    SameRoster w (w.record c x l f) := by
  rw [record_eq]
  have h₁ : SameRoster w { w with process := (x.requestTid w.process).2.2 } := of_views rfl rfl
  exact (h₁.trans (put _ c _)).trans (modifyLock _ l _)

theorem reply (w : World) (c : Ctx) (x : Context) (r : Reply) : SameRoster w (w.reply c x r) :=
  put w c _

theorem install (w : World) (c : Ctx) (x : Context) (code : List Op) :
    SameRoster w (w.install c x code) :=
  put w c _

theorem failStep (w : World) (c : Ctx) (x : Context) (f : Failure) :
    SameRoster w (w.failStep c x f) := by
  unfold World.failStep
  split
  · exact reply w _ x _
  · exact install w _ x _

theorem finish (w : World) (c : Ctx) (x : Context) (f : Option Failure) :
    SameRoster w (w.finish c x f) := by
  unfold World.finish
  split
  · exact ((put w _ _).trans (release _ _)).trans (dropRefs _ _)
  · cases f with
    | some f =>
      simp only [Option.isSome_some, if_true]
      split
      · exact (((put w _ _).trans (release _ _)).trans (dropRefs _ _)).trans
          (by exact of_views rfl rfl)
      · exact ((put w _ _).trans (release _ _)).trans (dropRefs _ _)
    | none => exact ((put w _ _).trans (release _ _)).trans (dropRefs _ _)

theorem forked (w : World) (c : Ctx) (x : Context) (before : Tid) (e : World) :
    SameRoster w (w.forked c x before e) := by
  rw [forked_eq]
  exact SameRoster.trans (by exact of_views rfl rfl) (put _ c _)

end SameRoster

theorem SameRoster.exec (w : World) (c : Ctx) (x : Context) (op : Op) :
    SameRoster w (w.exec c x op) := by
  have hput : ∀ {x' : Context} {w₁ w' : World}, SameRoster (w₁.put c x') w' → SameRoster w w₁ →
      SameRoster w w' :=
    fun h₂ h₁ => (h₁.trans (.put _ c _)).trans h₂
  cases op with
  | acquire l =>
    simp only [World.exec]
    exact hput (.modifyLock _ _ _) (.refl w)
  | assign l =>
    simp only [World.exec]
    split
    · exact .record w c x l _
    · exact .put w c x
  | unassign l =>
    simp only [World.exec]
    split
    · exact hput (.modifyLock _ _ _) (.refl w)
    · exact .put w c x
  | release l =>
    simp only [World.exec]
    split
    · exact hput (.modifyLock _ _ _) (.refl w)
    · exact .put w c x
  | vacate l =>
    simp only [World.exec]
    split
    · exact hput (.modifyLock _ _ _) (.refl w)
    · exact .put w c x
  | park cv l =>
    simp only [World.exec]
    split
    · exact hput (.modifyLock _ _ _) (.of_views rfl rfl)
    · exact .put w c x
  | reclaim l =>
    simp only [World.exec]
    split
    · exact .record w c x l _
    · exact .put w c x
  | waitWhile cv l p =>
    simp only [World.exec]
    split
    · exact .put w c _
    · exact .put w c x
  | signal cv => exact hput (.signal _ _) (.refl w)
  | broadcast cv => exact hput (.broadcast _ _) (.refl w)
  | read m =>
    simp only [World.exec]
    split
    · exact .put w c _
    · exact .put w c x
  | write m f =>
    simp only [World.exec]
    split
    · exact hput (.of_views rfl rfl) (.refl w)
    · exact .put w c x
  | countDown k =>
    simp only [World.exec]
    split
    · have h₀ : SameRoster w ((w.put c x).modifyLatch k fun l => { l with downs := l.downs + 1 }) :=
        hput (.of_views rfl rfl) (.refl w)
      split
      · exact h₀
      · exact h₀.trans (SameRoster.trans (by exact .of_views rfl rfl) (.broadcast _ _))
      · exact h₀.trans (.of_views rfl rfl)
    · exact .put w c x
  | keep m => exact .put w c _
  | unkeep m => exact .put w c _
  | note q =>
    simp only [World.exec]
    split
    · exact hput (.refl _) (.of_views rfl rfl)
    · exact .put w c _
  | complete => exact .put w c _
  | publish i =>
    simp only [World.exec]
    exact hput (.modifySlot _ i _ fun _ => rfl) (.of_views rfl rfl)
  | rename n => exact .put w c _
  | adopt i =>
    simp only [World.exec]
    split
    · exact hput (.modifySlot _ i _ fun _ => rfl) (.of_views rfl rfl)
    · exact .put w c x
  | awaitEnd i =>
    simp only [World.exec]
    split
    · split
      · exact .put w c _
      · exact .put w c _
      · exact .put w c x
    · exact .put w c x
  | pause t => exact .put w c x
  | fork b => exact .put w c x
  | finish f => exact .finish w c x f

/-- Starting and joining a thread object leave the roster as it is. -/
theorem SameRoster.start (w : World) (c : Ctx) (x : Context) (i : Nat) (s : Slot) :
    SameRoster w (w.start c x i s) := by
  unfold World.start
  split
  · exact .failStep w _ x _
  · split
    · exact .of_views rfl rfl
    · rename_i actions captured hp
      split
      · have h₁ := (SameRoster.modifySlot w i (fun s => { s with started := true, program := none })
          (fun _ => rfl)).trans (.dropRefs _ (captured.mutexes.map (·.2)))
        dsimp only
        split
        · exact h₁
        · exact h₁.trans (.of_views rfl rfl)
      · dsimp only
        refine SameRoster.trans ?_ (.install _ _ x _)
        refine SameRoster.trans ?_ (.modifySlot _ i _ fun _ => rfl)
        exact .of_views rfl rfl

theorem SameRoster.join (w : World) (c : Ctx) (x : Context) (i : Nat) (s : Slot) :
    SameRoster w (w.join c x i s) := by
  unfold World.join
  split
  · exact .failStep w _ x _
  · split
    · exact .failStep w _ x _
    · split
      · exact .of_views rfl rfl
      · exact (SameRoster.modifySlot w i (fun s => { s with joined := true, handle := false })
          fun _ => rfl).trans (.install _ _ x _)

/-- Beginning any step but the making of a thread object leaves the roster as it is. -/
theorem SameRoster.perform (w : World) (c : Ctx) (x : Context) {st : Step}
    (hst : ∀ spec, st ≠ .threadNew spec) : SameRoster w (w.perform c x st) := by
  have hreply : ∀ {w₁ : World} {x' : Context} {r : Reply}, SameRoster w w₁ →
      SameRoster w (w₁.reply c x' r) :=
    fun h => h.trans (.reply _ c _ _)
  cases st with
  | lock m =>
    simp only [World.perform]
    split
    · exact .reply w c x _
    · exact .install w c x _
  | unlock m =>
    simp only [World.perform]
    split
    · exact .install w c x _
    · exact .reply w c x _
  | get m =>
    simp only [World.perform]
    split
    · exact .reply w c x _
    · exact .install w c x _
  | set m v =>
    simp only [World.perform]
    split
    · exact hreply (.of_views rfl rfl)
    · exact .install w c x _
  | add m v times =>
    simp only [World.perform]
    split
    · exact hreply (.of_views rfl rfl)
    · exact .install w c x _
  | holder m => exact .reply w c x _
  | isLocked m =>
    simp only [World.perform]
    exact hreply (.of_views rfl rfl)
  | assertLocked m =>
    simp only [World.perform]
    split
    · exact hreply (.of_views rfl rfl)
    · exact SameRoster.trans (by exact .of_views rfl rfl) (.failStep _ c _ _)
  | mutexDebug m => exact .reply w c x _
  | guardDebug m =>
    simp only [World.perform]
    split
    · exact .reply w c x _
    · exact .reply w c x _
  | countDown l => exact .install w c x _
  | wait l => exact .install w c x _
  | count l => exact .install w c x _
  | latchDebug l => exact .install w c x _
  | notify cv => exact hreply (.signal w _)
  | notifyAll cv => exact hreply (.broadcast w _)
  | condDebug cv => exact .reply w c x _
  | waitWhile cv m cmp v =>
    simp only [World.perform]
    split
    · exact .install w c x _
    · exact .install w c x _
  | current =>
    simp only [World.perform]
    exact hreply (.of_views rfl rfl)
  | sleep usec =>
    simp only [World.perform]
    split
    · exact .reply w c x _
    · exact .install w c x _
  | fail f => exact .failStep w c x f
  | fork =>
    simp only [World.perform]
    exact SameRoster.trans (by exact .of_views rfl rfl) (.install _ c _ _)
  | mutexNew id v =>
    simp only [World.perform]
    exact hreply (.of_views rfl rfl)
  | mutexDrop m =>
    simp only [World.perform]
    exact hreply ((SameRoster.put w c _).trans (.dropRefs _ _))
  | getMut m set =>
    simp only [World.perform]
    split
    · exact .reply w c x _
    · exact hreply (.of_views rfl rfl)
  | latchNew id n =>
    simp only [World.perform]
    exact hreply (.of_views rfl rfl)
  | condNew id =>
    simp only [World.perform]
    exact hreply (.of_views rfl rfl)
  | threadNew spec => exact absurd rfl (hst spec)
  | threadStart t =>
    simp only [World.perform]
    split
    · exact .start w c x _ _
    · exact .reply w c x _
  | threadJoin t =>
    simp only [World.perform]
    split
    · exact .join w c x _ _
    · exact .reply w c x _
  | threadInfo t => exact .reply w c x _
  | threadDrop t =>
    simp only [World.perform]
    split
    · split
      · exact (SameRoster.modifySlot w _ (fun s => { s with handle := false }) fun _ => rfl).trans
          (.reply _ c _ _)
      · exact hreply (((SameRoster.modifySlot w _ (fun s => { s with program := none })
          fun _ => rfl).trans (.put _ c _)).trans (.dropRefs _ _))
    · exact .reply w c _ _
  | numCreated => exact .reply w c x _
  | classify f => exact .reply w c x _
  | exceptionNew what => exact .reply w c x _

/-! ### Making a thread object -/

/-- `w'` has the roster of `w` with one more thread object at the end, named `n`, and one more
counted as made. -/
structure Grows (w w' : World) (n : String) : Prop where
  created : w'.created = w.created + 1
  size : w'.slots.size = w.slots.size + 1
  names : ∀ i, i < w.slots.size → (w'.slots[i]?).map Slot.name = (w.slots[i]?).map Slot.name
  last : (w'.slots[w.slots.size]?).map Slot.name = some n

/-- Adding a thread object `s` and counting it, then answering. -/
theorem Grows.push_reply (w : World) (s : Slot) (c : Ctx) (y : Context) (r : Reply) :
    Grows w ({ w with slots := w.slots.push s, created := w.created + 1 }.reply c y r) s.name := by
  have h := SameRoster.reply { w with slots := w.slots.push s, created := w.created + 1 } c y r
  refine ⟨h.created, by simp [h.size], fun i hi => ?_, ?_⟩
  · rw [h.names i]
    simp [Array.getElem?_push, Nat.ne_of_lt hi]
  · rw [h.names]
    simp

/-- Making a thread object adds one, named by the name given or, when that is empty, by `Thread`
and the number of thread objects made before it. -/
theorem Grows.threadNew (w : World) (c : Ctx) (x : Context) (spec : ThreadSpec) :
    Grows w (w.perform c x (.threadNew spec))
      (if spec.name.isEmpty then "Thread" ++ toString w.created else spec.name) :=
  Grows.push_reply w _ c _ _

/-- The move of a context leaves the roster as it is, or begins the making of a thread object. -/
theorem SameRoster.advance_or {c : Ctx} (h : w.advance c = (w', true)) :
    SameRoster w w' ∨ ∃ x v rest spec, w.ctx? c = some x ∧ x.code = [] ∧ x.plan = v :: rest ∧
      Step.read x.scope x.held (c != .main) w.host.threadsManage v = .ok (.threadNew spec) ∧
      w' = w.perform c { x with plan := rest } (.threadNew spec) := by
  unfold World.advance at h
  split at h
  · cases h
  · rename_i x hx
    split at h
    · cases h
    · split at h
      · split at h
        · cases h
        · cases h
          exact .inl (.exec _ _ _ _)
      · rename_i hcode
        cases h
        unfold World.begin
        split
        · exact .inl (.install _ _ _ _)
        · rename_i v rest hplan
          dsimp only
          split
          · exact .inl (.reply _ _ _ _)
          · rename_i st hread
            by_cases hst : ∃ spec, st = .threadNew spec
            · obtain ⟨spec, rfl⟩ := hst
              exact .inr ⟨x, v, rest, spec, hx, hcode, hplan, hread, rfl⟩
            · exact .inl (.perform _ _ _ fun spec he => hst ⟨spec, he⟩)

/-- The thread objects a process history makes, in order, each with the name it was given: a move
leaves the roster alone or is a context beginning a `thread_new` step read off its plan, and a fork
starts a child that has no thread object yet and counts on from its parent's count. -/
inductive Builds (w₀ : World) : World → List String → Prop
  | refl : Builds w₀ w₀ []
  | keep {w w' : World} {gs : List String} :
      Builds w₀ w gs → Moves w w' → SameRoster w w' → Builds w₀ w' gs
  | make {w w' : World} {gs : List String} (c : Ctx) (x : Context) (v : Value) (rest : List Value)
      (spec : ThreadSpec) :
      Builds w₀ w gs → Moves w w' → w.ctx? c = some x → x.code = [] → x.plan = v :: rest →
      Step.read x.scope x.held (c != .main) w.host.threadsManage v = .ok (.threadNew spec) →
      w' = w.perform c { x with plan := rest } (.threadNew spec) → Builds w₀ w' (gs ++ [spec.name])
  | fork {w : World} {gs : List String} (c : Ctx) (x : Context) (before : Tid) (rest : List Op) :
      Builds w₀ w gs → w.abort = none → w.ctx? c = some x → x.ended = none → x.parked = none →
      x.code = .fork before :: rest → Builds w₀ (w.forkChild x) gs

theorem Builds.moves {w₀ w w' : World} {gs : List String} (hb : Builds w₀ w gs) (hm : Moves w w') :
    ∃ gs', Builds w₀ w' gs' := by
  cases hm with
  | move c hab hmv =>
    rcases SameRoster.advance_or (advance_of_move? hmv) with
      hs | ⟨x, v, rest, spec, hx, hc, hp, hr, he⟩
    · exact ⟨gs, hb.keep (.move c hab hmv) hs⟩
    · exact ⟨_, hb.make c x v rest spec (.move c hab hmv) hx hc hp hr he⟩
  | wakeUp c x hab hx hpk => exact ⟨gs, hb.keep (.wakeUp c x hab hx hpk) (.wake _ c)⟩
  | tick t hab hlt => exact ⟨gs, hb.keep (.tick t hab hlt) (.of_views rfl rfl)⟩
  | fork c x b rest n hab hx hend hpk hcode =>
    exact ⟨gs, hb.keep (.fork c x b rest n hab hx hend hpk hcode) (.forked _ _ _ _ _)⟩

/-- Every process history is told by the thread objects it makes. -/
theorem Builds.of_history {w₀ w : World} (h : History w₀ w) : ∃ gs, Builds w₀ w gs := by
  induction h with
  | refl => exact ⟨[], .refl⟩
  | tail _ hm ih =>
    obtain ⟨gs, hb⟩ := ih
    exact hb.moves hm
  | fork c x before rest _ hab hx hend hpk hcode ih =>
    obtain ⟨gs, hb⟩ := ih
    exact ⟨gs, hb.fork c x before rest hab hx hend hpk hcode⟩

/-- Over a history, the `i`-th object made is named by its given name or `Thread` and the count at
the start plus `i`; the world reached holds `base` objects of `w₀`, then those made from the
`k`-th on. -/
theorem Builds.roster {w₀ w : World} {gs : List String} (h : Builds w₀ w gs) :
    w.created = w₀.created + gs.length ∧
    ∃ base k, k ≤ gs.length ∧ w.slots.size = base + (gs.length - k) ∧
      (base = 0 ∨ base = w₀.slots.size ∧ k = 0) ∧
      (∀ i, i < base → (w.slots[i]?).map Slot.name = (w₀.slots[i]?).map Slot.name) ∧
      ∀ i (hi : i < gs.length), k ≤ i → (w.slots[base + (i - k)]?).map Slot.name =
        some (if gs[i].isEmpty then "Thread" ++ toString (w₀.created + i) else gs[i]) := by
  induction h with
  | refl =>
    exact ⟨by simp, w₀.slots.size, 0, le_rfl, by simp, .inr ⟨rfl, rfl⟩, fun _ _ => rfl,
      fun i hi => absurd hi (by simp)⟩
  | keep _ _ hs ih =>
    obtain ⟨hc, base, k, hk, hsz, hbase, hold, hnew⟩ := ih
    exact ⟨hs.created.trans hc, base, k, hk, hs.size.trans hsz, hbase,
      fun i hi => (hs.names i).trans (hold i hi), fun i hi hki => (hs.names _).trans (hnew i hi hki)⟩
  | @make w w' gs c x v rest spec _ _ _ _ _ _ he ih =>
    subst he
    obtain ⟨hc, base, k, hk, hsz, hbase, hold, hnew⟩ := ih
    have hg := Grows.threadNew w c { x with plan := rest } spec
    refine ⟨by rw [hg.created, hc, List.length_append]; rfl, base, k,
      by rw [List.length_append]; omega, by rw [hg.size, hsz, List.length_append]; simp; omega,
      hbase, fun i hi => (hg.names i (by omega)).trans (hold i hi), fun i hi hki => ?_⟩
    rw [List.length_append, List.length_singleton] at hi
    rcases Nat.lt_or_ge i gs.length with hlt | hge
    · -- one of the thread objects made before
      rw [hg.names _ (by omega), hnew i hlt hki, List.getElem_append_left hlt]
    · -- the one just made, numbered by the count before it
      have hi' : i = gs.length := by omega
      subst hi'
      have hlast : base + (gs.length - k) = w.slots.size := by omega
      rw [hlast, hg.last, hc]
      simp
  | @fork w gs c x before rest _ _ _ _ _ _ ih =>
    obtain ⟨hc, -⟩ := ih
    exact ⟨by simpa using hc, 0, gs.length, le_rfl, by simp, .inl rfl,
      fun i hi => absurd hi (Nat.not_lt_zero i), fun i hi hki => absurd hi (by omega)⟩

/-- Names made of `Thread` and a count differ for different counts. -/
theorem defaultName_inj {a b : Nat} (h : "Thread" ++ toString a = "Thread" ++ toString b) :
    a = b := by
  have hd : Nat.toDigits 10 a = Nat.toDigits 10 b := by
    simpa [Nat.toString_eq_ofList_toDigits] using congrArg String.toList h
  calc a = Nat.ofDigitChars 10 (Nat.toDigits 10 a) 0 := Nat.ofDigitChars_ten_toDigits.symm
    _ = Nat.ofDigitChars 10 (Nat.toDigits 10 b) 0 := by rw [hd]
    _ = b := Nat.ofDigitChars_ten_toDigits

end World

end ThreadKit
