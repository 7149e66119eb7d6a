import Mathlib.Data.List.Chain
import ThreadKit.Proofs.Exclusion

/-! Updates of a mutex's value are never lost. Every mutex records the updates made to it, and
the value it holds is always the value it was made with, those updates applied in order
(`MutexCell.replay`). A step changes a value in one of three ways: it writes, under a guard, an
update of the value it read earlier under the same guard; it updates the value at once through a
guard the script keeps; or main, with the mutex to itself, changes it directly. Only the first
could lose an update, were another to come between its read and its write. The invariant
`World.Fresh` says none does: the lock keeps every other context away from the value in between. -/
namespace ThreadKit

open Script

namespace MutexCell

/-- What a mutex holds apart from its lock: its value, the value it was made with, and the updates
made to it since. -/
def contents (m : MutexCell) : Int64 × Int64 × List (Int64 → Int64) :=
  (m.value, m.initial, m.updates)

/-- The value a mutex's history gives: its updates applied, oldest first, to the value it was made
with. -/
def replay (m : MutexCell) : Int64 := m.updates.foldr (fun f v => f v) m.initial

/-- Additions of `ds` give the first value plus their sum, wrapping on overflow. -/
theorem replay_of_adds {m : MutexCell} {ds : List Int64}
    (h : m.updates = ds.map fun d v => v + d) : m.replay = m.initial + ds.sum := by
  rw [replay, h, List.foldr_map]
  clear h
  induction ds with
  | nil => simp
  | cons d ds ih =>
    rw [List.foldr_cons, ih, List.sum_cons]
    show m.initial + ds.sum + d = m.initial + (d + ds.sum)
    rw [Int64.add_assoc, Int64.add_comm ds.sum]

end MutexCell

/-- Move `b` may follow move `a` without losing an update: a write comes right after a read of its
own mutex, or writes the same whatever the register holds. -/
def Op.Feeds (a b : Op) : Prop := ∀ k f, b = .write k f → a = .read k ∨ ∀ u v, f u = f v

theorem Op.feeds_of_ne {a b : Op} (hb : ∀ k f, b ≠ .write k f) : a.Feeds b :=
  fun k f he => absurd he (hb k f)

/-- Moves without a write lose no update. -/
theorem Op.feeds_of_no_write {code : List Op} (h : ∀ op ∈ code, ∀ k f, op ≠ .write k f) :
    code.IsChain Op.Feeds := by
  induction code with
  | nil => exact .nil
  | cons a t ih =>
    refine List.IsChain.cons (ih fun op hop => h op (List.mem_cons_of_mem a hop)) ?_
    intro b hb
    exact Op.feeds_of_ne (h b (List.mem_cons_of_mem a (List.mem_of_mem_head? hb)))

namespace Context

/-- The writes left in a context's code start from the value they update: the next move, if a
write, gives on the register what it gives on the value of its mutex under `v`, and every later
write follows a read of its own mutex or ignores the register. -/
structure Fresh (v : Nat → Int64) (x : Context) : Prop where
  feeds : x.code.IsChain Op.Feeds
  head : ∀ k f rest, x.code = .write k f :: rest → f x.loaded = f (v k)

/-- Two states of a context with the same moves left and the same register. -/
def Steady (y y' : Context) : Prop := y'.code = y.code ∧ y'.loaded = y.loaded

theorem Wakes.steady {y y' : Context} (h : Wakes y y') : Steady y y' := by
  rcases h with rfl | rfl <;> exact ⟨rfl, rfl⟩

theorem Steady.trans {a b c : Context} (h₁ : Steady a b) (h₂ : Steady b c) : Steady a c :=
  ⟨h₂.1.trans h₁.1, h₂.2.trans h₁.2⟩

theorem rel_steady_trans {a b c : Option Context} (h₁ : Option.Rel Steady a b)
    (h₂ : Option.Rel Steady b c) : Option.Rel Steady a c := by
  cases h₁ with
  | none => exact h₂
  | some h =>
    cases h₂ with
    | some h' => exact .some (h.trans h')

theorem rel_steady_of_wakes {a b : Option Context} (h : Option.Rel Wakes a b) :
    Option.Rel Steady a b := by
  cases h with
  | none => exact .none
  | some h => exact .some h.steady

namespace Fresh

variable {v v' : Nat → Int64} {x y : Context}

theorem congr (h : x.Fresh v) (hs : Steady x y) : y.Fresh v := by
  obtain ⟨hc, hl⟩ := hs
  refine ⟨by rw [hc]; exact h.feeds, fun k f rest he => ?_⟩
  rw [hl]
  exact h.head k f rest (hc ▸ he)

/-- Code that does not begin with a write needs only its later writes fed. -/
theorem of_code (hc : y.code.IsChain Op.Feeds) (hh : ∀ k f rest, y.code ≠ .write k f :: rest) :
    y.Fresh v :=
  ⟨hc, fun k f rest he => absurd he (hh k f rest)⟩

theorem of_nil (h : y.code = []) : y.Fresh v :=
  of_code (by rw [h]; exact .nil) fun k f rest he => by rw [h] at he; cases he

theorem of_no_write (h : ∀ op ∈ y.code, ∀ k f, op ≠ .write k f) : y.Fresh v :=
  of_code (Op.feeds_of_no_write h) fun k f rest he => h _ (by simp [he]) k f rfl

/-- Only the value of the mutex the next move writes matters. -/
theorem of_value (h : x.Fresh v) (hv : ∀ k f rest, x.code = .write k f :: rest → v' k = v k) :
    x.Fresh v' :=
  ⟨h.feeds, fun k f rest he => by rw [hv k f rest he]; exact h.head k f rest he⟩

/-- After a move that is not a read, the next write ignores the register. -/
theorem pop {op : Op} {rest : List Op} (h : x.Fresh v) (hcode : x.code = op :: rest)
    (hop : ∀ k, op ≠ .read k) (hc : y.code = rest) : y.Fresh v' := by
  have hf := h.feeds
  rw [hcode] at hf
  refine ⟨by rw [hc]; exact hf.tail, fun k f t he => ?_⟩
  rw [← hc, he] at hf
  exact ((List.isChain_cons_cons.mp hf).1 k f rfl).resolve_left (hop k) _ _

/-- After a read, the register holds the value the next write starts from. -/
theorem read {m : Nat} {rest : List Op} (h : x.Fresh v) (hcode : x.code = .read m :: rest)
    (hc : y.code = rest) (hl : y.loaded = v m) : y.Fresh v := by
  have hf := h.feeds
  rw [hcode] at hf
  refine ⟨by rw [hc]; exact hf.tail, fun k f t he => ?_⟩
  rw [← hc, he] at hf
  rcases (List.isChain_cons_cons.mp hf).1 k f rfl with hk | hk
  · cases hk
    rw [hl]
  · exact hk _ _

/-- The moves of one more condition wait bring no write. -/
theorem expand {cv : CondRef} {l : LockRef} {p : Int → Bool} {rest : List Op} (h : x.Fresh v)
    (hcode : x.code = .waitWhile cv l p :: rest)
    (hc : y.code = [.vacate l, .park cv l, .acquire l, .reclaim l, .waitWhile cv l p] ++ rest) :
    y.Fresh v' := by
  have hf := h.feeds
  rw [hcode] at hf
  refine of_code ?_ fun k f t he => by simp [hc] at he
  rw [hc]
  simp only [List.cons_append, List.nil_append, List.isChain_cons_cons]
  exact ⟨Op.feeds_of_ne (by simp), Op.feeds_of_ne (by simp), Op.feeds_of_ne (by simp),
    Op.feeds_of_ne (by simp), hf⟩

end Fresh

end Context

/-- A move that keeps its lock's phase is made with a live guard. -/
theorem Phase.guarded_of_step_self {op : Op} {p : Phase} (hop : op.keepsPhase = true)
    (h : p.step op = .phase p) : ∃ b, p = .guarded b := by
  rcases p with _ | _ | ⟨_ | _⟩ | ⟨_ | _⟩ | ⟨_ | _⟩ <;> cases op <;>
    simp_all [Op.keepsPhase, Phase.step]

/-- In a guarded phase the context has a live guard of the lock. -/
theorem Phase.Fits.live {p : Phase} {cell : LockCell} {c : Ctx} {t : Tid} {x : Context}
    {l : LockRef} {b : Bool} (hfit : p.Fits cell c t (x.grip l)) (hp : p = .guarded b) :
    l ∈ x.guards ∧ x.waitingOn ≠ some l := by
  obtain ⟨hcount, hwait, -⟩ := Context.grip_eq_iff.mp hfit.grip
  subst hp
  refine ⟨List.count_pos_iff.mp (by simp [hcount, Phase.grip]), fun h => ?_⟩
  simpa [Phase.grip] using hwait.mp h

namespace World

theorem value_eq {w : World} {k : Nat} {m : MutexCell} (h : w.mutexes[k]? = some m) :
    w.value k = m.value := by
  simp [value, h]

theorem value_eq_contents (w : World) (k : Nat) :
    w.value k = (((w.mutexes[k]?).map MutexCell.contents).map Prod.fst).getD 0 := by
  simp only [value, Option.map_map]
  rfl

/-- Every mutex holds the value its history gives, and every context's next write starts from
the value it updates. -/
structure Fresh (w : World) : Prop where
  replays : ∀ (k : Nat) (m : MutexCell), w.mutexes[k]? = some m → m.value = m.replay
  contexts : ∀ c x, w.ctx? c = some x → x.Fresh w.value

/-- Context `c` may change the value of mutex `k`: it has a live guard of it, or it is main and
has the mutex to itself, with no context owning its lock and no running thread able to name it. -/
def Grants (w : World) (c : Ctx) (k : Nat) : Prop :=
  (∃ x, w.ctx? c = some x ∧ LockRef.mutex k ∈ x.guards ∧ x.waitingOn ≠ some (.mutex k)) ∨
    (c = .main ∧ w.sharedWithThread k = false ∧ ∀ d, w.owns (.mutex k) d = false)

/-- What a move of context `c` from `w` to `w'` does to each mutex: it keeps its value and
history, or takes one update `f` of the value it held, which `c` may make; a mutex the move makes
starts with no updates. -/
def Logs (w w' : World) (c : Ctx) : Prop :=
  ∀ (k : Nat) (m' : MutexCell), w'.mutexes[k]? = some m' →
    (∃ m : MutexCell, w.mutexes[k]? = some m ∧
      (m'.contents = m.contents ∨
        ∃ f, m'.updates = f :: m.updates ∧ m'.initial = m.initial ∧ m'.value = f m.value ∧
          w.Grants c k)) ∨
    (w.mutexes[k]? = none ∧ m'.updates = [] ∧ m'.initial = m'.value)

/-- A move of context `c` from `w` to `w'` that changes the mutexes only as `Logs` allows and
leaves every context's next write fresh. -/
structure Serial (w w' : World) (c : Ctx) : Prop where
  logs : Logs w w' c
  fresh : ∀ d y, w'.ctx? d = some y → y.Fresh w'.value

theorem Fresh.of_serial {w w' : World} {c : Ctx} (hf : w.Fresh) (h : Serial w w' c) :
    w'.Fresh := by
  refine ⟨fun k m' hm' => ?_, h.fresh⟩
  rcases h.logs k m' hm' with ⟨m, hm, hc | ⟨f, hu, hi, hv, -⟩⟩ | ⟨-, hu, hi⟩
  · simp only [MutexCell.contents, Prod.mk.injEq] at hc
    obtain ⟨hv, hi, hu⟩ := hc
    rw [hv, hf.replays k m hm, MutexCell.replay, MutexCell.replay, hi, hu]
  · rw [hv, hf.replays k m hm, MutexCell.replay, MutexCell.replay, hu, hi, List.foldr_cons]
  · rw [MutexCell.replay, hu, List.foldr_nil, hi]

/-! ### Moves that change no value -/

/-- From `w` to `w'` no context's moves or register and no mutex's value or history change. -/
structure Calm (w w' : World) : Prop where
  ctx : ∀ d, Option.Rel Context.Steady (w.ctx? d) (w'.ctx? d)
  contents : ∀ k : Nat, (w'.mutexes[k]?).map MutexCell.contents = (w.mutexes[k]?).map MutexCell.contents

namespace Calm

variable {w w₁ w' : World}

theorem refl (w : World) : Calm w w where
  ctx d := by
    cases w.ctx? d with
    | none => exact .none
    | some y => exact .some ⟨rfl, rfl⟩
  contents _ := rfl

theorem trans (h₁ : Calm w w₁) (h₂ : Calm w₁ w') : Calm w w' where
  ctx d := Context.rel_steady_trans (h₁.ctx d) (h₂.ctx d)
  contents k := (h₂.contents k).trans (h₁.contents k)

theorem of_quiet (hq : Quiet w w') (hm : w'.mutexes = w.mutexes) : Calm w w' where
  ctx d := Context.rel_steady_of_wakes (hq.ctx d)
  contents k := by rw [hm]

theorem of_ctx (hctx : ∀ d, w'.ctx? d = w.ctx? d) (hmu : w'.mutexes = w.mutexes) : Calm w w' where
  ctx d := by
    rw [hctx]
    exact (refl w).ctx d
  contents k := by rw [hmu]

theorem of_views (hm : w'.main = w.main) (hs : w'.slots = w.slots)
    (hmu : w'.mutexes = w.mutexes) : Calm w w' :=
  of_ctx (congrFun (ctx?_congr hm hs)) hmu

theorem modifyLock (w : World) (l : LockRef) (f : LockCell → LockCell) :
    Calm w (w.modifyLock l f) where
  ctx d := by
    rw [ctx?_modifyLock]
    exact (refl w).ctx d
  contents k := by
    cases l with
    | mutex k' =>
      simp only [World.modifyLock, modifyMutex, Array.getElem?_modify]
      split
      · simp only [Option.map_map, Function.comp_def]
        rfl
      · rfl
    | latch k' => rfl

theorem modifySlot (w : World) (i : Nat) (f : Slot → Slot) (hc : ∀ s, (f s).ctx = s.ctx) :
    Calm w (w.modifySlot i f) :=
  of_ctx (ctx?_modifySlot_of_ctx w i hc) rfl

theorem release (w : World) (keys : List Nat) : Calm w (w.release keys) :=
  release_of_modifySlot refl (fun h₁ h₂ => h₁.trans h₂)
    (fun w i => modifySlot w i _ fun _ => rfl) w keys

theorem pushSlot (w : World) (s : Slot) (n : Nat) (hs : s.ctx = none) :
    Calm w { w with slots := w.slots.push s, created := n } :=
  of_ctx (ctx?_pushSlot _ _ hs) rfl

theorem modifyLatch (w : World) (k : Nat) (f : LatchCell → LatchCell)
    (hf : ∀ c, (f c).lock = c.lock) : Calm w (w.modifyLatch k f) :=
  of_quiet (Quiet.modifyLatch w k f hf) rfl

theorem dropRefs (w : World) (keys : List Nat) : Calm w (w.dropRefs keys) := by
  unfold World.dropRefs
  split
  · exact of_views rfl rfl rfl
  · exact refl w

theorem wake (w : World) (c : Ctx) : Calm w (w.wake c) := by
  refine of_quiet (Quiet.wake w c) ?_
  unfold World.wake
  split <;> simp

theorem signal (w : World) (cv : CondRef) : Calm w (w.signal cv) :=
  signal_of_wake refl wake w cv

theorem broadcast (w : World) (cv : CondRef) : Calm w (w.broadcast cv) :=
  broadcast_of_wake refl (fun h₁ h₂ => h₁.trans h₂) wake w cv

/-- Putting a context in a state with the moves and register it had. -/
theorem put {c : Ctx} {x x' : Context} (h : Calm w w₁) (hx : w.ctx? c = some x)
    (hs : Context.Steady x x') : Calm w (w₁.put c x') where
  ctx := rel_ctx_put h.ctx hx hs
  contents k := by rw [put_mutexes]; exact h.contents k

theorem value (h : Calm w w') : w'.value = w.value := by
  funext k
  rw [value_eq_contents, value_eq_contents, h.contents]

theorem fresh {v : Nat → Int64} (h : Calm w w') (hf : ∀ d y, w.ctx? d = some y → y.Fresh v) :
    ∀ d y', w'.ctx? d = some y' → y'.Fresh v := by
  intro d y' hy'
  have hr := h.ctx d
  rw [hy'] at hr
  cases h' : w.ctx? d with
  | none =>
    rw [h'] at hr
    exact absurd hr Option.not_rel_none_some
  | some y =>
    rw [h', Option.rel_some_some] at hr
    exact (hf d y h').congr hr

end Calm

/-- After a put, a context is the one put or one there was. -/
theorem ctx?_put_some {w : World} {c d : Ctx} {x y : Context} (h : (w.put c x).ctx? d = some y) :
    (d = c ∧ y = x) ∨ (d ≠ c ∧ w.ctx? d = some y) := by
  by_cases hd : d = c
  · subst hd
    refine .inl ⟨rfl, ?_⟩
    cases d with
    | main => simpa [put, ctx?] using h.symm
    | thread i =>
      simp only [put, modifySlot, ctx?, Array.getElem?_modify, if_true] at h
      cases hs : w.slots[i]? <;> simp_all
  · exact .inr ⟨hd, by rwa [ctx?_put_ne _ _ hd] at h⟩

@[simp] theorem ctx?_modifyMutex (w : World) (m : Nat) (f : MutexCell → MutexCell) (d : Ctx) :
    (w.modifyMutex m f).ctx? d = w.ctx? d := by
  cases d <;> rfl

/-- After a thread object is given context `t`, a context is `t` or one there was. -/
theorem ctx?_modifySlot_some {w : World} {i : Nat} {f : Slot → Slot} {t : Context} {d : Ctx}
    {y : Context} (hf : ∀ s, (f s).ctx = some t) (h : (w.modifySlot i f).ctx? d = some y) :
    (d = .thread i ∧ y = t) ∨ w.ctx? d = some y := by
  cases d with
  | main => exact .inr h
  | thread j =>
    simp only [ctx?, modifySlot, Array.getElem?_modify] at h
    split at h
    · subst j
      cases hs : w.slots[i]? with
      | none => simp [hs] at h
      | some s =>
        simp only [hs, Option.map_some, Option.bind_some, hf, Option.some.injEq] at h
        exact .inl ⟨rfl, h.symm⟩
    · exact .inr h

theorem isSome_ctx?_modifySlot {w : World} {i : Nat} {f : Slot → Slot} {t : Context} {d : Ctx}
    (hf : ∀ s, (f s).ctx = some t) (h : (w.ctx? d).isSome) : ((w.modifySlot i f).ctx? d).isSome := by
  cases d with
  | main => exact h
  | thread j =>
    simp only [ctx?, modifySlot, Array.getElem?_modify] at h ⊢
    split
    · cases hs : w.slots[j]? <;> simp_all
    · exact h

theorem record_eq (w : World) (c : Ctx) (x : Context) (l : LockRef) (f : Context → Context) :
    w.record c x l f = ({ w with process := (x.requestTid w.process).2.2 }.put c
      (f (x.requestTid w.process).2.1)).modifyLock l
        fun cell => { cell with holder := (x.requestTid w.process).1 } := rfl

/-! ### Who may change a value -/

section
variable {w w' : World} {c d : Ctx} {x y : Context} {k : Nat}

/-- A move that keeps its lock's phase is made with a live guard of the lock. -/
theorem Sound.live_of_keepsPhase {op : Op} {rest : List Op} {l : LockRef} (hs : w.Sound)
    (hx : w.ctx? c = some x) (hcode : x.code = op :: rest) (hl : op.lock? = some l)
    (hop : op.keepsPhase = true) : l ∈ x.guards ∧ x.waitingOn ≠ some l := by
  obtain ⟨p, hfit, hacc⟩ := (hs.follows c x hx l).cons hcode hl
  rcases Phase.step_of_keepsPhase hop p with h | h
  · obtain ⟨b, hb⟩ := Phase.guarded_of_step_self hop h
    exact hfit.live hb
  · rw [h] at hacc
    simp [Outcome.Ends] at hacc

/-- A guard the script keeps between steps is live. -/
theorem Sound.live_of_held (hs : w.Sound) (hx : w.ctx? c = some x) (hcode : x.code = [])
    (hk : k ∈ x.held) : LockRef.mutex k ∈ x.guards ∧ x.waitingOn ≠ some (.mutex k) := by
  obtain ⟨p, hfit, hidle⟩ := hs.idle hx hcode (.mutex k)
  exact hfit.live ((guarded_true_iff hfit hidle).mpr ⟨k, hk, rfl⟩)

/-- Between steps, a context owns the lock of a mutex it can name only through a guard the
script keeps. -/
theorem Sound.held_of_owner (hs : w.Sound) (hx : w.ctx? c = some x) (hcode : x.code = [])
    (hown : (w.cell (.mutex k)).owner = some c) (hn : x.names (.mutex k) = true) :
    k ∈ x.held := by
  obtain ⟨p, hfit, hidle⟩ := hs.idle hx hcode (.mutex k)
  have ho : p.owned = true := hfit.owner.mp hown
  rcases Phase.idle_of_accepts_nil hidle with rfl | rfl | ⟨rfl, hnf⟩
  · cases ho
  · obtain ⟨m, hm, he⟩ := (guarded_true_iff hfit hidle).mp rfl
    cases he
    exact hm
  · rw [hn] at hnf
    cases hnf

theorem sharedWithThread_of_ctx {i : Nat} (hy : w.ctx? (.thread i) = some y)
    (hend : y.ended = none) (hr : y.scope.refersTo k = true) : w.sharedWithThread k = true := by
  simp only [ctx?, Option.bind_eq_some_iff] at hy
  obtain ⟨s, hs, hc⟩ := hy
  obtain ⟨hi, rfl⟩ := Array.getElem?_eq_some_iff.mp hs
  simp only [sharedWithThread, Array.any_eq_true]
  exact ⟨i, hi, by simp [hc, hend, hr]⟩

/-- Main, between steps, has to itself a mutex it names and does not keep once no running thread
can name it. -/
theorem Sound.grants_main (hs : w.Sound) (hx : w.ctx? .main = some x) (hcode : x.code = [])
    (hn : x.scope.refersTo k = true) (hk : k ∉ x.held) (hsh : w.sharedWithThread k = false) :
    w.Grants .main k := by
  refine .inr ⟨rfl, hsh, fun d => Bool.eq_false_iff.mpr fun hown => ?_⟩
  rw [owns_iff] at hown
  cases d with
  | main => exact hk (hs.held_of_owner hx hcode hown hn)
  | thread i =>
    obtain ⟨y, hy⟩ := Option.isSome_iff_exists.mp (hs.owner _ _ hown)
    cases hend : y.ended with
    | some e => exact hs.ended i y hy (by simp [hend]) _ hown
    | none =>
      rw [sharedWithThread_of_ctx hy hend (hs.named i y hy hend k (.inl hown))] at hsh
      cases hsh

/-- Whoever owns the lock of a mutex that `c` may change is `c`. -/
theorem Grants.owner_eq (hs : w.Sound) (hg : w.Grants c k)
    (hd : (w.cell (.mutex k)).owner = some d) : d = c := by
  rcases hg with ⟨x, hx, hg, hw⟩ | ⟨-, -, hno⟩
  · have hc := (hs.holder_of_guard hx hg hw).1
    rw [hd] at hc
    exact Option.some.inj hc
  · have := hno d
    rw [(owns_iff _ _ _).mpr hd] at this
    cases this

/-- A context other than `c`, after a move that changed only the value of mutex `k`, which `c`
may change, still starts its next write from the value it updates. -/
theorem Grants.fresh_other (hs : w.Sound) (hf : w.Fresh) (hg : w.Grants c k)
    (hy : w.ctx? d = some y) (hd : d ≠ c) (hv : ∀ j, j ≠ k → w'.value j = w.value j) :
    y.Fresh w'.value := by
  refine (hf.contexts d y hy).of_value fun j f rest hcode => hv j fun hj => hd ?_
  subst hj
  exact hg.owner_eq hs (hs.owns_of_keepsPhase hy hcode rfl rfl)

end

/-! ### One move at a time -/

namespace Serial

variable {w w₁ w' : World} {c : Ctx} {x x' : Context}

theorem logs_of_contents
    (h : ∀ k : Nat, (w'.mutexes[k]?).map MutexCell.contents = (w.mutexes[k]?).map MutexCell.contents) :
    Logs w w' c := by
  intro k m' hm'
  have hc := h k
  rw [hm'] at hc
  cases hm : w.mutexes[k]? with
  | none =>
    rw [hm] at hc
    cases hc
  | some m =>
    rw [hm] at hc
    exact .inl ⟨m, rfl, .inl (Option.some.inj hc)⟩

/-- A move that changes no value, after which every context is fresh for the values there were. -/
theorem of_contents
    (h : ∀ k : Nat, (w'.mutexes[k]?).map MutexCell.contents = (w.mutexes[k]?).map MutexCell.contents)
    (hctx : ∀ d y, w'.ctx? d = some y → y.Fresh w.value) : Serial w w' c := by
  have hv : w'.value = w.value := by
    funext k
    rw [value_eq_contents, value_eq_contents, h]
  refine ⟨logs_of_contents h, ?_⟩
  rw [hv]
  exact hctx

theorem calm (hf : w.Fresh) (h : Calm w w') : Serial w w' c :=
  of_contents h.contents (h.fresh hf.contexts)

/-- The mover put in a new state between two moves that change no value. -/
theorem calm_put (hf : w.Fresh) (h₂ : Calm (w₁.put c x') w') (h₁ : Calm w w₁)
    (hx' : x'.Fresh w.value) : Serial w w' c := by
  refine of_contents (fun k => by rw [h₂.contents, put_mutexes, h₁.contents]) (h₂.fresh ?_)
  intro d y hy
  rcases ctx?_put_some hy with ⟨-, rfl⟩ | ⟨-, hy⟩
  · exact hx'
  · exact h₁.fresh hf.contexts d y hy

theorem install (hf : w.Fresh) (h₁ : Calm w w₁) {code : List Op} (hc : code.IsChain Op.Feeds)
    (hh : ∀ k f rest, code ≠ .write k f :: rest) : Serial w (w₁.install c x' code) c :=
  calm_put hf (.refl _) h₁ (.of_code hc hh)

theorem install_plain (hf : w.Fresh) (h₁ : Calm w w₁) {code : List Op}
    (h : ∀ op ∈ code, ∀ k f, op ≠ .write k f) : Serial w (w₁.install c x' code) c :=
  calm_put hf (.refl _) h₁ (.of_no_write h)

theorem reply (hf : w.Fresh) (hx : w.ctx? c = some x) (h₁ : Calm w w₁)
    (hs : Context.Steady x x') (r : Reply) : Serial w (w₁.reply c x' r) c :=
  calm hf (h₁.put hx (show Context.Steady x (x'.answer r) from hs))

theorem unlockAll_no_write (held : List Nat) (f : Option Failure) :
    ∀ op ∈ held.flatMap Op.unlockKept ++ [.finish f], ∀ k g, op ≠ .write k g := by
  intro op hop k g he
  subst he
  simp [Op.unlockKept] at hop

theorem failStep (hf : w.Fresh) (hx : w.ctx? c = some x) (h₁ : Calm w w₁)
    (hs : Context.Steady x x') (f : Failure) : Serial w (w₁.failStep c x' f) c := by
  cases c with
  | main => exact reply hf hx h₁ hs _
  | thread i => exact install_plain hf h₁ (unlockAll_no_write _ _)

/-- Mutex `k` changed by `u`, which makes an update `f` of its value. -/
theorem logs_update {u : MutexCell → MutexCell} {f : Int64 → Int64} {k : Nat} (hg : w.Grants c k)
    (hmut : ∀ j : Nat, w'.mutexes[j]? = if k = j then (w.mutexes[j]?).map u else w.mutexes[j]?)
    (hu : ∀ m, w.mutexes[k]? = some m →
      (u m).updates = f :: m.updates ∧ (u m).initial = m.initial ∧ (u m).value = f m.value) :
    Logs w w' c := by
  intro j m' hm'
  rw [hmut] at hm'
  split at hm'
  · subst j
    obtain ⟨m, hm, rfl⟩ := Option.map_eq_some_iff.mp hm'
    obtain ⟨h₁, h₂, h₃⟩ := hu m hm
    exact .inl ⟨m, hm, .inr ⟨f, h₁, h₂, h₃, hg⟩⟩
  · exact .inl ⟨m', hm', .inl rfl⟩

/-- A write by the lock's owner applies its update to the value the mutex holds: the register
holds what the write would read. -/
theorem write {m : Nat} {f : Int64 → Int64} {rest : List Op} (hs : w.Sound) (hf : w.Fresh)
    (hx : w.ctx? c = some x) (hcode : x.code = .write m f :: rest) :
    Serial w (w.exec c { x with code := rest } (.write m f)) c := by
  have hown := hs.owns_of_keepsPhase hx hcode rfl rfl
  have hg : w.Grants c m := .inl ⟨x, hx, hs.live_of_keepsPhase hx hcode rfl rfl⟩
  have hexec : w.exec c { x with code := rest } (.write m f) =
      (w.put c { x with code := rest }).update m f (f x.loaded) := by
    simp [World.exec, (owns_iff _ _ _).mpr hown]
  rw [hexec]
  have hmut : ∀ j : Nat, ((w.put c { x with code := rest }).update m f (f x.loaded)).mutexes[j]? =
      if m = j then (w.mutexes[j]?).map
        (fun cell => { cell with value := f x.loaded, updates := f :: cell.updates })
      else w.mutexes[j]? := by
    intro j
    simp only [update, modifyMutex, put_mutexes, Array.getElem?_modify]
  refine ⟨logs_update hg hmut fun cell hcell => ⟨rfl, rfl, ?_⟩, fun d y hy => ?_⟩
  · show f x.loaded = f cell.value
    rw [(hf.contexts c x hx).head m f rest hcode, value_eq hcell]
  · rw [update, ctx?_modifyMutex] at hy
    rcases ctx?_put_some hy with ⟨-, rfl⟩ | ⟨hd, hy⟩
    · exact (hf.contexts c x hx).pop hcode (by simp) rfl
    · exact hg.fresh_other hs hf hy hd fun j hj => by simp [value, hmut, Ne.symm hj]

/-- An update made at once by a context that may change the mutex applies to the value it
holds. -/
theorem modifyValue_reply {k : Nat} {g : Int64 → Int64} (hs : w.Sound) (hf : w.Fresh)
    (hcode : x.code = []) (hg : w.Grants c k)
    (hst : Context.Steady x x') (r : Reply) : Serial w ((w.modifyValue k g).reply c x' r) c := by
  have hmut : ∀ j : Nat, ((w.modifyValue k g).reply c x' r).mutexes[j]? =
      if k = j then (w.mutexes[j]?).map
        (fun cell => { cell with value := g cell.value, updates := g :: cell.updates })
      else w.mutexes[j]? := by
    intro j
    simp only [World.reply, put_mutexes, modifyValue, modifyMutex, Array.getElem?_modify]
  refine ⟨logs_update hg hmut fun cell _ => ⟨rfl, rfl, rfl⟩, fun d y hy => ?_⟩
  rcases ctx?_put_some hy with ⟨-, rfl⟩ | ⟨hd, hy⟩
  · exact .of_nil (hst.1.trans hcode)
  · rw [modifyValue, ctx?_modifyMutex] at hy
    exact hg.fresh_other hs hf hy hd fun j hj => by simp [value, hmut, Ne.symm hj]

/-- A new mutex starts with no updates, and no context has a move on it yet. -/
theorem mutexNew (hs : w.Sound) (hf : w.Fresh) (hcode : x'.code = []) (v : Int64) (r : Reply) :
    Serial w ({ w with mutexes := w.mutexes.push { value := v } }.reply c x' r) c := by
  refine ⟨fun k m' hm' => ?_, fun d y hy => ?_⟩
  · simp only [World.reply, put_mutexes, Array.getElem?_push] at hm'
    split at hm'
    · subst k
      cases hm'
      exact .inr ⟨by simp, rfl, rfl⟩
    · exact .inl ⟨m', hm', .inl rfl⟩
  · rcases ctx?_put_some hy with ⟨-, rfl⟩ | ⟨-, hy⟩
    · exact .of_nil hcode
    · refine (hf.contexts d y hy).of_value fun j f rest hc => ?_
      have hj : j < w.mutexes.size := by
        have := hs.code d y hy (.write j f) (by simp [hc]) (.mutex j) rfl
        simpa [lock?] using this
      simp [value, World.reply, Array.getElem?_push, Nat.ne_of_lt hj]

/-- Starting a thread gives it the handshake's moves and the starter its side; neither writes. -/
theorem start {i : Nat} {s : Slot} (hf : w.Fresh) (hx : w.ctx? c = some x)
    (hst : Context.Steady x x') : Serial w (w.start c x' i s) c := by
  unfold World.start
  split
  · exact failStep hf hx (.refl w) hst _
  · split
    · exact calm hf (.of_views rfl rfl rfl)
    · rename_i actions captured hp
      split
      · have h₁ := (Calm.modifySlot w i (fun s => { s with started := true, program := none })
          fun _ => rfl).trans (Calm.dropRefs _ (captured.mutexes.map (·.2)))
        dsimp only
        split
        · exact calm hf h₁
        · exact calm hf (h₁.trans (.of_views rfl rfl rfl))
      · refine of_contents (fun _ => by simp only [World.install, put_mutexes]; rfl) fun d y hy => ?_
        rcases ctx?_put_some hy with ⟨-, rfl⟩ | ⟨-, hy⟩
        · exact .of_no_write (by simp [awaitSpawnCode, Op.scoped])
        · rcases ctx?_modifySlot_some (fun _ => rfl) hy with ⟨-, rfl⟩ | hy
          · exact .of_no_write (by simp [spawnCode, Op.scoped])
          · exact hf.contexts d y hy

theorem join {i : Nat} {s : Slot} (hf : w.Fresh) (hx : w.ctx? c = some x)
    (hst : Context.Steady x x') : Serial w (w.join c x' i s) c := by
  unfold World.join
  split
  · exact failStep hf hx (.refl w) hst _
  · split
    · exact failStep hf hx (.refl w) hst _
    · split
      · exact calm hf (.of_views rfl rfl rfl)
      · refine install_plain hf
          (.modifySlot w i (fun s => { s with joined := true, handle := false }) fun _ => rfl) ?_
        simp

theorem forked {b : Tid} {rest : List Op} (e : World) (hf : w.Fresh) (hx : w.ctx? c = some x)
    (hcode : x.code = .fork b :: rest) : Serial w (w.forked c { x with code := rest } b e) c := by
  rw [forked_eq]
  exact calm_put hf (.refl _) (.of_views rfl rfl rfl) ((hf.contexts c x hx).pop hcode (by simp) rfl)

/-- Every move keeps writes fresh: a write applies its update to the value there is, a read loads
the value the next write starts from, and every other move leaves the values and registers. -/
theorem exec {op : Op} {rest : List Op} (hs : w.Sound) (hf : w.Fresh) (hx : w.ctx? c = some x)
    (hcode : x.code = op :: rest) : Serial w (w.exec c { x with code := rest } op) c := by
  have hfx := hf.contexts c x hx
  have hpop : (∀ k, op ≠ .read k) → ∀ {y : Context}, y.code = rest → y.Fresh w.value :=
    fun hop _ hc => hfx.pop hcode hop hc
  have hput : (∀ k, op ≠ .read k) → Serial w (w.put c { x with code := rest }) c :=
    fun hop => calm_put hf (.refl _) (.refl w) (hpop hop rfl)
  cases op with
  | acquire l =>
    simp only [World.exec]
    exact calm_put hf (.modifyLock _ _ _) (.refl w) (hpop (by simp) (by rfl))
  | assign l =>
    simp only [World.exec]
    split
    · rw [record_eq]
      exact calm_put hf (.modifyLock _ _ _) (.of_views rfl rfl rfl) (hpop (by simp) (by rfl))
    · exact hput (by simp)
  | unassign l =>
    simp only [World.exec]
    split
    · exact calm_put hf (.modifyLock _ _ _) (.refl w) (hpop (by simp) (by rfl))
    · exact hput (by simp)
  | release l =>
    simp only [World.exec]
    split
    · exact calm_put hf (.modifyLock _ _ _) (.refl w) (hpop (by simp) (by rfl))
    · exact hput (by simp)
  | vacate l =>
    simp only [World.exec]
    split
    · exact calm_put hf (.modifyLock _ _ _) (.refl w) (hpop (by simp) (by rfl))
    · exact hput (by simp)
  | park cv l =>
    simp only [World.exec]
    split
    · exact calm_put hf (.modifyLock _ _ _) (.of_views rfl rfl rfl) (hpop (by simp) (by rfl))
    · exact hput (by simp)
  | reclaim l =>
    simp only [World.exec]
    split
    · rw [record_eq]
      exact calm_put hf (.modifyLock _ _ _) (.of_views rfl rfl rfl) (hpop (by simp) (by rfl))
    · exact hput (by simp)
  | waitWhile cv l p =>
    simp only [World.exec]
    split
    · exact calm_put hf (.refl _) (.refl w) (hfx.expand hcode rfl)
    · exact hput (by simp)
  | signal cv =>
    simp only [World.exec]
    exact calm_put hf (.signal _ _) (.refl w) (hpop (by simp) (by rfl))
  | broadcast cv =>
    simp only [World.exec]
    exact calm_put hf (.broadcast _ _) (.refl w) (hpop (by simp) (by rfl))
  | read m =>
    have hown := hs.owns_of_keepsPhase hx hcode rfl rfl
    have hexec : w.exec c { x with code := rest } (.read m) =
        w.put c { x with code := rest, loaded := w.value m } := by
      simp [World.exec, (owns_iff _ _ _).mpr hown]
    rw [hexec]
    exact calm_put hf (.refl _) (.refl w) (hfx.read hcode rfl rfl)
  | write m f => exact write hs hf hx hcode
  | countDown k =>
    simp only [World.exec]
    split
    · have h₁ := Calm.modifyLatch (w.put c { x with code := rest }) k
        (fun l => { l with downs := l.downs + 1 }) fun _ => rfl
      split
      · exact calm_put hf h₁ (.refl w) (hpop (by simp) (by rfl))
      · exact calm_put hf ((h₁.trans (.modifyLatch _ k (fun l => { l with count := 0 })
          fun _ => rfl)).trans (.broadcast _ _)) (.refl w) (hpop (by simp) (by rfl))
      · rename_i n _
        exact calm_put hf (h₁.trans (.modifyLatch _ k (fun l => { l with count := n + 1 })
          fun _ => rfl)) (.refl w) (hpop (by simp) (by rfl))
    · exact hput (by simp)
  | keep m =>
    simp only [World.exec]
    exact calm_put hf (.refl _) (.refl w) (hpop (by simp) (by rfl))
  | unkeep m =>
    simp only [World.exec]
    exact calm_put hf (.refl _) (.refl w) (hpop (by simp) (by rfl))
  | note q =>
    simp only [World.exec]
    split
    · exact calm_put hf (.refl _) (.of_views rfl rfl rfl) (hpop (by simp) (by rfl))
    · exact calm_put hf (.refl _) (.refl w) (hpop (by simp) (by rfl))
  | complete =>
    simp only [World.exec]
    exact calm_put hf (.refl _) (.refl w) (hpop (by simp) (by rfl))
  | publish i =>
    simp only [World.exec]
    exact calm_put hf (.modifySlot _ i _ fun _ => rfl) (.of_views rfl rfl rfl) (hpop (by simp) (by rfl))
  | rename n =>
    simp only [World.exec]
    exact calm_put hf (.refl _) (.refl w) (hpop (by simp) (by rfl))
  | adopt i =>
    simp only [World.exec]
    split
    · exact calm_put hf (.modifySlot _ i _ fun _ => rfl) (.of_views rfl rfl rfl) (hpop (by simp) (by rfl))
    · exact hput (by simp)
  | awaitEnd i =>
    simp only [World.exec]
    split
    · split
      · exact calm_put hf (.refl _) (.refl w) (hpop (by simp) (by rfl))
      · exact calm_put hf (.refl _) (.refl w) (hpop (by simp) (by rfl))
      · exact hput (by simp)
    · exact hput (by simp)
  | pause t => exact hput (by simp)
  | fork b => exact hput (by simp)
  | finish f =>
    cases c with
    | main =>
      simp only [World.exec, World.finish]
      exact calm_put hf ((Calm.release _ _).trans (.dropRefs _ _)) (.refl w)
        (hpop (by simp) (by rfl))
    | thread i =>
      cases f with
      | some f =>
        simp only [World.exec, World.finish, Option.isSome_some, if_true]
        split
        · exact calm_put hf (((Calm.release _ _).trans (.dropRefs _ _)).trans
            (.of_views rfl rfl rfl)) (.refl w) (hpop (by simp) (by rfl))
        · exact calm_put hf ((Calm.release _ _).trans (.dropRefs _ _)) (.refl w)
            (hpop (by simp) (by rfl))
      | none =>
        simp only [World.exec, World.finish]
        exact calm_put hf ((Calm.release _ _).trans (.dropRefs _ _)) (.refl w)
          (hpop (by simp) (by rfl))

theorem perform {st : Step} {rest : List Script.Value} (hs : w.Sound) (hf : w.Fresh)
    (hx : w.ctx? c = some x) (hcode : x.code = [])
    (hst : st.Resolved x.scope x.held (c != .main) w.host.threadsManage) :
    Serial w (w.perform c { x with plan := rest } st) c := by
  have hsteady : Context.Steady x { x with plan := rest } := ⟨rfl, rfl⟩
  have hreply : ∀ (r : Reply), Serial w (w.reply c { x with plan := rest } r) c :=
    fun r => reply hf hx (.refl w) hsteady r
  cases st with
  | lock m =>
    simp only [World.perform]
    split
    · exact hreply _
    · exact install_plain hf (.refl w) (by simp [Op.lockKept])
  | unlock m =>
    simp only [World.perform]
    split
    · exact install_plain hf (.refl w) (by simp [Op.unlockKept])
    · exact hreply _
  | get m =>
    simp only [World.perform]
    split
    · exact hreply _
    · exact install_plain hf (.refl w) (by simp [Op.scoped])
  | set m v =>
    simp only [World.perform]
    split
    · exact modifyValue_reply hs hf hcode (.inl ⟨x, hx, hs.live_of_held hx hcode ‹_›⟩) hsteady _
    · -- the write sets a value that ignores the register
      exact install hf (.refl w) (by simp [Op.scoped, Op.Feeds]) (by simp [Op.scoped])
  | add m v times =>
    simp only [World.perform]
    split
    · exact modifyValue_reply hs hf hcode (.inl ⟨x, hx, hs.live_of_held hx hcode ‹_›⟩) hsteady _
    · -- the write comes right after the read of its mutex
      exact install hf (.refl w) (by simp [Op.scoped, Op.Feeds]) (by simp [Op.scoped])
  | holder m => exact hreply _
  | isLocked m => exact reply hf hx (by exact .of_views rfl rfl rfl) (by exact ⟨rfl, rfl⟩) _
  | assertLocked m =>
    simp only [World.perform]
    split
    · exact reply hf hx (by exact .of_views rfl rfl rfl) (by exact ⟨rfl, rfl⟩) _
    · exact failStep hf hx (by exact .of_views rfl rfl rfl) (by exact ⟨rfl, rfl⟩) _
  | mutexDebug m => exact hreply _
  | guardDebug m =>
    simp only [World.perform]
    split <;> exact hreply _
  | countDown l => exact install_plain hf (.refl w) (by simp [Op.scoped])
  | wait l => exact install_plain hf (.refl w) (by simp [Op.scoped])
  | count l => exact install_plain hf (.refl w) (by simp [Op.scoped])
  | latchDebug l => exact install_plain hf (.refl w) (by simp [Op.scoped])
  | notify cv => exact reply hf hx (.signal w _) hsteady _
  | notifyAll cv => exact reply hf hx (.broadcast w _) hsteady _
  | condDebug cv => exact hreply _
  | waitWhile cv m cmp v =>
    simp only [World.perform]
    split
    · exact install_plain hf (.refl w) (by simp)
    · exact install_plain hf (.refl w) (by simp [Op.scoped])
  | current =>
    simp only [World.perform]
    exact reply hf hx (by exact .of_views rfl rfl rfl) (by exact ⟨rfl, rfl⟩) _
  | sleep usec =>
    simp only [World.perform]
    split
    · exact hreply _
    · exact install_plain hf (.refl w) (by simp)
  | fail f => exact failStep hf hx (.refl w) hsteady f
  | fork => exact install_plain hf (by exact .of_views rfl rfl rfl) (by simp)
  | mutexNew id v =>
    simp only [World.perform]
    exact mutexNew hs hf (by exact hcode) v _
  | mutexDrop m =>
    simp only [World.perform]
    exact reply hf hx ((Calm.put (.refl w) hx (by exact ⟨rfl, rfl⟩)).trans (.dropRefs _ _))
      (by exact ⟨rfl, rfl⟩) _
  | getMut m set =>
    obtain rfl := hst.main rfl rfl
    simp only [World.perform]
    split
    · exact hreply _
    · rename_i hsh
      have hm : x.scope.mutexes.lookup m.id = some m.key := hst.named
      exact modifyValue_reply hs hf hcode (hs.grants_main hx hcode (Scope.refersTo_of_lookup hm)
        (hst.getMut m set rfl) (by simpa using hsh)) hsteady _
  | latchNew id n => exact reply hf hx (by exact .of_views rfl rfl rfl) (by exact ⟨rfl, rfl⟩) _
  | condNew id => exact reply hf hx (by exact .of_views rfl rfl rfl) (by exact ⟨rfl, rfl⟩) _
  | threadNew spec =>
    simp only [World.perform]
    exact reply hf hx (.pushSlot w _ _ rfl) (by exact ⟨rfl, rfl⟩) _
  | threadStart t =>
    simp only [World.perform]
    split
    · exact start hf hx hsteady
    · exact hreply _
  | threadJoin t =>
    simp only [World.perform]
    split
    · exact join hf hx hsteady
    · exact hreply _
  | threadInfo t => exact hreply _
  | threadDrop t =>
    simp only [World.perform]
    split
    · split
      · exact reply hf hx (.modifySlot w _ (fun s => { s with handle := false })
          fun _ => rfl) (by exact ⟨rfl, rfl⟩) _
      · -- the function is dropped, which may destroy a mutex only it named
        exact reply hf hx (((Calm.modifySlot w _ (fun s => { s with program := none })
          fun _ => rfl).put hx (by exact ⟨rfl, rfl⟩)).trans (.dropRefs _ _)) (by exact ⟨rfl, rfl⟩) _
    · exact reply hf hx (.refl w) (by exact ⟨rfl, rfl⟩) _
  | numCreated => exact hreply _
  | classify f => exact hreply _
  | exceptionNew what => exact hreply _

theorem begin (hs : w.Sound) (hf : w.Fresh) (hx : w.ctx? c = some x) (hcode : x.code = []) :
    Serial w (w.begin c x) c := by
  unfold World.begin
  split
  · exact install_plain hf (.refl w) (unlockAll_no_write _ _)
  · dsimp only
    split
    · refine reply hf hx (.refl w) ?_ _
      exact ⟨rfl, rfl⟩
    · exact perform hs hf hx hcode (Step.read_resolved ‹_›)

theorem advance {c : Ctx} (hs : w.Sound) (hf : w.Fresh) (h : w.advance c = (w', true)) :
    Serial w w' c := by
  unfold World.advance at h
  split at h
  · cases h
  · rename_i x hx
    split at h
    · cases h
    · split at h
      · rename_i op rest hcode
        split at h
        · cases h
        · cases h
          exact exec hs hf hx hcode
      · rename_i hcode
        cases h
        exact begin hs hf hx hcode

end Serial

section
variable {w w' : World}

theorem Fresh.of_begins (hb : w.Begins) : w.Fresh where
  replays k m h := by simp [hb.mutexes] at h
  contexts c x h := by
    obtain ⟨rfl, rfl⟩ := hb.ctx h
    exact .of_nil hb.code

theorem advance_of_move? {c : Ctx} (h : w.move? c = some w') : w.advance c = (w', true) := by
  unfold World.move? at h
  split at h
  · cases h
    assumption
  · cases h

theorem Fresh.moves (hs : w.Sound) (hf : w.Fresh) (h : Moves w w') : w'.Fresh := by
  cases h with
  | move c _ hmove => exact hf.of_serial (Serial.advance hs hf (advance_of_move? hmove))
  | wakeUp c x _ _ _ => exact hf.of_serial (Serial.calm hf (Calm.wake w c) : Serial w _ c)
  | tick t _ _ =>
    exact hf.of_serial (Serial.calm hf (by exact Calm.of_views rfl rfl rfl) : Serial w _ .main)
  | fork c x b rest n _ hx _ _ hcode => exact hf.of_serial (Serial.forked _ hf hx hcode)

/-- In every world a process reaches, each mutex holds the value its history gives and each
context's next write starts from the value it updates. -/
theorem Fresh.reachable {host : Host} {steps : List Script.Value} (h : Reachable (World.init host steps) w) :
    w.Fresh := by
  induction h with
  | refl => exact .of_begins (.init host steps)
  | tail hr hm ih => exact ih.moves (Sound.reachable (Sound.init host steps) hr) hm

/-- No update of a mutex is lost: a mutex holds its first value with every update applied in order,
so additions sum with 64-bit wrapping, and a move adds at most one update, by a context its
guard grants. -/
theorem no_lost_updates {host : Host} {steps : List Script.Value} (h : Reachable (World.init host steps) w) {k : Nat}
    {m : MutexCell} (hm : w.mutexes[k]? = some m) :
    m.value = m.replay ∧
      (∀ ds : List Int64, m.updates = ds.map (fun d v => v + d) → m.value = m.initial + ds.sum) ∧
      ∀ c w', w.move? c = some w' → ∀ m', w'.mutexes[k]? = some m' →
        m'.contents = m.contents ∨
          ∃ f, m'.updates = f :: m.updates ∧ m'.value = f m.value ∧ w.Grants c k := by
  have hf := Fresh.reachable h
  have hv : m.value = m.replay := hf.replays k m hm
  refine ⟨hv, fun ds hds => hv.trans (MutexCell.replay_of_adds hds), fun c w' hmove m' hm' => ?_⟩
  have hs := Sound.reachable (Sound.init host steps) h
  rcases (Serial.advance hs hf (advance_of_move? hmove)).logs k m' hm' with
    ⟨m₀, hm₀, hc | ⟨f, hu, -, hv', hg⟩⟩ | ⟨hnone, -⟩
  · rw [hm] at hm₀
    cases hm₀
    exact .inl hc
  · rw [hm] at hm₀
    cases hm₀
    exact .inr ⟨f, hu, hv', hg⟩
  · rw [hm] at hnone
    cases hnone

end

/-- A script that makes a mutex holding 5, then adds 2 and 3 to it. -/
def addTwice : List Script.Value :=
  [.obj [("op", .str "mutex_new"), ("id", .str "m"), ("value", .int 5)],
    .obj [("op", .str "add"), ("mutex", .str "m"), ("value", .int 2)],
    .obj [("op", .str "add"), ("mutex", .str "m"), ("value", .int 3)]]

/-- The first addition done and the second about to write, thirteen moves in. -/
def secondWrite : World :=
  ((World.init .tested addTwice).replay (List.replicate 13 .main)).getD (World.init .tested addTwice)

/-- The mutex there: one update made, and locked by main for the second. -/
def addedOnce : MutexCell :=
  { lock := { owner := some .main, holder := World.pid }, value := 7, initial := 5,
    updates := [fun v => v + Int64.ofInt 2 * Int64.ofNat 1] }

/-- Between two additions the mutex holds its first value plus the first, and main's next write is
an update its guard grants. -/
theorem no_lost_updates_adding :
    Reachable (World.init .tested addTwice) secondWrite ∧ secondWrite.mutexes[0]? = some addedOnce ∧
    addedOnce.value = addedOnce.replay ∧
    addedOnce.value = addedOnce.initial + Int64.ofInt 2 * Int64.ofNat 1 ∧
    ∃ w' m', secondWrite.move? .main = some w' ∧ w'.mutexes[0]? = some m' ∧ m'.value = 10 ∧
      (∃ f, m'.updates = f :: addedOnce.updates ∧ m'.value = f addedOnce.value) ∧
      secondWrite.Grants .main 0 := by
  have h : Reachable (World.init .tested addTwice) secondWrite := .of_replay (by decide)
  have hm : secondWrite.mutexes[0]? = some addedOnce := rfl
  obtain ⟨hv, hsum, hstep⟩ := no_lost_updates h hm
  have hw' : secondWrite.move? .main = some (secondWrite.advance .main).1 := rfl
  obtain ⟨m', hm'⟩ : ∃ m', (secondWrite.advance .main).1.mutexes[0]? = some m' :=
    Option.isSome_iff_exists.mp (by decide)
  have hlen : m'.updates.length = 2 := by
    have : ((secondWrite.advance .main).1.mutexes[0]?).map (·.updates.length) = some 2 := by decide
    rw [hm'] at this
    exact Option.some.inj this
  have hval : m'.value = 10 := by
    have : ((secondWrite.advance .main).1.mutexes[0]?).map (·.value) = some 10 := by decide
    rw [hm'] at this
    exact Option.some.inj this
  rcases hstep .main _ hw' m' hm' with hsame | ⟨f, hu, hf, hg⟩
  · have : m'.updates = addedOnce.updates := congrArg (fun t => t.2.2) hsame
    rw [this] at hlen
    exact absurd hlen (by decide)
  · exact ⟨h, hm, hv, hsum [Int64.ofInt 2 * Int64.ofNat 1] rfl, _, m', hw', hm', hval, ⟨f, hu, hf⟩, hg⟩

end World

end ThreadKit
