import ThreadKit.Proofs.Frame

/-! The lock protocol a context follows. With one lock, a context is in one of five phases: free,
owning the OS lock without a guard (`taken`), owning it with a live guard (`guarded`), inside a
condition wait still owning it (`vacated`), or inside a wait without it (`away`). A phase fixes
what the lock's cell and the context's guards say (`Phase.Fits`); the moves left in the context's
code must follow the phase's transitions and end in a phase a step may end in (`Phase.Accepts`). -/
namespace ThreadKit

/-- The lock a query reads under. -/
def Query.lock? : Query → Option LockRef
  | .value m | .waited m => some (.mutex m)
  | .count k | .latchDebug k => some (.latch k)

/-- The lock a move works on, if any. -/
def Op.lock? : Op → Option LockRef
  | .acquire l | .assign l | .unassign l | .release l | .vacate l | .park _ l | .reclaim l
  | .waitWhile _ l _ => some l
  | .read m | .write m _ | .keep m | .unkeep m => some (.mutex m)
  | .countDown k => some (.latch k)
  | .note q => q.lock?
  | _ => none

/-- Where a context stands with one lock. The flag says whether the script keeps the guard. -/
inductive Phase where
  /-- Neither the OS lock nor a guard of it. -/
  | free
  /-- The OS lock without a live guard: just acquired, or the guard just ended. -/
  | taken
  /-- The OS lock and a live guard, recorded as its holder. -/
  | guarded (kept : Bool)
  /-- Inside a condition wait with the holder cleared and the OS lock still owned. -/
  | vacated (kept : Bool)
  /-- Inside a condition wait without the OS lock: asleep, or woken and not yet relocked. -/
  | away (kept : Bool)
  deriving DecidableEq

/-- What a context has of one lock: its live guards of it, whether it waits on it, and how many
of those guards the script keeps between steps. -/
structure Grip where
  guards : Nat
  waiting : Bool
  kept : Nat
  deriving DecidableEq

namespace Phase

/-- The grip a context in the phase has. -/
def grip : Phase → Grip
  | .free | .taken => ⟨0, false, 0⟩
  | .guarded k => ⟨1, false, k.toNat⟩
  | .vacated k | .away k => ⟨1, true, k.toNat⟩

/-- Whether the context owns the OS lock in the phase. -/
def owned : Phase → Bool
  | .taken | .guarded _ | .vacated _ => true
  | .free | .away _ => false

/-- The holder recorded while a context with tid `t` owns the lock in the phase. -/
def holder (t : Tid) : Phase → Tid
  | .guarded _ => t
  | _ => 0

/-- Whether the phase is inside a condition wait. -/
def waiting (p : Phase) : Bool := p.grip.waiting

/-- A phase agrees with the cell of its lock and with the grip of context `c`, whose tid is `t`. -/
structure Fits (p : Phase) (cell : LockCell) (c : Ctx) (t : Tid) (g : Grip) : Prop where
  grip : g = p.grip
  owner : cell.owner = some c ↔ p.owned = true
  holder : p.owned = true → cell.holder = p.holder t

end Phase

/-- Where a phase is after some moves: in a phase, in a phase after the context's function has
ended (after which no move may come), stuck for good at an `acquire` of a lock the context itself
owns, or outside the protocol. -/
inductive Outcome where
  | phase (p : Phase)
  | done (p : Phase)
  | stuck
  | wrong

namespace Phase

/-- A move on the lock itself. -/
def step : Phase → Op → Outcome
  | .free, .acquire _ => .phase .taken
  | .away k, .acquire _ => .phase (.vacated k)
  | _, .acquire _ => .stuck
  | .taken, .assign _ => .phase (.guarded false)
  | .guarded false, .keep _ => .phase (.guarded true)
  | .guarded true, .unkeep _ => .phase (.guarded false)
  | .guarded false, .unassign _ => .phase .taken
  | .taken, .release _ => .phase .free
  | .guarded k, .vacate _ => .phase (.vacated k)
  | .vacated k, .park _ _ => .phase (.away k)
  | .vacated k, .reclaim _ => .phase (.guarded k)
  | .guarded k, .waitWhile _ _ _ => .phase (.guarded k)
  | .guarded k, .read _ => .phase (.guarded k)
  | .guarded k, .write _ _ => .phase (.guarded k)
  | .guarded k, .countDown _ => .phase (.guarded k)
  | .guarded k, .note _ => .phase (.guarded k)
  | _, _ => .wrong

/-- A move on another lock. A wait's own moves come in one block, so none may come between them;
the function of a context ends only once its kept guards are dropped, though main may leave a
guard it has forgotten. -/
def pass (p : Phase) : Op → Outcome
  | .finish _ =>
    match p with
    | .free => .done .free
    | .guarded false => .done (.guarded false)
    | _ => .wrong
  | _ => if p.waiting then .wrong else .phase p

/-- The phase after one move, for lock `l`. -/
def next (l : LockRef) (p : Phase) (op : Op) : Outcome :=
  if op.lock? = some l then p.step op else p.pass op

end Phase

namespace Outcome

/-- Where an outcome is after the moves `code`, for lock `l`. -/
def run (l : LockRef) : Outcome → List Op → Outcome
  | .phase p, op :: rest => (p.next l op).run l rest
  | .done _, _ :: _ => .wrong
  | o, _ => o

/-- Whether the moves of a step may end in an outcome: free, with a kept guard, or stuck. A guard
that is neither kept nor released is one the script has forgotten, which it can do only to a lock
it can no longer name; a function ends free of the lock or with such a guard. -/
def Ends (named : Bool) : Outcome → Prop
  | .phase .free | .phase (.guarded true) | .stuck | .done .free => True
  | .phase (.guarded false) | .done (.guarded false) => named = false
  | _ => False

@[simp] theorem run_nil (l : LockRef) (o : Outcome) : o.run l [] = o := by
  cases o <;> rfl

@[simp] theorem run_phase_cons (l : LockRef) (p : Phase) (op : Op) (rest : List Op) :
    (Outcome.phase p).run l (op :: rest) = (p.next l op).run l rest := rfl

@[simp] theorem run_done_cons (l : LockRef) (p : Phase) (op : Op) (rest : List Op) :
    (Outcome.done p).run l (op :: rest) = .wrong := rfl

@[simp] theorem run_stuck (l : LockRef) (code : List Op) : Outcome.stuck.run l code = .stuck := by
  cases code <;> rfl

@[simp] theorem run_wrong (l : LockRef) (code : List Op) : Outcome.wrong.run l code = .wrong := by
  cases code <;> rfl

theorem run_append (l : LockRef) (o : Outcome) (a b : List Op) :
    o.run l (a ++ b) = (o.run l a).run l b := by
  induction a generalizing o with
  | nil => simp
  | cons op rest ih =>
    cases o with
    | phase p => simp [ih]
    | done p | stuck | wrong => simp

end Outcome

namespace Phase

/-- The moves `code` keep to the protocol of lock `l` from phase `p`. -/
def Accepts (named : Bool) (l : LockRef) (p : Phase) (code : List Op) : Prop :=
  ((Outcome.phase p).run l code).Ends named

/-- The phases a step may begin in: free, with a kept guard, or with a forgotten one. -/
theorem idle_of_accepts_nil {named : Bool} {l : LockRef} {p : Phase} (h : p.Accepts named l []) :
    p = .free ∨ p = .guarded true ∨ (p = .guarded false ∧ named = false) := by
  cases p with
  | free => exact .inl rfl
  | guarded k =>
    cases k with
    | true => exact .inr (.inl rfl)
    | false => exact .inr (.inr ⟨rfl, h⟩)
  | taken | vacated _ | away _ => exact absurd h id

/-- A phase a step begins in without owning the lock is free. -/
theorem eq_free_of_idle {named : Bool} {l : LockRef} {p : Phase} (h : p.Accepts named l [])
    (ho : p.owned = false) : p = .free := by
  rcases idle_of_accepts_nil h with rfl | rfl | ⟨rfl, -⟩ <;> simp_all [owned]

theorem waiting_eq_false_of_accepts_nil {named : Bool} {l : LockRef} {p : Phase}
    (h : p.Accepts named l []) : p.waiting = false := by
  rcases idle_of_accepts_nil h with rfl | rfl | ⟨rfl, -⟩ <;> rfl

theorem next_of_ne {l : LockRef} {p : Phase} {op : Op} (h : op.lock? ≠ some l)
    (hf : ∀ f, op ≠ .finish f) (hw : p.waiting = false) : p.next l op = .phase p := by
  cases op <;> simp_all [next, pass]

/-- A move on another lock is accepted only outside a wait, and leaves the phase where it is. -/
theorem accepts_cons_pass {named : Bool} {l : LockRef} {p : Phase} {op : Op} {rest : List Op}
    (h : op.lock? ≠ some l) (hf : ∀ f, op ≠ .finish f) :
    p.Accepts named l (op :: rest) ↔ p.waiting = false ∧ p.Accepts named l rest := by
  have hp : p.next l op = if p.waiting then .wrong else .phase p := by
    cases op <;> simp_all [next, pass]
  unfold Accepts
  rw [Outcome.run_phase_cons, hp]
  cases p.waiting <;> simp [Outcome.Ends]

theorem accepts_cons_step {named : Bool} {l : LockRef} {p : Phase} {op : Op} {rest : List Op}
    (h : op.lock? = some l) :
    p.Accepts named l (op :: rest) ↔ ((p.step op).run l rest).Ends named := by
  simp [Accepts, next, h]

end Phase

/-- Whether a move ends the context's function. -/
def Op.ends : Op → Bool
  | .finish _ => true
  | _ => false

theorem Op.ne_finish_of_lock? {op : Op} {l : LockRef} (h : op.lock? = some l) :
    ∀ f, op ≠ .finish f := by
  rintro f rfl
  cases h

/-- Whether a move leaves its own lock's phase where it is: every move but those that take, give up,
guard or keep a lock, or wait on it. -/
def Op.keepsPhase : Op → Bool
  | .acquire _ | .assign _ | .unassign _ | .release _ | .vacate _ | .park _ _ | .reclaim _
  | .keep _ | .unkeep _ => false
  | _ => true

theorem Phase.step_of_keepsPhase {op : Op} (h : op.keepsPhase = true) (p : Phase) :
    p.step op = .phase p ∨ p.step op = .wrong := by
  rcases p with _ | _ | ⟨_ | _⟩ | ⟨_ | _⟩ | ⟨_ | _⟩ <;> cases op <;> simp_all [Op.keepsPhase, step]

/-- A move that keeps its lock's phase is made only in a phase that owns the lock. -/
theorem Phase.owned_of_step_self {op : Op} {p : Phase} (hop : op.keepsPhase = true)
    (h : p.step op = .phase p) : p.owned = true := by
  rcases p with _ | _ | ⟨_ | _⟩ | ⟨_ | _⟩ | ⟨_ | _⟩ <;> cases op <;>
    simp_all [Op.keepsPhase, step, owned]

namespace Outcome

/-- A lock that can no longer be named may end in any way one that can be named may. -/
theorem Ends.forget {named : Bool} {o : Outcome} (h : o.Ends named) : o.Ends false := by
  rcases o with ⟨_ | _ | ⟨_ | _⟩ | _ | _⟩ | ⟨_ | _ | ⟨_ | _⟩ | _ | _⟩ | _ | _ <;> simp_all [Ends]

theorem Ends.mono {named named' : Bool} {o : Outcome} (h : o.Ends named)
    (hn : named' = true → named = true) : o.Ends named' := by
  cases named' with
  | false => exact h.forget
  | true =>
    rw [hn rfl] at h
    exact h

/-- Moves that neither touch lock `l` nor end the function leave a phase outside a wait where it
is. -/
theorem run_untouched {l : LockRef} {p : Phase} {code : List Op}
    (h : ∀ op ∈ code, op.lock? ≠ some l ∧ op.ends = false) (hw : p.waiting = false) :
    (Outcome.phase p).run l code = .phase p := by
  induction code with
  | nil => rfl
  | cons op rest ih =>
    obtain ⟨hl, he⟩ := h op (by simp)
    have hf : ∀ f, op ≠ .finish f := by
      rintro f rfl
      exact absurd he (by simp [Op.ends])
    rw [run_phase_cons, Phase.next_of_ne hl hf hw]
    exact ih fun op' h' => h op' (by simp [h'])

/-- A scoped guard taken from the free phase, with moves in between that keep the guard, ends
free. -/
theorem run_scoped_free (l : LockRef) (body : List Op)
    (h : (Outcome.phase (.guarded false)).run l body = .phase (.guarded false)) :
    (Outcome.phase .free).run l (Op.scoped l body) = .phase .free := by
  simp [Op.scoped, run_append, Phase.next, Op.lock?, Phase.step, h]

/-- A scoped guard of a lock the context already owns never gets past its `acquire`. -/
theorem run_scoped_owned (l : LockRef) (body : List Op) {p : Phase} (hp : p.owned = true) :
    (Outcome.phase p).run l (Op.scoped l body) = .stuck := by
  cases p <;> simp_all [Op.scoped, Phase.next, Op.lock?, Phase.step, Phase.owned]

theorem run_lockKept_free (m : Nat) :
    (Outcome.phase .free).run (.mutex m) (Op.lockKept m) = .phase (.guarded true) := by
  simp [Op.lockKept, Phase.next, Op.lock?, Phase.step]

theorem run_lockKept_owned (m : Nat) {p : Phase} (hp : p.owned = true) :
    (Outcome.phase p).run (.mutex m) (Op.lockKept m) = .stuck := by
  cases p <;> simp_all [Op.lockKept, Phase.next, Op.lock?, Phase.step, Phase.owned]

theorem run_unlockKept (m : Nat) :
    (Outcome.phase (.guarded true)).run (.mutex m) (Op.unlockKept m) = .phase .free := by
  simp [Op.unlockKept, Phase.next, Op.lock?, Phase.step]

/-- Dropping all kept guards frees the lock of each kept mutex and leaves every other lock's phase
alone. -/
theorem run_unlockAll {l : LockRef} {p : Phase} {held : List Nat} (hn : held.Nodup)
    (hw : p.waiting = false) (hk : ∀ m ∈ held, l = .mutex m → p = .guarded true) :
    (Outcome.phase p).run l (held.flatMap Op.unlockKept) =
      .phase (if ∃ m ∈ held, l = .mutex m then .free else p) := by
  induction held generalizing p with
  | nil => simp
  | cons m rest ih =>
    obtain ⟨hm, hn⟩ := List.nodup_cons.mp hn
    rw [List.flatMap_cons, run_append]
    by_cases hl : l = .mutex m
    · subst hl
      rw [hk m (by simp) rfl, run_unlockKept, ih hn rfl]
      · simp
      · rintro m' hm' he
        cases he
        exact absurd hm' hm
    · have hu : (Outcome.phase p).run l (Op.unlockKept m) = .phase p := by
        apply run_untouched _ hw
        intro op hop
        simp only [Op.unlockKept, List.mem_cons, List.mem_nil_iff, or_false] at hop
        rcases hop with rfl | rfl | rfl <;> simp [Op.lock?, Op.ends, Ne.symm hl]
      rw [hu, ih hn hw fun m' hm' => hk m' (by simp [hm'])]
      simp [hl]

/-- The moves a condition wait inserts before re-checking keep every lock's protocol as the
re-check alone does. -/
theorem run_waitWhile_expand (l l' : LockRef) (cv : CondRef) (pr : Int → Bool) (q : Phase)
    (rest : List Op) :
    (Outcome.phase q).run l
        (.vacate l' :: .park cv l' :: .acquire l' :: .reclaim l' :: .waitWhile cv l' pr :: rest) =
      (Outcome.phase q).run l (.waitWhile cv l' pr :: rest) := by
  by_cases hl : l' = l
  · subst hl
    cases q with
    | guarded k => simp [Phase.next, Op.lock?, Phase.step]
    | free | taken => simp [Phase.next, Op.lock?, Phase.step]
    | vacated k | away k => cases k <;> simp [Phase.next, Op.lock?, Phase.step]
  · cases q <;> simp [Phase.next, Op.lock?, hl, Phase.pass, Phase.waiting, Phase.grip]

end Outcome

namespace Op

theorem ends_of_lock? {op : Op} {l : LockRef} (h : op.lock? = some l) : op.ends = false := by
  cases op <;> simp_all [lock?, ends]

theorem lock?_of_mem_scoped {l : LockRef} {body : List Op} (hops : ∀ op ∈ body, op.lock? = some l)
    {op : Op} (h : op ∈ Op.scoped l body) : op.lock? = some l := by
  simp only [Op.scoped, List.mem_append, List.mem_cons, List.mem_nil_iff, or_false] at h
  rcases h with ((rfl | rfl) | h) | rfl | rfl
  · rfl
  · rfl
  · exact hops op h
  · rfl
  · rfl

end Op

namespace Phase

variable {named : Bool} {l : LockRef} {p : Phase}

/-- Moves that neither touch lock `l` nor end the function are accepted from every phase a step
begins in. -/
theorem accepts_untouched {code : List Op} (hidle : p.Accepts named l [])
    (h : ∀ op ∈ code, op.lock? ≠ some l ∧ op.ends = false) : p.Accepts named l code := by
  unfold Accepts
  rw [Outcome.run_untouched h (waiting_eq_false_of_accepts_nil hidle)]
  exact hidle

/-- A scoped guard of `l'` is accepted from every phase, unless the script keeps a guard of `l'`,
when its `acquire` waits for good. -/
theorem accepts_scoped {l' : LockRef} {body tail : List Op} (hidle : p.Accepts named l [])
    (hkept : l = l' → p ≠ .guarded true)
    (hbody : (Outcome.phase (.guarded false)).run l' body = .phase (.guarded false))
    (hops : ∀ op ∈ body, op.lock? = some l')
    (htail : ∀ op ∈ tail, op.lock? = none ∧ op.ends = false) :
    p.Accepts named l (Op.scoped l' body ++ tail) := by
  have huntouched : ∀ op ∈ tail, op.lock? ≠ some l ∧ op.ends = false := by
    intro op hop
    obtain ⟨hl, he⟩ := htail op hop
    simp [hl, he]
  by_cases hl : l = l'
  · subst hl
    unfold Accepts
    rw [Outcome.run_append]
    rcases idle_of_accepts_nil hidle with rfl | rfl | ⟨rfl, -⟩
    · rw [Outcome.run_scoped_free l body hbody, Outcome.run_untouched huntouched rfl]
      exact hidle
    · exact absurd rfl (hkept rfl)
    · rw [Outcome.run_scoped_owned l body rfl, Outcome.run_stuck]
      trivial
  · apply accepts_untouched hidle
    intro op hop
    rcases List.mem_append.mp hop with hop | hop
    · rw [Op.lock?_of_mem_scoped hops hop]
      exact ⟨fun he => hl (Option.some.inj he).symm, Op.ends_of_lock? (Op.lock?_of_mem_scoped hops hop)⟩
    · exact huntouched op hop

/-- Moves under a guard of `l'` that the script keeps, then `complete`, are accepted from every
phase a step begins in, provided the guard of `l'` is kept. -/
theorem accepts_kept {l' : LockRef} {body : List Op} (hidle : p.Accepts named l [])
    (hkept : l = l' → p = .guarded true)
    (hbody : (Outcome.phase (.guarded true)).run l' body = .phase (.guarded true))
    (hops : ∀ op ∈ body, op.lock? = some l') : p.Accepts named l (body ++ [.complete]) := by
  by_cases hl : l = l'
  · subst hl
    rw [hkept rfl]
    unfold Accepts
    rw [Outcome.run_append, hbody]
    simp [next, Op.lock?, pass, waiting, grip, Outcome.Ends]
  · apply accepts_untouched hidle
    intro op hop
    rcases List.mem_append.mp hop with hop | hop
    · rw [hops op hop]
      exact ⟨fun he => hl (Option.some.inj he).symm, Op.ends_of_lock? (hops op hop)⟩
    · simp only [List.mem_singleton] at hop
      subst hop
      simp [Op.lock?, Op.ends]

/-- Locking mutex `m` for the script, then `complete`: accepted from every phase a step begins in
unless the script already keeps the guard, and then the `acquire` waits for good. -/
theorem accepts_lockKept {m : Nat} (hidle : p.Accepts named l [])
    (hkept : l = .mutex m → p ≠ .guarded true) :
    p.Accepts named l (Op.lockKept m ++ [.complete]) := by
  by_cases hl : l = .mutex m
  · subst hl
    unfold Accepts
    rw [Outcome.run_append]
    rcases idle_of_accepts_nil hidle with rfl | rfl | ⟨rfl, -⟩
    · rw [Outcome.run_lockKept_free]
      simp [next, Op.lock?, pass, waiting, grip, Outcome.Ends]
    · exact absurd rfl (hkept rfl)
    · rw [Outcome.run_lockKept_owned m rfl, Outcome.run_stuck]
      trivial
  · apply accepts_untouched hidle
    simp [Op.lockKept, Op.lock?, Op.ends, Ne.symm hl]

/-- Unlocking a mutex `m` whose guard the script keeps, then `complete`. -/
theorem accepts_unlockKept {m : Nat} (hidle : p.Accepts named l [])
    (hkept : l = .mutex m → p = .guarded true) :
    p.Accepts named l (Op.unlockKept m ++ [.complete]) := by
  by_cases hl : l = .mutex m
  · subst hl
    rw [hkept rfl]
    unfold Accepts
    rw [Outcome.run_append, Outcome.run_unlockKept]
    simp [next, Op.lock?, pass, waiting, grip, Outcome.Ends]
  · apply accepts_untouched hidle
    simp [Op.unlockKept, Op.lock?, Op.ends, Ne.symm hl]

/-- Dropping every kept guard and then ending the function: accepted from every phase a step
begins in, when the kept guards are those of the mutexes `held`. -/
theorem accepts_unlockAll {held : List Nat} {f : Option Failure} (hn : held.Nodup)
    (hidle : p.Accepts named l []) (hk : ∀ m ∈ held, l = .mutex m → p = .guarded true)
    (hkept : p = .guarded true → ∃ m ∈ held, l = .mutex m) :
    p.Accepts named l (held.flatMap Op.unlockKept ++ [.finish f]) := by
  unfold Accepts
  rw [Outcome.run_append, Outcome.run_unlockAll hn (waiting_eq_false_of_accepts_nil hidle) hk]
  split
  · simp [next, Op.lock?, pass, Outcome.Ends]
  · rename_i hno
    rcases idle_of_accepts_nil hidle with rfl | rfl | ⟨rfl, hnm⟩
    · simp [next, Op.lock?, pass, Outcome.Ends]
    · exact absurd (hkept rfl) hno
    · simp [next, Op.lock?, pass, Outcome.Ends, hnm]

end Phase

end ThreadKit
