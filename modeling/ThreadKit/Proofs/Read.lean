import ThreadKit.Script.Step

/-! What reading a step guarantees (`Step.read_resolved`): each id the step carries names, in the
reader's scope, the key the step carries with it; a managed thread never gets a step that only main
may run, unless it is a step on thread objects and the host lets threads run those; and a `get_mut`
never borrows a mutex the reader keeps a guard of. -/
namespace ThreadKit.Script

/-- Each id of a step names in scope `s` the key it carries; a new thread captures only bindings of
the scope, and no thread object. -/
def Step.Named (s : Scope) : Step → Prop
  | .lock m | .unlock m | .get m | .set m _ | .add m _ _ | .holder m | .isLocked m
  | .assertLocked m | .mutexDebug m | .guardDebug m | .mutexDrop m | .getMut m _
  | .waitWhile _ m _ _ => s.mutexes.lookup m.id = some m.key
  | .countDown l | .wait l | .count l | .latchDebug l => s.latches.lookup l.id = some l.key
  | .threadStart t | .threadJoin t | .threadInfo t | .threadDrop t =>
    s.threads.lookup t.id = some t.key
  | .threadNew spec => (∀ p ∈ spec.captured.mutexes, p ∈ s.mutexes) ∧
      (∀ p ∈ spec.captured.latches, p ∈ s.latches) ∧ spec.captured.threads = []
  | _ => True

namespace Read

@[simp] theorem bind_eq_ok {α β : Type} {x : Read α} {f : α → Read β} {b : β} :
    (x >>= f) = .ok b ↔ ∃ a, x = .ok a ∧ f a = .ok b := by
  cases x <;> simp [bind, Except.bind]

@[simp] theorem pure_eq_ok {β : Type} {a b : β} : (pure a : Read β) = .ok b ↔ a = b := by
  simp [pure, Except.pure]

@[simp] theorem ite_error_eq_ok {β : Type} {c : Prop} [Decidable c] {e : StepError} {x : Read β}
    {b : β} : (if c then .error e else x) = .ok b ↔ ¬c ∧ x = .ok b := by
  by_cases h : c <;> simp [h]

@[simp] theorem named_eq_ok {table : List (String × Nat)} {v : Value} {field : String} {n : Named} :
    named table v field = .ok n ↔ text v field = .ok n.id ∧ table.lookup n.id = some n.key := by
  obtain ⟨nid, nkey⟩ := n
  unfold named
  cases ht : text v field with
  | error e => simp [bind, Except.bind]
  | ok id =>
    simp only [bind, Except.bind, Except.ok.injEq]
    cases hk : table.lookup id with
    | none =>
      simp only [reduceCtorEq, false_iff, not_and]
      rintro rfl
      simp [hk]
    | some k =>
      simp only [pure, Except.pure, Except.ok.injEq, Named.mk.injEq]
      constructor
      · rintro ⟨rfl, rfl⟩
        exact ⟨rfl, hk⟩
      · rintro ⟨rfl, h⟩
        rw [hk] at h
        exact ⟨rfl, Option.some.inj h⟩

/-- Each binding an action captures is one the scope has. -/
theorem grab_sub {table : List (String × Nat)} {a : Value} {field : String}
    {l : List (String × Nat)} (h : captures.grab table a field = .ok l) : ∀ p ∈ l, p ∈ table := by
  unfold captures.grab at h
  split at h
  · simp only [pure_eq_ok] at h
    subst h
    simp
  · split at h
    · rename_i id k hk
      simp only [pure_eq_ok] at h
      subst h
      obtain ⟨l₁, l₂, rfl, -⟩ := List.lookup_eq_some_iff.mp hk
      simp
    · cases h

/-- The scope a thread's actions capture is part of the scope they are captured from, and names no
thread object. -/
theorem captures_sub {scope sc : Scope} {acts : List Value} (h : captures scope acts = .ok sc) :
    (∀ p ∈ sc.mutexes, p ∈ scope.mutexes) ∧ (∀ p ∈ sc.latches, p ∈ scope.latches) ∧
      sc.threads = [] := by
  induction acts generalizing sc with
  | nil =>
    simp only [captures, pure_eq_ok] at h
    subst h
    simp
  | cons a rest ih =>
    simp only [captures, bind_eq_ok, pure_eq_ok] at h
    obtain ⟨ms, hms, ls, hls, cs, -, more, hmore, rfl⟩ := h
    obtain ⟨ihm, ihl, iht⟩ := ih hmore
    refine ⟨fun p hp => ?_, fun p hp => ?_, iht⟩
    · rcases List.mem_append.mp hp with hp | hp
      · exact grab_sub hms p hp
      · exact ihm p hp
    · rcases List.mem_append.mp hp with hp | hp
      · exact grab_sub hls p hp
      · exact ihl p hp

theorem threadSpec_captured {scope : Scope} {v : Value} {spec : ThreadSpec}
    (h : threadSpec scope v = .ok spec) :
    (∀ p ∈ spec.captured.mutexes, p ∈ scope.mutexes) ∧
      (∀ p ∈ spec.captured.latches, p ∈ scope.latches) ∧ spec.captured.threads = [] := by
  unfold threadSpec at h
  simp only [bind_eq_ok, bad, ite_error_eq_ok] at h
  obtain ⟨id, -, -, -, h⟩ := h
  repeat' split at h
  all_goals simp only [bind_eq_ok, pure_eq_ok, ite_error_eq_ok, reduceCtorEq, false_and,
    exists_false] at h
  all_goals grind [captures_sub]

end Read

/-- The steps only main may run. -/
def Step.mainOnly : Step → Bool
  | .mutexNew .. | .mutexDrop _ | .getMut .. | .latchNew .. | .condNew _ | .threadNew _
  | .threadStart _ | .threadJoin _ | .threadInfo _ | .threadDrop _ | .numCreated | .classify _
  | .exceptionNew _ => true
  | _ => false

/-- The steps on thread objects. -/
def Step.managesThreads : Step → Bool
  | .threadNew _ | .threadStart _ | .threadJoin _ | .threadInfo _ | .threadDrop _ | .numCreated =>
    true
  | _ => false

/-- What reading a step in scope `s`, by a context keeping the guards of `held`, guarantees. -/
structure Step.Resolved (s : Scope) (held : List Nat) (inThread manage : Bool) (st : Step) :
    Prop where
  named : st.Named s
  mainOnly : inThread = true → st.mainOnly = true → manage = true ∧ st.managesThreads = true
  getMut : ∀ m set, st = .getMut m set → m.key ∉ held

/-- A step only main may run, other than one on thread objects, is one main reads. -/
theorem Step.Resolved.main {s : Scope} {held : List Nat} {manage : Bool} {st : Step} {c : Ctx}
    (h : st.Resolved s held (c != .main) manage) (hm : st.mainOnly = true)
    (ht : st.managesThreads = false) : c = .main := by
  cases c with
  | main => rfl
  | thread i =>
    have h' := (h.mainOnly rfl hm).2
    rw [ht] at h'
    cases h'

theorem Step.read_resolved {s : Scope} {held : List Nat} {inThread manage : Bool} {v : Value}
    {st : Step} (h : Step.read s held inThread manage v = .ok st) :
    st.Resolved s held inThread manage := by
  unfold Step.read at h
  simp only [Read.bind_eq_ok] at h
  obtain ⟨op, -, h⟩ := h
  split at h
  · simp [Read.bad] at h
  · -- one case per step name; each reads its ids through the scope's tables
    split at h
    all_goals simp only [Read.bind_eq_ok, Read.pure_eq_ok, Read.named_eq_ok, Read.bad, reduceCtorEq,
      Read.ite_error_eq_ok] at h
    all_goals simp only [Read.mainOnly, Read.managesThreads, List.contains_cons,
      List.contains_nil] at *
    all_goals refine ⟨?_, ?_, ?_⟩
    all_goals grind [Step.Named, Step.mainOnly, Step.managesThreads, Read.threadSpec_captured]

end ThreadKit.Script
