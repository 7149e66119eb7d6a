import ThreadKit.Proofs.Handshake

/-! Counting a latch down. A move changes a latch only by a count-down its context makes next,
which takes one off the count, down to `0`, and counts itself (`World.Counts`). So a latch's count
is always its first count less the count-downs made on it, cut off at `0` (`World.Counted`); it
never rises on any run; and a wait on it ends exactly when it reads `0`. -/
namespace ThreadKit

open Script

namespace World

theorem Reachable.trans {w₀ w₁ w₂ : World} (h₁ : Reachable w₀ w₁) (h₂ : Reachable w₁ w₂) :
    Reachable w₀ w₂ := by
  induction h₂ with
  | refl => exact h₁
  | tail _ hm ih => exact .tail ih hm

section
variable {w w' : World}

/-- Each latch holds its first count less the count-downs made on it, cut off at `0`. -/
def Counted (w : World) : Prop :=
  ∀ (k : Nat) (l : LatchCell), w.latches[k]? = some l → l.count = l.initial - l.downs

theorem Counted.init (host : Host) (steps : List Value) : (World.init host steps).Counted := by
  intro k l h
  simp [World.init] at h

/-- A move keeps every count its first count less the count-downs made. -/
theorem Counted.step {c : Ctx} (hc : w.Counted) (h : Counts w w' c) : w'.Counted := by
  intro k l' hl'
  rcases h.2 k l' hl' with ⟨l, hl, hsame | ⟨-, hcount, hinit, hdowns⟩⟩ | ⟨-, hdowns, hinit⟩
  · -- the latch is as it was
    simp only [LatchCell.contents, Prod.mk.injEq] at hsame
    rw [hsame.1, hsame.2.1, hsame.2.2]
    exact hc k l hl
  · -- one more count-down takes one more off
    rw [hcount, hinit, hdowns, hc k l hl]
    omega
  · -- a new latch has had none
    rw [hdowns, hinit, Nat.sub_zero]

theorem Counted.reachable {host : Host} {steps : List Value} (h : Reachable (World.init host steps) w) :
    w.Counted := by
  induction h with
  | refl => exact Counted.init host steps
  | tail hr hm ih =>
    have hr' := (Sound.init host steps).reachable hr
    obtain ⟨c, ht⟩ := Tracks.moves hr' (Handshake.reachable hr) hm
    exact ih.step ht.counts

/-- A latch a move finds is there after it, with the same first count, and either as it was or
counted down once more, its count one less down to `0`. -/
theorem Counts.latch {c : Ctx} (h : Counts w w' c) {k : Nat} {l : LatchCell}
    (hl : w.latches[k]? = some l) :
    ∃ l', w'.latches[k]? = some l' ∧ l'.initial = l.initial ∧
      ((l'.count = l.count ∧ l'.downs = l.downs) ∨
        (l'.count = l.count - 1 ∧ l'.downs = l.downs + 1)) := by
  have hk : k < w'.latches.size := Nat.lt_of_lt_of_le (Array.getElem?_eq_some_iff.mp hl).1 h.1
  obtain ⟨l', hl'⟩ : ∃ l', w'.latches[k]? = some l' := ⟨_, Array.getElem?_eq_getElem hk⟩
  rcases h.2 k l' hl' with ⟨l₀, hl₀, hsame | ⟨-, hcount, hinit, hdowns⟩⟩ | ⟨hnone, -⟩
  · rw [hl] at hl₀
    cases hl₀
    simp only [LatchCell.contents, Prod.mk.injEq] at hsame
    exact ⟨l', hl', hsame.2.1, .inl ⟨hsame.1, hsame.2.2⟩⟩
  · rw [hl] at hl₀
    cases hl₀
    exact ⟨l', hl', hinit, .inr ⟨hcount, hdowns⟩⟩
  · rw [hl] at hnone
    cases hnone

/-- A move keeps a latch that exists and never raises its count. -/
theorem Counts.count_le {c : Ctx} (h : Counts w w' c) {k : Nat} (hk : k < w.latches.size) :
    w'.count k ≤ w.count k ∧ k < w'.latches.size := by
  obtain ⟨l', hl', -, hc⟩ := h.latch (Array.getElem?_eq_getElem hk)
  refine ⟨?_, (Array.getElem?_eq_some_iff.mp hl').1⟩
  rw [count_of_latch hl', count_of_latch (Array.getElem?_eq_getElem hk)]
  omega

/-- On every run from a world a process reaches, a latch that exists stays and its count never
rises. -/
theorem count_antitone {host : Host} {steps : List Value} (h₀ : Reachable (World.init host steps) w)
    (h : Reachable w w') {k : Nat} (hk : k < w.latches.size) :
    w'.count k ≤ w.count k ∧ k < w'.latches.size := by
  induction h with
  | refl => exact ⟨Nat.le_refl _, hk⟩
  | tail hr hm ih =>
    obtain ⟨hle, hk'⟩ := ih
    have hr' := h₀.trans hr
    obtain ⟨c, ht⟩ := Tracks.moves ((Sound.init host steps).reachable hr') (Handshake.reachable hr') hm
    obtain ⟨hle', hk''⟩ := ht.counts.count_le hk'
    exact ⟨hle'.trans hle, hk''⟩

/-- A wait on a latch, made while its context owns the latch's lock, ends exactly when the count
is `0`; otherwise the context goes on to sleep and check again. -/
theorem wait_ends_iff (hs : w.Sound) {c : Ctx} {x : Context} {k : Nat} {rest : List Op}
    (hx : w.ctx? c = some x) (hcode : x.code = .waitWhile (.latch k) (.latch k) (· > 0) :: rest)
    (hm : w.move? c = some w') : (w'.ctx? c).map (·.code) = some rest ↔ w.count k = 0 := by
  have hown : w.owns (.latch k) c = true :=
    (owns_iff _ _ _).mpr (hs.owns_of_keepsPhase hx hcode rfl rfl)
  have hsome : (w.ctx? c).isSome := by simp [hx]
  rw [advance_of_code hx hcode (advance_of_move? hm)]
  simp only [World.exec, hown, Bool.true_and, guarded]
  split
  · -- the count is above `0`: four moves of the wait come before the rest
    rename_i hpos
    have hpos' : 0 < w.count k := by simpa using hpos
    rw [ctx_put_self _ _ _ hsome]
    simp only [Option.map_some, Option.some.injEq, List.cons_append, List.nil_append]
    constructor
    · intro he
      have := congrArg List.length he
      simp only [List.length_cons] at this
      omega
    · intro h0
      omega
  · rename_i h0
    have h0' : w.count k = 0 := by simpa using h0
    rw [ctx_put_self _ _ _ hsome]
    simp [h0']

end

/-- A latch's count is its first count less the count-downs made, cut off at `0`; it never rises,
and a wait ends exactly when it is `0`. -/
theorem latch_counting {host : Host} {steps : List Value} {w : World} (h : Reachable (World.init host steps) w) :
    (∀ (k : Nat) (l : LatchCell), w.latches[k]? = some l → l.count = l.initial - l.downs) ∧
    (∀ w', Moves w w' → ∀ (k : Nat) (l : LatchCell), w.latches[k]? = some l →
      ∃ l', w'.latches[k]? = some l' ∧ l'.initial = l.initial ∧
        ((l'.count = l.count ∧ l'.downs = l.downs) ∨
          (l'.count = l.count - 1 ∧ l'.downs = l.downs + 1))) ∧
    (∀ w', Reachable w w' → ∀ k < w.latches.size, w'.count k ≤ w.count k) ∧
    (∀ c x (k : Nat) rest w', w.ctx? c = some x →
      x.code = .waitWhile (.latch k) (.latch k) (· > 0) :: rest → w.move? c = some w' →
      ((w'.ctx? c).map (·.code) = some rest ↔ w.count k = 0)) := by
  have hs := (Sound.init host steps).reachable h
  refine ⟨Counted.reachable h, fun w' hm k l hl => ?_, fun w' hr k hk => (count_antitone h hr hk).1,
    fun c x k rest w' hx hcode hm => wait_ends_iff hs hx hcode hm⟩
  obtain ⟨c, ht⟩ := Tracks.moves hs (Handshake.reachable h) hm
  exact ht.counts.latch hl

/-- A script that makes latches `a`, with count 2, and `b`, with count 1, opens `b`, counts `a`
down once and waits on it. -/
def latchWork : List Value :=
  [.obj [("op", .str "latch_new"), ("id", .str "a"), ("count", .int 2)],
    .obj [("op", .str "latch_new"), ("id", .str "b"), ("count", .int 1)],
    .obj [("op", .str "count_down"), ("latch", .str "b")],
    .obj [("op", .str "count_down"), ("latch", .str "a")],
    .obj [("op", .str "wait"), ("latch", .str "a")]]

/-- Main about to count `a` down, twelve moves in. -/
def countingDown : World :=
  ((World.init .tested latchWork).replay (List.replicate 12 .main)).getD (World.init .tested latchWork)

/-- Main about to check the count of `a` in its wait, seven moves later. -/
def checkingWait : World := (countingDown.replay (List.replicate 7 .main)).getD countingDown

/-- The count-down takes `a` from 2 to 1, and the wait at count 1 does not return. -/
theorem latch_counting_work :
    Reachable (World.init .tested latchWork) countingDown ∧ Reachable countingDown checkingWait ∧
    (∃ l l', countingDown.latches[0]? = some l ∧
      (countingDown.advance .main).1.latches[0]? = some l' ∧ l.count = 2 ∧
      l'.initial = l.initial ∧ l'.count = l.count - 1 ∧ l'.downs = l.downs + 1) ∧
    (∃ l, checkingWait.latches[0]? = some l ∧ l.downs = 1 ∧ l.count = l.initial - l.downs) ∧
    checkingWait.count 0 ≤ countingDown.count 0 ∧
    ∃ rest, checkingWait.main.code = .waitWhile (.latch 0) (.latch 0) (· > 0) :: rest ∧
      ((checkingWait.advance .main).1.ctx? .main).map (·.code) ≠ some rest := by
  have hA : Reachable (World.init .tested latchWork) countingDown := .of_replay (by decide)
  have hAB : Reachable countingDown checkingWait := .of_replay (by decide)
  obtain ⟨-, hstep, hmono, -⟩ := latch_counting hA
  obtain ⟨hcount, -, -, hwait⟩ := latch_counting (hA.trans hAB)
  obtain ⟨l, hl⟩ : ∃ l, countingDown.latches[0]? = some l := Option.isSome_iff_exists.mp (by decide)
  have hl₂ : l.count = 2 ∧ l.downs = 0 := by
    have : (countingDown.latches[0]?).map (fun l => (l.count, l.downs)) = some (2, 0) := by decide
    rw [hl] at this
    simpa using this
  have hmove : Moves countingDown (countingDown.advance .main).1 := .move .main (by decide) rfl
  obtain ⟨l', hl', hinit, hsame | hdown⟩ := hstep _ hmove 0 l hl
  · exfalso
    have h1 : ((countingDown.advance .main).1.latches[0]?).map (·.downs) = some 1 := by decide
    rw [hl'] at h1
    have h2 : l'.downs = 1 := Option.some.inj h1
    have h3 := hsame.2
    have h4 := hl₂.2
    omega
  obtain ⟨m, hm⟩ : ∃ m, checkingWait.latches[0]? = some m := Option.isSome_iff_exists.mp (by decide)
  have hdowns : m.downs = 1 := by
    have : (checkingWait.latches[0]?).map (·.downs) = some 1 := by decide
    rw [hm] at this
    exact Option.some.inj this
  have hcode : checkingWait.main.code =
      .waitWhile (.latch 0) (.latch 0) (· > 0) :: [.unassign (.latch 0), .release (.latch 0), .complete] :=
    rfl
  refine ⟨hA, hAB, ⟨l, l', hl, hl', hl₂.1, hinit, hdown⟩, ⟨m, hm, hdowns, hcount 0 m hm⟩,
    hmono _ hAB 0 (by decide), _, hcode, fun hret => ?_⟩
  have hopen := (hwait .main _ 0 _ _ rfl hcode rfl).mp hret
  exact absurd hopen (by decide)

end World

end ThreadKit
