import ThreadKit.Proofs.Sound

/-! The text of a tid and the names a thread reports, as functions of one thread's identity. The
text of a tid is its decimal digits, never cut, right-aligned in a field of at least five places
and followed by exactly one space; reading it back gives the tid (`readTid_tidString`). A thread's
requests keep its kernel tid and the name it was given, and keep its cached text empty or the text
of its own tid (`Self.Asked`). The OS label of a name holds no NUL and is never empty. -/
namespace ThreadKit

namespace Identity

/-! ### The text of a tid -/

theorem isDigit_of_mem_toDigits {t : Tid} {c : Char} (h : c ∈ Nat.toDigits 10 t) :
    c.isDigit = true :=
  Nat.isDigit_of_mem_toDigits (by decide) (by decide) h

theorem ne_space_of_mem_toDigits {t : Tid} {c : Char} (h : c ∈ Nat.toDigits 10 t) : c ≠ ' ' := by
  rintro rfl
  simpa using isDigit_of_mem_toDigits h

theorem tidString_toList (t : Tid) :
    (tidString t).toList =
      List.replicate (5 - (Nat.toDigits 10 t).length) ' ' ++ Nat.toDigits 10 t ++ [' '] := by
  simp [tidString]

/-- The text of a tid is the field its digits fill, right-aligned in at least five places, and
one space after it. -/
theorem tidString_field (t : Tid) :
    (tidString t).toList.dropLast =
      List.replicate (max 5 (Nat.toDigits 10 t).length - (Nat.toDigits 10 t).length) ' ' ++
        Nat.toDigits 10 t := by
  have hw : max 5 (Nat.toDigits 10 t).length - (Nat.toDigits 10 t).length =
      5 - (Nat.toDigits 10 t).length := by omega
  rw [tidString_toList, hw, List.dropLast_concat]

theorem tidString_length (t : Tid) :
    (tidString t).length = max 5 (Nat.toDigits 10 t).length + 1 := by
  rw [← String.length_toList, tidString_toList]
  simp only [List.length_append, List.length_replicate, List.length_singleton]
  omega

/-- The text of a tid ends with exactly one space: the run of spaces at its end is one long. -/
theorem tidString_trailing (t : Tid) :
    (tidString t).toList.reverse.takeWhile (· = ' ') = [' '] := by
  obtain ⟨d, ds, hd⟩ : ∃ d ds, (Nat.toDigits 10 t).reverse = d :: ds :=
    List.exists_cons_of_ne_nil (by simp [Nat.toDigits_ne_nil])
  have hds : d ≠ ' ' :=
    ne_space_of_mem_toDigits (List.mem_reverse.mp (hd ▸ List.mem_cons_self))
  rw [tidString_toList]
  simp [hd, hds]

/-- Reading the text of a tid gives the tid back. -/
theorem readTid_tidString (t : Tid) : readTid (tidString t) = some t := by
  have hne : Nat.toDigits 10 t ≠ [] := Nat.toDigits_ne_nil
  have hfront : ((List.replicate (5 - (Nat.toDigits 10 t).length) ' ' ++ Nat.toDigits 10 t ++
      [' ']).dropWhile (· = ' ')) = Nat.toDigits 10 t ++ [' '] := by
    obtain ⟨d, ds, hd⟩ := List.exists_cons_of_ne_nil hne
    have : d ≠ ' ' := ne_space_of_mem_toDigits (hd ▸ List.mem_cons_self)
    rw [List.append_assoc, List.dropWhile_append_of_pos (by simp), hd]
    simp [this]
  have hback : (Nat.toDigits 10 t).reverse.dropWhile (· = ' ') = (Nat.toDigits 10 t).reverse := by
    obtain ⟨d, ds, hd⟩ := List.exists_cons_of_ne_nil (List.reverse_ne_nil_iff.mpr hne)
    have : d ≠ ' ' := ne_space_of_mem_toDigits (List.mem_reverse.mp (hd ▸ List.mem_cons_self))
    rw [hd]
    simp [this]
  have hall : (Nat.toDigits 10 t).all Char.isDigit = true :=
    List.all_eq_true.mpr fun _ h => isDigit_of_mem_toDigits h
  simp only [readTid, tidString_toList, hfront, List.reverse_append, List.reverse_singleton,
    List.singleton_append, List.dropWhile_cons, decide_true, if_true, hback, List.reverse_reverse]
  simp only [digitsValue?, ne_eq, hne, not_false_eq_true, hall, and_self, if_true]
  exact congrArg some Nat.ofDigitChars_ten_toDigits

/-! ### The OS label of a name -/

/-- The OS label of a name holds no NUL. -/
theorem nul_not_mem_osLabel (name : String) : '\x00' ∉ (osLabel name).toList := by
  unfold osLabel
  dsimp only
  split
  · decide
  · simp

/-- The OS label of a name is never empty. -/
theorem osLabel_ne_empty (name : String) : osLabel name ≠ "" := by
  unfold osLabel
  dsimp only
  split
  · decide
  · rename_i h
    intro he
    exact h (by simpa using congrArg String.toList he)

/-! ### What requests keep -/

namespace Self

/-- The text a thread has cached is none yet, or the text of its own kernel tid. -/
def TextFresh (s : Self) : Prop := s.cache.text = "" ∨ s.cache.text = tidString s.kernel

/-- Thread `s'` is thread `s` after requests: the same kernel tid, the same name given, and a
fresh cached text if `s` had one. -/
structure Asked (s s' : Self) : Prop where
  kernel : s'.kernel = s.kernel
  name : s'.cache.name = s.cache.name
  fresh : s.TextFresh → s'.TextFresh

variable {s s₁ s' : Self} {p : Process}

/-- A thread whose cached text is fresh reports the text of its kernel tid. -/
theorem TextFresh.shown (h : s.TextFresh) :
    (if s.cache.text = "" then tidString s.kernel else s.cache.text) = tidString s.kernel := by
  rcases h with h | h <;> simp [h]

theorem Asked.refl (s : Self) : Asked s s := ⟨rfl, rfl, id⟩

theorem Asked.trans (h₁ : Asked s s₁) (h₂ : Asked s₁ s') : Asked s s' :=
  ⟨h₂.kernel.trans h₁.kernel, h₂.name.trans h₁.name, fun h => h₂.fresh (h₁.fresh h)⟩

@[simp] theorem tid_cache_name (s : Self) (p : Process) :
    (s.tid p).2.1.cache.name = s.cache.name := by
  unfold tid
  split <;> rfl

@[simp] theorem tid_cache_text (s : Self) (p : Process) :
    (s.tid p).2.1.cache.text = s.cache.text := by
  unfold tid
  split <;> rfl

@[simp] theorem tid_pid (s : Self) (p : Process) : (s.tid p).2.2.pid = p.pid := by
  unfold tid
  split <;> rfl

theorem tid_asked (s : Self) (p : Process) : Asked s (s.tid p).2.1 :=
  ⟨tid_kernel s p, tid_cache_name s p, fun h => by
    unfold TextFresh
    rwa [tid_cache_text, tid_kernel]⟩

/-- A request for the text leaves it cached fresh: it is formatted from the tid reported, which
is the kernel's. -/
theorem text_asked (hs : s.Sound) (p : Process) :
    Asked s (s.text p).2.1 ∧ (s.text p).2.2 = (s.tid p).2.2 := by
  have h₁ := tid_asked s p
  have hk : (s.tid p).1 = s.kernel := tid_fst p hs
  rcases ht : s.tid p with ⟨t, s₁, p₁⟩
  rw [ht] at h₁ hk
  simp only at h₁ hk
  simp only [text, ht]
  split
  · refine ⟨⟨h₁.kernel, h₁.name, fun _ => .inr ?_⟩, rfl⟩
    simp [hk, h₁.kernel]
  · exact ⟨h₁, rfl⟩

theorem isMain_asked (s : Self) (p : Process) :
    Asked s (s.isMain p).2.1 ∧ (s.isMain p).2.2 = (s.tid p).2.2 := by
  have h₁ := tid_asked s p
  rcases ht : s.tid p with ⟨t, s₁, p₁⟩
  rw [ht] at h₁
  exact ⟨by simpa [isMain, ht] using h₁, by simp [isMain, ht]⟩

theorem name_asked (s : Self) (p : Process) :
    Asked s (s.name p).2.1 ∧ (s.name p).2.2.pid = p.pid := by
  unfold name
  split
  · exact ⟨.refl s, rfl⟩
  · have h₁ := isMain_asked s p
    rcases hm : s.isMain p with ⟨m, s₁, p₁⟩
    rw [hm] at h₁
    simp only at h₁
    simp only
    exact ⟨h₁.1, by rw [h₁.2, tid_pid]⟩

@[simp] theorem isMain_process (s : Self) (p : Process) : (s.isMain p).2.2 = (s.tid p).2.2 := rfl

theorem isMain_fst (hs : s.Sound) (p : Process) : (s.isMain p).1 = (s.kernel == p.pid) := by
  show ((s.tid p).1 == (s.tid p).2.2.pid) = _
  rw [tid_fst p hs, tid_pid]

@[simp] theorem name_cache_text (s : Self) (p : Process) :
    (s.name p).2.1.cache.text = s.cache.text := by
  unfold name
  split <;> simp

/-- The text a thread reports: the one cached, or the text of its tid when none is. -/
theorem text_fst (hs : s.Sound) (p : Process) :
    (s.text p).1 = if s.cache.text = "" then tidString s.kernel else s.cache.text := by
  have hk : (s.tid p).1 = s.kernel := tid_fst p hs
  have htx := tid_cache_text s p
  rcases ht : s.tid p with ⟨t, s₁, p₁⟩
  rw [ht] at hk htx
  simp only at hk htx
  simp only [text, ht, htx, hk]
  split <;> rfl

/-- The name a thread reports: the name given to it, else `main` when its tid is the process id
and `unknown` when it is not. -/
theorem name_fst (hs : s.Sound) (p : Process) :
    (s.name p).1 = s.cache.name.getD (if s.kernel = p.pid then mainName else unknownName) := by
  unfold name
  split
  · rename_i n hn
    simp [hn]
  · rename_i hn
    have hk : (s.tid p).1 = s.kernel := tid_fst p hs
    have hp := tid_pid s p
    rcases ht : s.tid p with ⟨t, s₁, p₁⟩
    rw [ht] at hk hp
    simp only at hk hp
    simp [hn, isMain, ht, hk, hp]

end Self

end Identity

end ThreadKit
