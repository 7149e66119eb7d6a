import ThreadKit.Proofs.Names

/-! Process histories. A history runs a process and the children its forks make (`History`). A
child begins as a fresh process does (`Begins`), because its parent is sound and has its fork hook
registered by the time any thread has cached anything. So what holds of a process at its start and
is kept by every move holds in every world of every history from a fresh process
(`History.invariant`). Over histories: the identity caches stay fresh across threads and forks
(`World.fork_fresh`), default thread names stay unique whichever thread and process makes the
objects (`World.default_names_unique`), tid texts read back (`World.tid_text_round_trip`), and
threads report their names (`World.thread_names`). -/
namespace ThreadKit

open Script

namespace Identity.Self

/-- A request for the tid fills an empty cached tid and changes no other cache. -/
theorem tid_caches (s : Self) (p : Process) :
    (s.tid p).2.1.kernel = s.kernel ∧ (s.tid p).2.1.cache.text = s.cache.text ∧
      (s.cache.tid ≠ 0 → (s.tid p).2.1.cache.tid = s.cache.tid) := by
  unfold tid
  split <;> simp_all

@[simp] theorem forkChild_pid (s : Self) (p : Process) (child : Tid) :
    (s.forkChild p child).2.pid = child := by
  cases hp : p.hooked <;> simp [forkChild_hooked, forkChild_unhooked, hp]

end Identity.Self

namespace World

/-- A context that `forking?` finds can fork now. -/
theorem forking?_spec {w : World} {c : Ctx} {x : Context} {before : Tid} {rest : List Op}
    (h : w.forking? = some (c, x, before, rest)) :
    w.ctx? c = some x ∧ x.ended = none ∧ x.parked = none ∧ x.code = .fork before :: rest := by
  obtain ⟨d, -, hd⟩ := List.exists_of_findSome?_eq_some h
  split at hd
  · rename_i y hy
    split at hd
    · rename_i b r hcode
      split at hd
      · cases hd
      · rename_i hmove
        cases hd
        simp only [Bool.or_eq_true, Option.isSome_iff_ne_none, ne_eq, not_or, not_not] at hmove
        exact ⟨hy, hmove.1, hmove.2, hcode⟩
    · cases hd
  · cases hd

/-! ### Invariants over histories -/

/-- The child a context of a sound process forks begins as a fresh process does, once the hook is
registered whenever anything is cached. -/
theorem Begins.of_fork {w : World} {c : Ctx} {x : Context} (hs : w.Sound) (hr : w.Registered)
    (hx : w.ctx? c = some x) : (w.forkChild x).Begins :=
  .forkChild w x (Nat.lt_of_le_of_lt (Nat.zero_le _) (hs.self c x hx).2.2) (hr.cache · c x hx)

/-- What every process has at its start, and every move of a sound world keeps, holds in every
world of a history from a process at its start. -/
theorem History.invariant {P : World → Prop} {w₀ w : World} (h : History w₀ w) (h₀ : w₀.Begins)
    (hbegin : ∀ w, w.Begins → P w) (hmove : ∀ w w', w.Sound → P w → Moves w w' → P w') : P w := by
  -- soundness and the hook come along, for the children forks make to begin afresh
  suffices hsrp : w.Sound ∧ w.Registered ∧ P w from hsrp.2.2
  induction h with
  | refl => exact ⟨.of_begins h₀, .of_begins h₀, hbegin _ h₀⟩
  | tail _ hm ih =>
    obtain ⟨hs, hr, hp⟩ := ih
    exact ⟨hs.moves hm, hr.moves hm, hmove _ _ hs hp hm⟩
  | fork c x _ _ _ _ hx _ _ _ ih =>
    have hb := Begins.of_fork ih.1 ih.2.1 hx
    exact ⟨.of_begins hb, .of_begins hb, hbegin _ hb⟩

section
variable {w₀ w : World} (h : History w₀ w) (h₀ : w₀.Begins)
include h h₀

theorem Sound.history : w.Sound :=
  h.invariant h₀ (fun _ hb => .of_begins hb) fun _ _ _ hs hm => hs.moves hm

theorem Registered.history : w.Registered :=
  h.invariant h₀ (fun _ hb => .of_begins hb) fun _ _ _ hr hm => hr.moves hm

theorem Named.history : w.Named :=
  h.invariant h₀ (fun _ hb => .of_begins hb) fun _ _ hs hn hm => hn.moves hs hm

theorem Handshake.history : w.Handshake :=
  h.invariant h₀ (fun _ hb => .of_begins hb) fun _ _ hs hh hm => by
    obtain ⟨c, ht⟩ := Tracks.moves hs hh hm
    exact ht.handshake

/-- A world of a history that has not aborted has the life of every thread object in order; the
worlds before it did not abort either, since an aborted process makes no move. -/
theorem Lifecycle.history : w.abort = none → w.Lifecycle := by
  have hpair : w.Handshake ∧ (w.abort = none → w.Lifecycle) :=
    History.invariant (P := fun w => w.Handshake ∧ (w.abort = none → w.Lifecycle)) h h₀
      (fun _ hb => ⟨.of_begins hb, fun _ => .of_begins hb⟩) fun w w' hs ⟨hh, hl⟩ hm => by
        have hlive : w.abort = none := by cases hm <;> assumption
        obtain ⟨c, ht⟩ := Tracks.moves hs hh hm
        exact ⟨ht.handshake, (hl hlive).moves hh hm⟩
  exact hpair.2

end

/-! ### Forks -/

/-- The only thread of a process at its start reports the process id as its tid, is the main
thread, is named `main`, and formats its tid text afresh from its tid. -/
theorem Begins.main_reports {w : World} (hb : w.Begins) :
    (w.main.self.tid w.process).1 = w.process.pid ∧ (w.main.self.isMain w.process).1 = true ∧
      (w.main.self.name w.process).1 = Identity.mainName ∧
      (w.main.self.text w.process).1 = Identity.tidString w.process.pid := by
  refine ⟨by rw [Identity.Self.tid_fst _ hb.self, hb.pid], by simp [Identity.Self.isMain_fst hb.self,
    hb.pid], ?_, by simp [Identity.Self.text_fst hb.self, hb.text, hb.pid]⟩
  rcases hb.name with hn | hn <;> simp [Identity.Self.name_fst hb.self, hn, hb.pid]

/-- A fork leaves the forker with its kernel tid, its cached text and any tid it had cached. -/
theorem forked_keeps {w e : World} {c : Ctx} {x : Context} {before : Tid}
    (hx : (w.ctx? c).isSome) :
    ∃ y, (w.forked c x before e).ctx? c = some y ∧ y.self.kernel = x.self.kernel ∧
      y.self.cache.text = x.self.cache.text ∧
      (x.self.cache.tid ≠ 0 → y.self.cache.tid = x.self.cache.tid) := by
  rw [forked_eq]
  exact ⟨_, ctx_put_self _ _ _ (by exact hx), Identity.Self.tid_caches x.self w.process⟩

/-- The identity caches stay fresh in every world of every history from a fresh process, forked
children included: each context reports its kernel tid and caches only once the fork hook is
registered, and starts and joins answer as they should. A fork by any context makes a child
whose only thread reports the child's pid, is main, is named `main` and formats its text afresh,
while the forker keeps its caches. -/
theorem fork_fresh {host : Host} {steps : List Value} {w : World}
    (h : History (World.init host steps) w) :
    (∀ c x, w.ctx? c = some x → (x.self.tid w.process).1 = x.self.kernel ∧ 0 < x.self.kernel) ∧
    (∀ c x, w.ctx? c = some x →
      (x.self.cache.tid ≠ 0 ∨ x.self.cache.text ≠ "" ∨ x.self.cache.name ≠ none) →
      w.process.hooked = true) ∧
    (∀ c x i rest, w.ctx? c = some x → x.code = .adopt i :: rest →
      ∃ s, w.slots[i]? = some s ∧ 0 < s.published ∧
        ∀ d z, w.ctx? d = some z → z.self.kernel = s.published → d = .thread i) ∧
    (∀ c x i rest w', w.ctx? c = some x → x.code = .awaitEnd i :: rest → w.move? c = some w' →
      ∀ y, w.ctx? (.thread i) = some y → y.ended = some .returned →
        ∃ x', w'.ctx? c = some x' ∧ x'.reply = .records y.replies) ∧
    ∀ c x before rest, w.abort = none → w.ctx? c = some x → x.ended = none → x.parked = none →
      x.code = .fork before :: rest →
      ((w.forkChild x).main.self.tid (w.forkChild x).process).1 = (w.forkChild x).process.pid ∧
      (∀ d z, w.ctx? d = some z → z.self.kernel ≠ (w.forkChild x).process.pid) ∧
      ((w.forkChild x).main.self.isMain (w.forkChild x).process).1 = true ∧
      ((w.forkChild x).main.self.name (w.forkChild x).process).1 = Identity.mainName ∧
      (w.forkChild x).main.self.cache.text = "" ∧
      ((w.forkChild x).main.self.text (w.forkChild x).process).1 =
        Identity.tidString (w.forkChild x).process.pid ∧
      ∀ e, ∃ y, (w.forked c { x with code := rest } before e).ctx? c = some y ∧
        y.self.kernel = x.self.kernel ∧ y.self.cache.text = x.self.cache.text ∧
        (x.self.cache.tid ≠ 0 → y.self.cache.tid = x.self.cache.tid) := by
  have h₀ := Begins.init host steps
  have hs := Sound.history h h₀
  have hr := Registered.history h h₀
  refine ⟨fun c x hx => ?_, fun c x hx hfill => ?_, fun c x i rest hx hcode => ?_,
    fun c x i rest w' hx hcode hm y hy hret => ?_, fun c x before rest _ hx _ _ _ => ?_⟩
  · obtain ⟨hself, hk, -⟩ := hs.self c x hx
    exact ⟨Identity.Self.tid_fst w.process hself, hk⟩
  · -- an unregistered hook leaves every cache empty
    cases hh : w.process.hooked with
    | true => rfl
    | false =>
      rw [hr.cache hh c x hx] at hfill
      simp at hfill
  · obtain ⟨-, s, y, -, hsl, hy, -, -, -, hpub, hpos⟩ := (Handshake.history h h₀).ready hx hcode
    have hy' : w.ctx? (.thread i) = some y := by rw [ctx?_of_slot hsl, hy]
    exact ⟨s, hsl, hpos, fun d z hz hkz => hs.distinct d _ z y hz hy' (hkz.trans hpub)⟩
  · obtain ⟨x', hx', ⟨-, hrec⟩ | ⟨hexit, -⟩⟩ := awaitEnd_answer hx hcode hm hy
    · exact ⟨x', hx', hrec⟩
    · rw [hret] at hexit
      cases hexit
  · -- the child begins afresh, with the parent's next tid as its pid
    have hb := Begins.of_fork hs hr hx
    obtain ⟨htid, hmain, hname, htext⟩ := hb.main_reports
    have hfresh : ∀ d z, w.ctx? d = some z → z.self.kernel ≠ (w.forkChild x).process.pid :=
      fun d z hz => by simpa using Nat.ne_of_lt (hs.self d z hz).2.2
    exact ⟨htid, hfresh, hmain, hname, hb.text, htext, fun e => forked_keeps (by simp [hx])⟩

/-- A script whose thread `a` makes a thread object `b` of its own, then forks. -/
def forkInThread : List Value :=
  [.obj [("op", .str "thread_new"), ("id", .str "a"), ("actions", .arr
      [.obj [("op", .str "thread_new"), ("id", .str "b")],
       .obj [("op", .str "fork")]])],
   .obj [("op", .str "thread_start"), ("thread", .str "a")],
   .obj [("op", .str "thread_join"), ("thread", .str "a")]]

/-- Thread `a` is about to fork, while main waits for its start to return. -/
def threadForking : World :=
  ((World.init .program forkInThread).replay
    (List.replicate 2 .main ++ List.replicate 9 (.thread 0))).getD (World.init .program forkInThread)

theorem threadForking_forks :
    ∃ x before rest, threadForking.forking? = some (.thread 0, x, before, rest) := by
  obtain ⟨⟨c, x, before, rest⟩, hf⟩ :=
    Option.isSome_iff_exists.mp (show threadForking.forking?.isSome by decide)
  have hc : c = .thread 0 := by
    have h := show threadForking.forking?.map (·.1) = some (.thread 0) by decide
    simpa [hf] using h
  exact ⟨x, before, rest, hc ▸ hf⟩

/-- A managed thread's fork makes a child whose thread is main, named `main`, with a tid the forker
lacks. -/
theorem fork_fresh_thread :
    History (World.init .program forkInThread) threadForking ∧
    ∃ x before rest, threadForking.ctx? (.thread 0) = some x ∧ x.code = .fork before :: rest ∧
      ((threadForking.forkChild x).main.self.isMain (threadForking.forkChild x).process).1 = true ∧
      ((threadForking.forkChild x).main.self.name (threadForking.forkChild x).process).1 = "main" ∧
      x.self.kernel ≠ (threadForking.forkChild x).process.pid := by
  have h : History (World.init .program forkInThread) threadForking :=
    (Reachable.of_replay (by decide)).history
  obtain ⟨x, before, rest, hf⟩ := threadForking_forks
  obtain ⟨hx, hend, hpk, hcode⟩ := forking?_spec hf
  obtain ⟨-, hfresh, hmain, hname, -⟩ :=
    (fork_fresh h).2.2.2.2 (.thread 0) x before rest (by decide) hx hend hpk hcode
  exact ⟨h, x, before, rest, hx, hcode, hmain, hname, hfresh _ x hx⟩

/-! ### Thread objects over histories -/

/-- A fresh process has no thread object, so a world of its history keeps none of them. -/
theorem base_of_init {host : Host} {steps : List Value} {base k : Nat}
    (h : base = 0 ∨ base = (World.init host steps).slots.size ∧ k = 0) : base = 0 := by
  rcases h with h | ⟨h, -⟩ <;> simpa [World.init] using h

/-- Default thread names are unique over every history from `w₀`, whichever thread or process makes
the objects: the `i`-th object is named by its given name or `Thread` and the count at the start
plus `i`, the count grows by their number, and the world reached holds objects of `w₀` or none,
then those made since its process began. -/
theorem default_names_unique {w₀ w : World} (h : History w₀ w) :
    ∃ gs, Builds w₀ w gs ∧ w.created = w₀.created + gs.length ∧
      (∃ base k, k ≤ gs.length ∧ w.slots.size = base + (gs.length - k) ∧
        (base = 0 ∨ base = w₀.slots.size ∧ k = 0) ∧
        (∀ i, i < base → (w.slots[i]?).map Slot.name = (w₀.slots[i]?).map Slot.name) ∧
        (∀ i (hi : i < gs.length), k ≤ i → (w.slots[base + (i - k)]?).map Slot.name =
          some (if gs[i].isEmpty then "Thread" ++ toString (w₀.created + i) else gs[i])) ∧
        ∀ i j (hi : i < gs.length) (hj : j < gs.length), k ≤ i → k ≤ j → gs[i].isEmpty →
          gs[j].isEmpty → (w.slots[base + (i - k)]?).map Slot.name =
            (w.slots[base + (j - k)]?).map Slot.name → i = j) ∧
      ∀ i, i < gs.length → w₀.created + i < w.created := by
  obtain ⟨gs, hb⟩ := Builds.of_history h
  obtain ⟨hc, base, k, hk, hsz, hbase, hold, hnew⟩ := hb.roster
  refine ⟨gs, hb, hc, ⟨base, k, hk, hsz, hbase, hold, hnew, fun i j hi hj hki hkj hei hej he => ?_⟩,
    fun i hi => by omega⟩
  rw [hnew i hi hki, hnew j hj hkj, if_pos hei, if_pos hej, Option.some_inj] at he
  have := defaultName_inj he
  omega

/-- The child that thread `a` forks, before it runs. -/
def forkedChild : World :=
  threadForking.forkChild ((threadForking.forking?.map (·.2.1)).getD default)

/-- The child has made its thread object `post-fork`. -/
def childMade : World :=
  (forkedChild.replay [.main, .main]).getD forkedChild

theorem forkedChild_history : History (World.init .program forkInThread) forkedChild := by
  obtain ⟨x, before, rest, hf⟩ := threadForking_forks
  obtain ⟨hx, hend, hpk, hcode⟩ := forking?_spec hf
  have hchild : forkedChild = threadForking.forkChild x := by simp [forkedChild, hf]
  rw [hchild]
  exact .fork _ x before rest (Reachable.of_replay (by decide)).history (by decide) hx hend hpk
    hcode

/-- Main makes `a`, `a` makes `b`, and the child `a` forks makes the third object of the history. -/
theorem default_names_unique_forked :
    History (World.init .program forkInThread) childMade ∧
    ∃ gs, Builds (World.init .program forkInThread) childMade gs ∧ gs.length = 3 ∧
      childMade.created = 3 ∧ ∃ (h2 : 2 < gs.length), gs[2] = "post-fork" := by
  have h : History (World.init .program forkInThread) childMade :=
    forkedChild_history.reachable (.of_replay (by decide))
  obtain ⟨gs, hb, hc, ⟨base, k, hk, hsz, hbase, -, hnew, -⟩, -⟩ := default_names_unique h
  have hcreated : childMade.created = 3 := by decide
  have hlen : gs.length = 3 := by simpa [World.init, hcreated] using hc.symm
  have hsize : childMade.slots.size = 1 := by decide
  obtain rfl := base_of_init hbase
  have hk2 : k = 2 := by omega
  subst hk2
  refine ⟨h, gs, hb, hlen, hcreated, by omega, ?_⟩
  have hname := hnew 2 (by omega) le_rfl
  rw [show 0 + (2 - 2) = 0 from rfl,
    show (childMade.slots[0]?).map Slot.name = some "post-fork" by decide, Option.some_inj] at hname
  split at hname
  · exact absurd hname (by decide)
  · exact hname.symm

/-- Every thread object of a history from a fresh process has a name that is not empty: its given
name, or `Thread` and a number. -/
theorem name_ne_empty {host : Host} {steps : List Value} {w : World}
    (h : History (World.init host steps) w) {i : Nat} {s : Slot} (hs : w.slots[i]? = some s) :
    s.name ≠ "" := by
  obtain ⟨gs, -, -, ⟨base, k, hk, hsz, hbase, -, hnew, -⟩, -⟩ := default_names_unique h
  obtain rfl := base_of_init hbase
  have hi : i < w.slots.size := (Array.getElem?_eq_some_iff.mp hs).1
  have hname := hnew (k + i) (by omega) (by omega)
  simp only [Nat.zero_add, Nat.add_sub_cancel_left, hs, Option.map_some, Option.some.injEq] at hname
  rw [hname]
  split
  · simp
  · rename_i hne
    simpa using hne

/-! ### Tid texts and names over histories -/

/-- The tid text of every context in every history from a fresh process, forked children included,
is the tid's digits right-aligned in at least five places and one space, and reads back as the
tid. -/
theorem tid_text_round_trip {host : Host} {steps : List Value} {w : World}
    (h : History (World.init host steps) w) {c : Ctx} {x : Context} (hx : w.ctx? c = some x) :
    let t := (w.current x).1.tid
    let digits := Nat.toDigits 10 t
    0 < t ∧ (x.self.text w.process).1 = Identity.tidString t ∧
      (x.self.cache.text = "" ∨ x.self.cache.text = Identity.tidString t) ∧
      (Identity.tidString t).toList.dropLast =
        List.replicate (max 5 digits.length - digits.length) ' ' ++ digits ∧
      (Identity.tidString t).length = max 5 digits.length + 1 ∧
      (Identity.tidString t).toList.reverse.takeWhile (· = ' ') = [' '] ∧
      Identity.readTid (Identity.tidString t) = some t ∧
      (w.current x).1.textTid = some t ∧ (w.current x).1.shape = true := by
  intro t digits
  have h₀ := Begins.init host steps
  have hs := Sound.history h h₀
  have hn := Named.history h h₀
  have hself := (hs.self c x hx).1
  have ht : t = x.self.kernel := by
    show (w.current x).1.tid = _
    rw [current_fst w hself]
  refine ⟨?_, ?_, ?_, Identity.tidString_field t, Identity.tidString_length t,
    Identity.tidString_trailing t, Identity.readTid_tidString t, hn.current_text hx hself⟩
  · rw [ht]
    exact (hs.self c x hx).2.1
  · rw [ht]
    exact hn.text_eq hx hself
  · rw [ht]
    exact hn.texts c x hx

/-- The main thread of the child a managed thread forks reports the text of its own tid, which reads
back. -/
theorem tid_text_round_trip_child :
    History (World.init .program forkInThread) forkedChild ∧
    (forkedChild.main.self.text forkedChild.process).1 =
      Identity.tidString (forkedChild.current forkedChild.main).1.tid ∧
    Identity.readTid (forkedChild.main.self.text forkedChild.process).1 =
      some (forkedChild.current forkedChild.main).1.tid := by
  obtain ⟨-, htext, -, -, -, -, hread, -⟩ :=
    tid_text_round_trip forkedChild_history (c := .main) rfl
  exact ⟨forkedChild_history, htext, htext ▸ hread⟩

/-- The names threads report in every history from a fresh process: main reports `main`; a managed
thread carries the NUL-free label of its object's name, reports `unknown` until it takes that
name and the name after; and a start never fails for the name. -/
theorem thread_names {host : Host} {steps : List Value} {w : World}
    (h : History (World.init host steps) w) :
    (w.current w.main).1.name = Identity.mainName ∧
    (∀ (i : Nat) (s : Slot) (x : Context), w.slots[i]? = some s → s.ctx = some x →
      (w.current x).1.osName = Identity.osLabel s.name ∧
      '\x00' ∉ (w.current x).1.osName.toList ∧ (w.current x).1.osName ≠ "" ∧
      (x.ended = none → (∃ n, Op.rename n ∈ x.code) →
        (w.current x).1.name = Identity.unknownName) ∧
      (x.ended = none → (∀ n, Op.rename n ∉ x.code) → (w.current x).1.name = s.name)) ∧
    (w.abort = none → ∀ (c : Ctx) (x : Context) (id : String) (i : Nat) (s : Slot),
      w.ctx? c = some x → (id, i) ∈ x.scope.threads → w.slots[i]? = some s → s.started = false →
      w.host.refusal s.stackSize = none →
      ∃ s' y, (w.start c x i s).slots[i]? = some s' ∧ s'.started = true ∧ s'.name = s.name ∧
        s'.ctx = some y ∧ y.osName = Identity.osLabel s.name ∧
        y.code = spawnCode i w.latches.size s.name ∧ (w.start c x i s).abort = w.abort) := by
  have h₀ := Begins.init host steps
  have hs := Sound.history h h₀
  have hn := Named.history h h₀
  refine ⟨hn.main_name (hs.self .main w.main rfl).1, fun i s x hsl hx => ?_,
    fun ha c x id i s hx hmem hsl hst hstack => ?_⟩
  · have hctx : w.ctx? (.thread i) = some x := ctx?_thread_iff.mpr ⟨s, hsl, hx⟩
    have hself := (hs.self _ x hctx).1
    have hos : (w.current x).1.osName = Identity.osLabel s.name := by
      rw [current_fst w hself]
      exact (hn.threads i s x hsl hx).1
    refine ⟨hos, by rw [hos]; exact Identity.nul_not_mem_osLabel s.name,
      by rw [hos]; exact Identity.osLabel_ne_empty s.name, fun hend ⟨n, hren⟩ => ?_,
      fun hend hrun => ?_⟩
    · -- the name still to take is the only one, so none is taken; and main has the process id
      have hnone : x.self.cache.name = none := by
        have hne : x.code.filterMap Op.renamed? ≠ [] :=
          List.ne_nil_of_mem (List.mem_filterMap.mpr ⟨.rename n, hren, rfl⟩)
        cases hc : x.self.cache.name with
        | none => rfl
        | some a =>
          have hlen := congrArg List.length ((hn.threads i s x hsl hx).2 hend)
          simp [Context.naming, hc] at hlen
          exact absurd (List.filterMap_eq_nil_iff.mpr hlen) hne
      have hpid : x.self.kernel ≠ w.process.pid := by
        rw [← hn.pid]
        intro he
        cases hs.distinct _ _ _ _ hctx (show w.ctx? .main = some w.main from rfl) he
      simp [current_fst w hself, hnone, hpid]
    · rw [hn.thread_name hsl hx hself hend hrun]
      exact Identity.takenName_of_ne_empty (name_ne_empty h hsl)
  · -- an unstarted object a context names still holds its function
    have hl := Lifecycle.history h h₀ ha
    have hp := (hl.slots i s hsl).program ⟨c, x, hx, List.mem_map.mpr ⟨(id, i), hmem, rfl⟩⟩
    exact start_spawns hsl hst (hl.ne_unstarted hx hsl hst) (hp.mpr hst) hstack

/-- A script that starts a thread object named `a`, NUL, `b`. -/
def nulName : List Value :=
  [.obj [("op", .str "thread_new"), ("id", .str "t"), ("name", .str "a\x00b")],
   .obj [("op", .str "thread_start"), ("thread", .str "t")]]

/-- The thread of `t` has taken its name. -/
def nulNamed : World :=
  ((World.init .tested nulName).replay
    (List.replicate 2 .main ++ List.replicate 7 (.thread 0))).getD (World.init .tested nulName)

/-- Main reports `main`, and the thread named `a`, NUL, `b` reports that name, NUL kept, while the
OS knows it as `ab`. -/
theorem thread_names_nul :
    History (World.init .tested nulName) nulNamed ∧
    (nulNamed.current nulNamed.main).1.name = "main" ∧
    ∃ x, nulNamed.ctx? (.thread 0) = some x ∧ (nulNamed.current x).1.name = "a\x00b" ∧
      (nulNamed.current x).1.osName = "ab" := by
  have h : History (World.init .tested nulName) nulNamed := (Reachable.of_replay (by decide)).history
  obtain ⟨hmain, hthreads, -⟩ := thread_names h
  obtain ⟨s, hs⟩ : ∃ s, nulNamed.slots[0]? = some s := Option.isSome_iff_exists.mp (by decide)
  have hfield : ∀ {α : Type} {a : α} (f : Slot → α), (nulNamed.slots[0]?).map f = some a →
      f s = a := fun _ h => by
    rw [hs] at h
    exact Option.some.inj h
  obtain ⟨x, hx⟩ := Option.isSome_iff_exists.mp (hfield (·.ctx.isSome) (by decide))
  have hname : s.name = "a\x00b" := hfield (·.name) (by decide)
  have hend : x.ended = none := by
    simpa [hx] using hfield (fun s => s.ctx.bind (·.ended)) (by decide)
  have hcode : x.code = [] := by
    simpa [hx] using hfield (fun s => (s.ctx.map (·.code.length)).getD 1) (a := 0) (by decide)
  obtain ⟨hos, -, -, -, hrun⟩ := hthreads 0 s x hs hx
  refine ⟨h, hmain, x, by simp [ctx?, hs, hx], ?_, ?_⟩
  · rw [hrun hend (by simp [hcode]), hname]
  · rw [hos, hname]
    decide

end World

end ThreadKit
