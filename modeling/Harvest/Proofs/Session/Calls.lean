import Harvest.Proofs.Session.Deeds
import Harvest.Proofs.Session.Outcomes
import Harvest.Proofs.Window.Fresh

/-! How often a session calls its relay. It takes no window twice, so all its attempts to ask for a
window are those that its retry policy grants to one window, and no attempt asks more than once. -/

namespace Harvest

namespace Deed

/-- An attempt to ask for the window. -/
def tries (w : Window) : Deed → Bool
  | tried v _ => v = w
  | _ => false

/-- A query for the window. -/
def asks (w : Window) : Deed → Bool
  | asked v _ => v = w
  | _ => false

/-- The window for which the relay is called. -/
def window? : Deed → Option Window
  | tried w _ | dialled w | asked w _ => some w
  | _ => none

end Deed

/-- The window for which the relay is called, as long as there is no reply. -/
def Stage.asking? : Stage → Option Window
  | connecting w .. | pacing w .. | querying w .. | resting w .. => some w
  | _ => none

namespace Session

/-- A move calls the relay only for the window that is asked for afterwards. -/
theorem asking?_of_mem_deeds {s next : Session} {deed : Deed} (hd : deed ∈ s.deeds next)
    {w : Window} (hw : deed.window? = some w) : next.stage.asking? = some w := by
  rw [deeds] at hd
  rcases List.mem_append.mp hd with hd | hd
  · split at hd
    · obtain rfl := List.mem_singleton.mp hd
      cases hw
    · cases hd
  · cases hs : next.stage with
    | connecting v retries =>
      simp only [hs] at hd
      rcases List.mem_cons.mp hd with rfl | hd
      · exact hw
      · obtain rfl := List.mem_singleton.mp hd
        exact hw
    | pacing v retries =>
      simp only [hs] at hd
      split at hd <;> obtain rfl := List.mem_singleton.mp hd
      · exact hw
      · cases hw
    | querying v retries due answer =>
      simp only [hs] at hd
      obtain rfl := List.mem_singleton.mp hd
      exact hw
    | storing | salvaging =>
      simp only [hs] at hd
      obtain rfl := List.mem_singleton.mp hd
      cases hw
    | _ => simp [hs] at hd

/-- The query that is on its way was asked in the move before. -/
theorem asked_mem_deeds (s : Session) {next : Session} {w : Window} {retries due : Nat}
    {answer : Except LinkFault Reply} (hn : next.stage = .querying w retries due answer) :
    .asked w answer ∈ s.deeds next := by
  rw [deeds, hn]
  exact List.mem_append_right _ (List.mem_singleton_self _)

theorem tries_deeds (s next : Session) (v : Window) :
    (s.deeds next).countP (Deed.tries v) =
      match next.stage with
      | .connecting w .. => if w = v then 1 else 0
      | .pacing w .. => if s.connected ∧ w = v then 1 else 0
      | _ => 0 := by
  have hreleased : (if s.connected && !next.connected then [Deed.released] else []).countP
      (Deed.tries v) = 0 := by
    split <;> rfl
  rw [deeds, List.countP_append, hreleased, Nat.zero_add]
  cases next.stage with
  | connecting w => simp [List.countP_cons, Deed.tries]
  | pacing w => cases s.connected <;> simp [List.countP_cons, Deed.tries]
  | _ => rfl

theorem asks_deeds (s next : Session) (v : Window) :
    (s.deeds next).countP (Deed.asks v) =
      match next.stage with
      | .querying w .. => if w = v then 1 else 0
      | _ => 0 := by
  have hreleased : (if s.connected && !next.connected then [Deed.released] else []).countP
      (Deed.asks v) = 0 := by
    split <;> rfl
  rw [deeds, List.countP_append, hreleased, Nat.zero_add]
  cases next.stage with
  | querying w => simp [List.countP_cons, Deed.asks]
  | pacing w => cases s.connected <;> rfl
  | _ => rfl

/-- How often a session has tried and asked for each window, where each may be tried `limit` times.
What it owes was never tried before. -/
structure Metered (limit : Nat) (tries asks : Window → Nat) (s : Session) : Prop where
  tries_le : ∀ v, tries v ≤ limit
  asks_le : ∀ v, asks v ≤ tries v
  fresh : match s.stage with
    | .ready _ => Fresh s.splitter.stack.pending fun v => 0 < tries v
    | .connecting w .. | .pacing w .. | .querying w .. | .resting w ..
    | .storing _ _ (.reply w ..) .. | .storeResting _ _ (.reply w ..) _ =>
      Fresh (w :: s.splitter.stack.pending) fun v => 0 < tries v ∧ v ≠ w
    | _ => True
  count : match s.stage with
    | .connecting w retries .. | .pacing w retries _ =>
      tries w = retries + 1 ∧ asks w ≤ retries
    | .querying w retries .. => tries w = retries + 1
    | .resting w retries _ => tries w = retries ∧ retries < limit
    | _ => True

variable {limit : Nat} {tries asks : Window → Nat} {s next : Session} {c : Control} {now : Nat}

theorem metered_start (limit : Nat) (job : Job) (wall : UInt64) (now : Nat) :
    Metered limit (fun _ => 0) (fun _ => 0) (start job wall now) where
  tries_le _ := Nat.zero_le _
  asks_le _ := Nat.le_refl _
  fresh := by
    refine ⟨?_, fun u hu => WindowStack.nonempty _ u hu, fun _ _ _ h => (by cases h)⟩
    simp only [start, Splitter.pending_ofRange]
    split
    · exact List.pairwise_singleton ..
    · exact .nil
  count := trivial

/-- The window in hand and those that are owed. -/
theorem Metered.digests (h : Metered limit tries asks s) {w : Window} {received : Nat}
    {oldest : Option Nat} {items : List Json} {delivered : Nat}
    (hd : s.Digests w received oldest items delivered) :
    Fresh (w :: s.splitter.stack.pending) fun v => 0 < tries v ∧ v ≠ w := by
  have hf := h.fresh
  cases hd with
  | reply hs => rwa [hs] at hf
  | stored hs => rwa [hs] at hf

theorem Metered.frees (h : Metered limit tries asks s) {splitter : Splitter}
    {pending : List Event} {delivered : Nat} (hf : s.Frees splitter pending delivered) :
    Fresh splitter.stack.pending fun v => 0 < tries v := by
  cases hf with
  | ready hs =>
    have hf := h.fresh
    rwa [hs] at hf
  | @resolved w _ _ _ _ hd =>
    refine ((h.digests hd).resolve _ _).imp fun v hv => ?_
    by_cases he : v = w
    · exact .inr he
    · exact .inl ⟨hv, he⟩

/-- One more attempt for a window that was not tried as often as it may be. -/
theorem Metered.tried (h : Metered limit tries asks s) {w : Window} {retries : Nat}
    (ht : s.Tries now next w retries) (hw : tries w = retries) (hl : retries < limit)
    (hf : Fresh (w :: next.splitter.stack.pending) fun v => 0 < tries v ∧ v ≠ w) :
    Metered limit (fun v => tries v + (s.deeds next).countP (Deed.tries v))
      (fun v => asks v + (s.deeds next).countP (Deed.asks v)) next := by
  have htries (v : Window) :
      tries v + (s.deeds next).countP (Deed.tries v) = tries v + if w = v then 1 else 0 := by
    rw [tries_deeds]
    cases ht with
    | paced hn _ hc => simp [hn, hc]
    | dialled hn => simp [hn]
  have hasks (v : Window) : asks v + (s.deeds next).countP (Deed.asks v) = asks v := by
    rw [asks_deeds]
    cases ht with
    | paced hn | dialled hn => simp [hn]
  have hfresh : Fresh (w :: next.splitter.stack.pending) fun v =>
      0 < tries v + (if w = v then 1 else 0) ∧ v ≠ w := by
    refine hf.imp fun v ⟨hv, hne⟩ => ⟨?_, hne⟩
    rwa [if_neg (Ne.symm hne)] at hv
  have hcount : tries w + (if w = w then 1 else 0) = retries + 1 ∧ asks w ≤ retries := by
    have := h.asks_le w
    rw [if_pos rfl]
    omega
  simp only [htries, hasks]
  refine ⟨fun v => ?_, fun v => ?_, ?_, ?_⟩
  · split
    · subst_vars
      omega
    · exact h.tries_le v
  · exact Nat.le_trans (h.asks_le v) (Nat.le_add_right ..)
  · cases ht with
    | paced hn | dialled hn => rw [hn]; exact hfresh
  · cases ht with
    | paced hn | dialled hn => rw [hn]; exact hcount

/-- An attempt that was begun comes to its query. -/
theorem Metered.asked (h : Metered limit tries asks s) {w : Window} {retries due : Nat}
    {answer : Except LinkFault Reply} (hn : next.stage = .querying w retries due answer)
    (hcount : tries w = retries + 1 ∧ asks w ≤ retries)
    (hf : Fresh (w :: next.splitter.stack.pending) fun v => 0 < tries v ∧ v ≠ w) :
    Metered limit (fun v => tries v + (s.deeds next).countP (Deed.tries v))
      (fun v => asks v + (s.deeds next).countP (Deed.asks v)) next := by
  have htries (v : Window) : tries v + (s.deeds next).countP (Deed.tries v) = tries v := by
    rw [tries_deeds, hn]
    rfl
  have hasks (v : Window) :
      asks v + (s.deeds next).countP (Deed.asks v) = asks v + if w = v then 1 else 0 := by
    rw [asks_deeds, hn]
  simp only [htries, hasks]
  refine ⟨h.tries_le, fun v => ?_, by rw [hn]; exact hf, by rw [hn]; exact hcount.1⟩
  have := h.asks_le v
  split
  · subst_vars
    omega
  · omega

/-- A move that begins no attempt and does not ask. -/
theorem Metered.quiet (h : Metered limit tries asks next)
    (hq : next.stage.asking? = none ∨ (∃ w retries due, next.stage = .resting w retries due) ∨
      s.connected = false ∧ ∃ w retries due, next.stage = .pacing w retries due) :
    Metered limit (fun v => tries v + (s.deeds next).countP (Deed.tries v))
      (fun v => asks v + (s.deeds next).countP (Deed.asks v)) next := by
  have hnone (v : Window) : (s.deeds next).countP (Deed.tries v) = 0 ∧
      (s.deeds next).countP (Deed.asks v) = 0 := by
    rw [tries_deeds, asks_deeds]
    rcases hq with hq | ⟨w, retries, due, hq⟩ | ⟨hc, w, retries, due, hq⟩
    · cases hs : next.stage <;> simp_all [Stage.asking?]
    · simp [hq]
    · simp [hq, hc]
  simpa only [hnone, Nat.add_zero] using h

theorem Metered.idle (h : Metered limit tries asks s)
    (hn : match next.stage with
      | .storing _ _ .finish .. | .storeResting _ _ .finish _ | .salvaging .. | .ended ..
      | .crashed _ => True
      | _ => False) : Metered limit tries asks next := by
  refine ⟨h.tries_le, h.asks_le, ?_, ?_⟩ <;> split at hn <;> simp_all

/-- **Every move keeps to what the retry policy grants to a window.** -/
theorem Metered.comes (h : Metered limit tries asks s)
    (hl : limit = max 1 s.settings.queryRetry.maxAttempts)
    (hw : ∃ wire, s.On wire) (hcomes : s.Comes c now next) :
    Metered limit (fun v => tries v + (s.deeds next).countP (Deed.tries v))
      (fun v => asks v + (s.deeds next).countP (Deed.asks v)) next := by
  have quits {reason : AbandonReason} (hq : next.Quits now reason) :
      Metered limit (fun v => tries v + (s.deeds next).countP (Deed.tries v))
        (fun v => asks v + (s.deeds next).countP (Deed.asks v)) next := by
    cases hq with
    | ended hn | salvaging hn =>
      exact (h.idle (by rw [hn]; trivial)).quiet (.inl (by rw [hn]; rfl))
  have hfresh := h.fresh
  have hcount := h.count
  cases hcomes with
  | cut _ _ hq => exact quits hq
  | fails _ hq => exact quits hq
  | heeds _ _ _ hq => exact quits hq
  | left _ hn | crashes _ hn | drains _ _ hn _ | finishes _ hn _ | refused _ hn =>
    exact (h.idle (by rw [hn]; trivial)).quiet (.inl (by rw [hn]; rfl))
  | asks hs hn _ ha =>
    rw [hs] at hfresh hcount
    exact h.asked hn hcount (ha.splitter ▸ hfresh)
  | opens hs hn _ ha =>
    rw [hs] at hfresh hcount
    obtain ⟨wire, hopen, hon⟩ := hw
    rw [hs] at hon
    have hc : s.connected = false := by
      rw [← hopen, hon]
      rfl
    refine .quiet ⟨h.tries_le, h.asks_le, ?_, ?_⟩ (.inr (.inr ⟨hc, _, _, _, hn⟩))
    · rw [hn, ha.splitter]
      exact hfresh
    · rw [hn]
      exact hcount
  | @rests w retries _ hs hn _ hr ha =>
    have hasked : Fresh (w :: s.splitter.stack.pending) (fun v => 0 < tries v ∧ v ≠ w) ∧
        tries w = retries + 1 := by
      rcases hs with ⟨_, _, hs⟩ | ⟨_, _, hs⟩ <;> rw [hs] at hfresh hcount
      · exact ⟨hfresh, hcount.1⟩
      · exact ⟨hfresh, hcount⟩
    refine .quiet ⟨h.tries_le, h.asks_le, ?_, ?_⟩ (.inr (.inl ⟨_, _, _, hn⟩))
    · rw [hn, ha.splitter]
      exact hasked.1
    · rw [hn]
      exact ⟨hasked.2, by rw [hl]; exact hr⟩
  | retries hs hn ha =>
    rw [hs] at hfresh hcount
    refine h.tried hn hcount.1 hcount.2 ?_
    rw [ha.splitter]
    exact hfresh
  | @takes splitter _ _ _ w hf hpop _ hn ha =>
    have hfree := h.frees hf
    rw [(Splitter.next_eq_some hpop).1] at hfree
    have hnew := hfree.not_taken (List.mem_cons_self ..)
    refine h.tried hn (Nat.eq_zero_of_not_pos hnew) (by omega) ?_
    rw [ha.splitter]
    exact hfree.imp fun v hv => hv.1
  | fills hf hn ha =>
    obtain ⟨_, _, _, hn, -⟩ := hn
    refine .quiet ⟨h.tries_le, h.asks_le, ?_, ?_⟩ (.inl (by rw [hn]; rfl))
    · rw [hn, ha.splitter]
      exact h.digests hf
    · rw [hn]
      trivial
  | flushes _ _ hn _ =>
    obtain ⟨_, _, _, hn, -⟩ := hn
    exact (h.idle (by rw [hn]; trivial)).quiet (.inl (by rw [hn]; rfl))
  | @waits _ _ _ _ _ after _ hs hn _ ha | @hands _ _ _ _ after _ hs hn _ ha =>
    rw [hs] at hfresh
    refine .quiet ⟨h.tries_le, h.asks_le, ?_, ?_⟩ (.inl (by rw [hn]; rfl))
    · rw [hn, ha.splitter]
      cases after <;> exact hfresh
    · rw [hn]
      trivial

/-- **A session tries to ask for no window more often than its retry policy says, and each attempt
asks at most once.** -/
theorem Path.metered {job : Job} {wall : UInt64} {deeds : List Deed}
    (h : Path c (Session.start job wall now) deeds s) :
    Metered (max 1 job.settings.queryRetry.maxAttempts) (fun v => deeds.countP (Deed.tries v))
      (fun v => deeds.countP (Deed.asks v)) s := by
  induction h with
  | start => exact metered_start _ job wall now
  | step hp ho world ih =>
    obtain ⟨_, -, hcomes⟩ := comes_step ho c world
    obtain ⟨wire, -, hon⟩ := hp.on (on_start job wall now)
    simp only [List.countP_append]
    refine ih.comes ?_ ⟨wire, hon⟩ hcomes
    rw [settings, hp.job]
    rfl

end Session

end Harvest
