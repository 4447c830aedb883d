import Harvest.Proofs.Session.Calls

/-! A session that is asked to stop takes no window any more. What it still does is to ask for the
window in hand, if there is one, and to hand over what it has read. It ends drained only if nothing
is owed then and the sink has taken all of it. -/

namespace Harvest

/-- The batch that is with the sink, or will be again, and what comes after it. -/
def Stage.storing? : Stage → Option (Batch × After)
  | storing b _ after .. | storeResting b _ after _ => some (b, after)
  | _ => none

namespace Session

/-- What a session comes to if it takes no window any more and the sink takes all that it has read:
what it owes once the window in hand is resolved, and how many events the sink has taken by then.
The reply to a window that is asked for is one of those in `deeds`. -/
inductive Settles (deeds : List Deed) (s : Session) : Splitter → Nat → Prop
  | ready {due : Nat} (hs : s.stage = .ready due) :
      Settles deeds s s.splitter (s.stats.delivered + s.pending.length)
  | asking {w : Window} {reply : Reply} (hs : s.stage.asking? = some w)
      (hd : .asked w (.ok reply) ∈ deeds) :
      Settles deeds s (s.splitter.resolve w reply.received (oldestAfter w none reply.items)).2
        (s.stats.delivered + s.pending.length + (Event.among reply.items).length)
  | storing {b : Batch} {w : Window} {received : Nat} {oldest : Option Nat} {rest : List Json}
      (hs : s.stage.storing? = some (b, .reply w received oldest rest)) :
      Settles deeds s (s.splitter.resolve w received (oldestAfter w oldest rest)).2
        (s.stats.delivered + b.size + s.pending.length + (Event.among rest).length)
  | finishing {b : Batch} (hs : s.stage.storing? = some (b, .finish)) :
      Settles deeds s s.splitter (s.stats.delivered + b.size)
  | drained {at_ : Nat} (hs : s.stage = .ended .drained at_) :
      Settles deeds s s.splitter s.stats.delivered

variable {c : Control} {s next : Session} {now : Nat} {deeds : List Deed} {splitter : Splitter}
  {delivered : Nat}

theorem Quits.not_settles {reason : AbandonReason} (h : next.Quits now reason) :
    ¬ next.Settles deeds splitter delivered := by
  intro hn
  cases h <;> cases hn <;> simp_all [Stage.asking?, Stage.storing?]

theorem Settles.of_asking (h : s.Settles deeds splitter delivered) {w : Window}
    (hs : s.stage.asking? = some w) :
    ∃ reply, .asked w (.ok reply) ∈ deeds ∧
      splitter = (s.splitter.resolve w reply.received (oldestAfter w none reply.items)).2 ∧
      delivered = s.stats.delivered + s.pending.length + (Event.among reply.items).length := by
  cases h with
  | asking hs' hd =>
    obtain rfl := Option.some.inj (hs.symm.trans hs')
    exact ⟨_, hd, rfl, rfl⟩
  | ready hs' | drained hs' =>
    rw [hs'] at hs
    cases hs
  | storing hs' | finishing hs' => cases hg : s.stage <;> simp_all [Stage.asking?, Stage.storing?]

theorem Settles.of_storing (h : s.Settles deeds splitter delivered) {b : Batch} {w : Window}
    {received : Nat} {oldest : Option Nat} {rest : List Json}
    (hs : s.stage.storing? = some (b, .reply w received oldest rest)) :
    splitter = (s.splitter.resolve w received (oldestAfter w oldest rest)).2 ∧
      delivered = s.stats.delivered + b.size + s.pending.length + (Event.among rest).length := by
  cases h with
  | storing hs' =>
    obtain ⟨rfl, he⟩ := Prod.mk.inj (Option.some.inj (hs.symm.trans hs'))
    obtain ⟨rfl, rfl, rfl, rfl⟩ := After.reply.inj he
    exact ⟨rfl, rfl⟩
  | finishing hs' => simp [hs] at hs'
  | ready hs' | drained hs' => simp [hs', Stage.storing?] at hs
  | asking hs' => cases hg : s.stage <;> simp_all [Stage.asking?, Stage.storing?]

theorem Settles.of_finishing (h : s.Settles deeds splitter delivered) {b : Batch}
    (hs : s.stage.storing? = some (b, .finish)) :
    splitter = s.splitter ∧ delivered = s.stats.delivered + b.size := by
  cases h with
  | finishing hs' =>
    obtain ⟨rfl, -⟩ := Prod.mk.inj (Option.some.inj (hs.symm.trans hs'))
    exact ⟨rfl, rfl⟩
  | storing hs' => simp [hs] at hs'
  | ready hs' | drained hs' => simp [hs', Stage.storing?] at hs
  | asking hs' => cases hg : s.stage <;> simp_all [Stage.asking?, Stage.storing?]

/-- A window that is still asked for comes to the same. -/
theorem Settles.asked (h : next.Settles deeds splitter delivered) {w : Window}
    (hn : next.stage.asking? = some w) (hs : s.stage.asking? = some w) (ha : s.Alike next) :
    s.Settles deeds splitter delivered := by
  obtain ⟨reply, hd, rfl, rfl⟩ := h.of_asking hn
  rw [ha.splitter, ha.pending, ha.delivered]
  exact .asking hs hd

/-- A batch that is handed over again comes to the same. -/
theorem Settles.stored (h : next.Settles deeds splitter delivered) {b : Batch} {after : After}
    (hn : next.stage.storing? = some (b, after)) (hs : s.stage.storing? = some (b, after))
    (ha : s.Alike next) : s.Settles deeds splitter delivered := by
  cases after with
  | reply =>
    obtain ⟨rfl, rfl⟩ := h.of_storing hn
    rw [ha.splitter, ha.pending, ha.delivered]
    exact .storing hs
  | finish =>
    obtain ⟨rfl, rfl⟩ := h.of_finishing hn
    rw [ha.splitter, ha.delivered]
    exact .finishing hs

/-- What a session comes to after a reply, it comes to where it is about to look at the reply. -/
theorem Digests.settles {w : Window} {received : Nat} {oldest : Option Nat} {items : List Json}
    (h : s.Digests w received oldest items delivered)
    (ha : ∀ w retries due answer, s.stage = .querying w retries due answer →
      .asked w answer ∈ deeds) :
    s.Settles deeds (s.splitter.resolve w received (oldestAfter w oldest items)).2
      (delivered + s.pending.length + (Event.among items).length) := by
  cases h with
  | reply hs => exact .asking (by rw [hs]; rfl) (ha _ _ _ _ hs)
  | stored hs => exact .storing (by rw [hs]; rfl)

theorem Frees.settles {pending : List Event} (h : s.Frees splitter pending delivered)
    (ha : ∀ w retries due answer, s.stage = .querying w retries due answer →
      .asked w answer ∈ deeds) :
    s.Settles deeds splitter (delivered + pending.length) := by
  cases h with
  | ready hs => exact .ready hs
  | resolved hd =>
    rw [List.length_append, ← Nat.add_assoc]
    exact hd.settles ha

/-- **What a session comes to after a move, it comes to before the move**, if it takes no window. -/
theorem Comes.settles (h : s.Comes c now next) (hc : c.isShutDown now = true)
    (ha : ∀ w retries due answer, s.stage = .querying w retries due answer →
      .asked w answer ∈ deeds)
    (hn : next.Settles deeds splitter delivered) : s.Settles deeds splitter delivered := by
  cases h with
  | cut _ _ hq => exact absurd hn hq.not_settles
  | fails _ hq => exact absurd hn hq.not_settles
  | heeds _ _ _ hq => exact absurd hn hq.not_settles
  | left _ he | crashes _ he | refused _ he =>
    cases hn <;> simp_all [Stage.asking?, Stage.storing?]
  | asks hs he _ halike | opens hs he _ halike =>
    exact hn.asked (by rw [he]; rfl) (by rw [hs]; rfl) halike
  | rests hs he _ _ halike =>
    refine hn.asked (by rw [he]; rfl) ?_ halike
    rcases hs with ⟨_, _, hs⟩ | ⟨_, _, hs⟩ <;> rw [hs] <;> rfl
  | @retries w _ _ hs he halike =>
    refine hn.asked (w := w) ?_ (by rw [hs]; rfl) halike
    cases he with
    | paced he | dialled he => rw [he]; rfl
  | takes _ _ hopen =>
    rw [hc] at hopen
    cases hopen
  | @fills w received oldest front rest _ hf he hcarries =>
    obtain ⟨b, _, _, he, hb, -⟩ := he
    obtain ⟨rfl, rfl⟩ := hn.of_storing (by rw [he]; rfl)
    rw [hcarries.splitter, hcarries.pending, hcarries.delivered, Batch.size, hb,
      ← oldestAfter_append]
    have hsettles := hf.settles ha
    rw [Event.among_append, List.length_append] at hsettles
    simpa [Nat.add_assoc] using hsettles
  | flushes hf _ he hcarries =>
    obtain ⟨b, _, _, he, hb, -⟩ := he
    obtain ⟨rfl, rfl⟩ := hn.of_finishing (by rw [he]; rfl)
    rw [hcarries.splitter, hcarries.delivered, Batch.size, hb]
    exact hf.settles ha
  | drains hf _ he hcarries =>
    cases hn with
    | drained =>
      rw [hcarries.splitter, hcarries.delivered]
      exact hf.settles ha
    | _ => simp_all [Stage.asking?, Stage.storing?]
  | finishes hs he hcarries =>
    cases hn with
    | drained =>
      rw [hcarries.splitter, hcarries.delivered]
      exact .finishing (by rw [hs]; rfl)
    | _ => simp_all [Stage.asking?, Stage.storing?]
  | waits hs he _ halike | hands hs he _ halike =>
    exact hn.stored (by rw [he]; rfl) (by rw [hs]; rfl) halike

/-- Whoever hands over the last batch owes nothing any more. -/
def Sealed (s : Session) : Prop :=
  match s.stage with
  | .storing _ _ .finish .. | .storeResting _ _ .finish _ | .ended .drained _ =>
    s.splitter.stack.pending = []
  | _ => True

theorem Comes.sealed (h : s.Comes c now next) (hs : s.Sealed) : next.Sealed := by
  rw [Sealed] at hs ⊢
  have quits {reason : AbandonReason} (hq : next.Quits now reason) : next.Sealed := by
    rw [Sealed]
    cases hq with
    | ended hn | salvaging hn => rw [hn]; trivial
  cases h with
  | cut _ _ hq => exact quits hq
  | fails _ hq => exact quits hq
  | heeds _ _ _ hq => exact quits hq
  | left _ hn | crashes _ hn | refused _ hn | asks _ hn | opens _ hn | rests _ hn =>
    rw [hn]
    trivial
  | retries _ hn | takes _ _ _ hn =>
    cases hn with
    | paced hn | dialled hn => rw [hn]; trivial
  | fills _ hn _ =>
    obtain ⟨_, _, _, hn, -⟩ := hn
    rw [hn]
    trivial
  | flushes _ hw hn ha =>
    obtain ⟨_, _, _, hn, -⟩ := hn
    rw [hn, ha.splitter]
    exact Splitter.next_eq_none_iff.mp hw
  | drains _ hw hn ha =>
    rw [hn, ha.splitter]
    exact Splitter.next_eq_none_iff.mp hw
  | finishes hg hn ha =>
    rw [hg] at hs
    rw [hn, ha.splitter]
    exact hs
  | @waits _ _ _ _ _ after _ hg hn _ ha | @hands _ _ _ _ after _ hg hn _ ha =>
    rw [hg] at hs
    rw [hn, ha.splitter]
    cases after <;> exact hs

/-- Whoever takes no window asks for the one in hand or for none. -/
theorem Comes.asking (h : s.Comes c now next) (hc : c.isShutDown now = true) {w : Window}
    (hn : next.stage.asking? = some w) : s.stage.asking? = some w := by
  have quits {reason : AbandonReason} (hq : next.Quits now reason) : s.stage.asking? = some w := by
    cases hq with
    | ended he | salvaging he =>
      rw [he] at hn
      cases hn
  cases h with
  | cut _ _ hq => exact quits hq
  | fails _ hq => exact quits hq
  | heeds _ _ _ hq => exact quits hq
  | takes _ _ hopen =>
    rw [hc] at hopen
    cases hopen
  | asks hs he | opens hs he =>
    rw [he] at hn
    rw [hs]
    exact hn
  | rests hs he =>
    rw [he] at hn
    rcases hs with ⟨_, _, hs⟩ | ⟨_, _, hs⟩ <;> rw [hs] <;> exact hn
  | retries hs he =>
    rw [hs]
    cases he with
    | paced he | dialled he => rw [he] at hn; exact hn
  | fills _ he | flushes _ _ he =>
    obtain ⟨_, _, _, he, -⟩ := he
    rw [he] at hn
    cases hn
  | left _ he | crashes _ he | refused _ he | drains _ _ he | finishes _ he | waits _ he
  | hands _ he =>
    rw [he] at hn
    cases hn

/-- What a session does after it was asked to stop, and whether it may report to be drained. -/
structure WindsDown (s : Session) (limit : Nat) (before after : List Deed)
    (report : Option Report) : Prop where
  /-- It calls its relay for nothing but the window in hand. -/
  calls : ∀ deed ∈ after, ∀ w, deed.window? = some w → s.stage.asking? = some w
  attempts : ∀ w, (before ++ after).countP (Deed.tries w) ≤ limit ∧
    (before ++ after).countP (Deed.asks w) ≤ limit
  /-- It is drained only if nothing is owed then, and the sink has taken all that it has read. -/
  drained : ∀ r, report = some r → r.outcome = .drained →
    ∃ splitter, s.Settles (before ++ after) splitter r.stats.delivered ∧
      splitter.stack.pending = []

namespace Path

variable {first : Session} {instant : Nat}

theorem append {more : List Deed} (h : Path c first deeds s) (h' : Path c s more next) :
    Path c first (deeds ++ more) next := by
  induction h' with
  | start => rwa [List.append_nil]
  | step _ ho world ih =>
    rw [← List.append_assoc]
    exact ih.step ho world

/-- No move comes before the first. -/
theorem since (h : Path c first deeds s) (hf : ∀ due, first.due? c = some due → instant ≤ due)
    {due : Nat} (hd : s.due? c = some due) : instant ≤ due := by
  induction h generalizing due with
  | start => exact hf due hd
  | step _ ho world ih =>
    obtain ⟨now, hnow, -⟩ := comes_step ho c world
    exact Nat.le_trans (ih hnow) (due_le_due hnow world hd)

theorem isShutDown (h : Path c first deeds s) (hc : c.shutdownAt = some instant)
    (hf : ∀ due, first.due? c = some due → instant ≤ due) {due : Nat} (hd : s.due? c = some due) :
    c.isShutDown due = true := by
  rw [Control.isShutDown, hc]
  exact decide_eq_true (h.since hf hd)

/-- What was asked is among the deeds. -/
theorem asked (h : Path c first deeds s)
    (hf : ∀ w retries due answer, first.stage ≠ .querying w retries due answer) {w : Window}
    {retries due : Nat} {answer : Except LinkFault Reply}
    (hs : s.stage = .querying w retries due answer) : .asked w answer ∈ deeds := by
  cases h with
  | start => exact absurd hs (hf _ _ _ _)
  | step => exact List.mem_append_right _ (asked_mem_deeds _ hs)

theorem sealed (h : Path c first deeds s) (hf : first.Sealed) : s.Sealed := by
  induction h with
  | start => exact hf
  | step _ ho world ih =>
    obtain ⟨_, -, hcomes⟩ := comes_step ho c world
    exact hcomes.sealed ih

theorem calls (h : Path c first deeds s) (hc : c.shutdownAt = some instant)
    (hf : ∀ due, first.due? c = some due → instant ≤ due) :
    (∀ w, s.stage.asking? = some w → first.stage.asking? = some w) ∧
      ∀ deed ∈ deeds, ∀ w, deed.window? = some w → first.stage.asking? = some w := by
  induction h with
  | start => exact ⟨fun _ hw => hw, fun _ hd => by cases hd⟩
  | step hp ho world ih =>
    obtain ⟨now, hnow, hcomes⟩ := comes_step ho c world
    have hdown := hp.isShutDown hc hf hnow
    refine ⟨fun w hw => ih.1 w (hcomes.asking hdown hw), fun deed hd w hw => ?_⟩
    rcases List.mem_append.mp hd with hd | hd
    · exact ih.2 deed hd w hw
    · exact ih.1 w (hcomes.asking hdown (asking?_of_mem_deeds hd hw))

/-- **A session that is asked to stop comes to what was foreseen when it was asked.** -/
theorem settles (h : Path c first deeds s) (hc : c.shutdownAt = some instant)
    (hf : ∀ due, first.due? c = some due → instant ≤ due) {all : List Deed}
    (hall : ∀ deed ∈ deeds, deed ∈ all)
    (ha : ∀ w retries due answer, first.stage = .querying w retries due answer →
      .asked w answer ∈ all)
    (hs : s.Settles all splitter delivered) : first.Settles all splitter delivered := by
  induction h with
  | start => exact hs
  | @step deeds s hp ho world ih =>
    obtain ⟨now, hnow, hcomes⟩ := comes_step ho c world
    have hdown := hp.isShutDown hc hf hnow
    have hsub : ∀ deed ∈ deeds, deed ∈ all := fun deed hd => hall deed (List.mem_append_left _ hd)
    refine ih hsub (hcomes.settles hdown ?_ hs)
    intro w retries due answer hq
    cases hp with
    | start => exact ha w retries due answer hq
    | step => exact hsub _ (List.mem_append_right _ (asked_mem_deeds _ hq))

end Path

/-- **Whatever a session is at when it is asked to stop, it winds down.** -/
theorem windsDown {job : Job} {wall : UInt64} {before after : List Deed} {instant : Nat}
    (h : Path c (start job wall now) before s) (h' : Path c s after next)
    (hc : c.shutdownAt = some instant) (hs : ∀ due, s.due? c = some due → instant ≤ due) :
    s.WindsDown (max 1 job.settings.queryRetry.maxAttempts) before after next.report? := by
  have hwhole := h.append h'
  refine ⟨(h'.calls hc hs).2, fun w => ?_, ?_⟩
  · have hmetered := hwhole.metered
    exact ⟨hmetered.tries_le w, Nat.le_trans (hmetered.asks_le w) (hmetered.tries_le w)⟩
  · intro r hr hd
    unfold report? at hr
    split at hr
    case h_2 => cases hr
    rename_i outcome at_ hstage
    obtain rfl := Option.some.inj hr
    obtain rfl : outcome = .drained := hd
    refine ⟨next.splitter, h'.settles hc hs ?_ ?_ (.drained hstage), ?_⟩
    · exact fun deed hd => List.mem_append_right _ hd
    · exact fun w retries due answer hq =>
        List.mem_append_left _ (h.asked (fun _ _ _ _ hn => by cases hn) hq)
    · have hsealed := hwhole.sealed (by trivial)
      rw [Sealed, hstage] at hsealed
      exact hsealed

end Session

end Harvest
