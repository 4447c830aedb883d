import Harvest.Proofs.Retry.Loop
import Harvest.Proofs.Session.Calls
import Harvest.Proofs.Session.Completeness
import Mathlib.Algebra.Order.BigOperators.Group.Finset
import Mathlib.Data.Finset.Card

/-! What a session retries. Its retries are the attempts to ask for a window beyond the first, so
all attempts together are the retries and the windows that were tried. What a relay has refused is
not tried again, and a sink that is closed ends the session. -/

namespace Harvest

def Deed.tried? : Deed → Option Window
  | tried w _ => some w
  | _ => none

/-- The windows that were asked for, once for each attempt. -/
def Deed.attempts (deeds : List Deed) : List Window := deeds.filterMap Deed.tried?

/-- The retries for the window in hand so far. They are counted when its attempts are over. -/
def Stage.retries : Stage → Nat
  | connecting _ n .. | pacing _ n _ | querying _ n .. => n
  | resting _ n _ => n - 1
  | _ => 0

/-- The batch that is with the sink, and how the sink will refuse it at once, if it will. -/
def Stage.withSink? : Stage → Option (Batch × Option SinkFault)
  | storing b _ _ _ refusal => some (b, refusal)
  | _ => none

theorem Stage.of_withSink? {stage : Stage} {b : Batch} {refusal : Option SinkFault}
    (h : stage.withSink? = some (b, refusal)) :
    ∃ retries after due, stage = .storing b retries after due refusal := by
  cases stage with
  | storing b' retries after due refusal' =>
    obtain ⟨rfl, rfl⟩ := Prod.mk.inj (Option.some.inj h)
    exact ⟨retries, after, due, rfl⟩
  | _ => cases h

theorem Deed.attempts_append (deeds more : List Deed) :
    attempts (deeds ++ more) = attempts deeds ++ attempts more := List.filterMap_append ..

theorem Deed.mem_attempts {deeds : List Deed} {w : Window} :
    w ∈ attempts deeds ↔ 0 < deeds.countP (Deed.tries w) := by
  rw [attempts, List.mem_filterMap, List.countP_pos_iff]
  refine exists_congr fun deed => and_congr_right fun _ => ?_
  cases deed <;> simp [tried?, tries]

namespace Session

variable {c : Control} {s next : Session} {now : Nat} {w : Window} {deeds : List Deed}

/-! ## What a move tries -/

theorem attempts_deeds (s next : Session) :
    Deed.attempts (s.deeds next) =
      match next.stage with
      | .connecting w .. => [w]
      | .pacing w .. => if s.connected then [w] else []
      | _ => [] := by
  have hreleased : Deed.attempts (if s.connected && !next.connected then [.released] else []) =
      [] := by
    split <;> rfl
  rw [deeds, Deed.attempts_append, hreleased, List.nil_append]
  cases next.stage with
  | pacing => cases s.connected <;> rfl
  | _ => rfl

theorem Tries.attempts {retries : Nat} (h : s.Tries now next w retries) :
    Deed.attempts (s.deeds next) = [w] ∧ next.stage.retries = retries := by
  rw [attempts_deeds]
  cases h with
  | paced hn _ hc =>
    rw [hn, hc]
    exact ⟨rfl, rfl⟩
  | dialled hn =>
    rw [hn]
    exact ⟨rfl, rfl⟩

theorem Stores.attempts {after : After} {events : List Event} (h : next.Stores now after events) :
    Deed.attempts (s.deeds next) = [] ∧ next.stage.retries = 0 := by
  obtain ⟨_, _, _, hn, -⟩ := h
  rw [attempts_deeds, hn]
  exact ⟨rfl, rfl⟩

theorem Stops.attempts {reason : AbandonReason} {g : Standing} (h : s.Stops now reason g next) :
    Deed.attempts (s.deeds next) = [] ∧ next.stage.retries = 0 ∧
      next.stats.retries = g.retries := by
  rw [attempts_deeds]
  cases h with
  | ended hn hg | salvaging hn _ _ _ _ hg =>
    rw [hn]
    exact ⟨rfl, rfl, congrArg Standing.retries hg⟩

theorem Faults.retries {retries : Nat} {fault : LinkFault} (h : s.Faults w retries now fault) :
    s.stage.retries = retries := by
  rcases h with hs | hs <;> rw [hs] <;> rfl

/-! ## The count of retries -/

/-- The attempts so far are the retries, counted or not yet, and one for each window. -/
def Tallies (deeds : List Deed) (s : Session) : Prop :=
  (Deed.attempts deeds).length =
    s.stats.retries + (Deed.attempts deeds).toFinset.card + s.stage.retries

/-- The retries for the window in hand are counted when its reply is there. -/
theorem Resumes.retries {g : Standing} (h : s.Resumes g) :
    g.retries = s.stats.retries + s.stage.retries := by
  cases h with
  | ready hs =>
    rw [hs]
    rfl
  | resolved hd =>
    cases hd with
    | reply hs | stored hs =>
      simp only [Standing.resolve, Standing.look, advised, hs]
      rfl

theorem Tallies.quiet (h : s.Tallies deeds) (hd : Deed.attempts (s.deeds next) = [])
    (hn : next.stats.retries + next.stage.retries = s.stats.retries + s.stage.retries) :
    next.Tallies (deeds ++ s.deeds next) := by
  rw [Tallies] at h ⊢
  rw [Deed.attempts_append, hd, List.append_nil]
  omega

/-- One more attempt: the first one for its window, or a retry. -/
theorem Tallies.tried (h : s.Tallies deeds) {retries : Nat} (ht : s.Tries now next w retries)
    (hn : next.stats.retries + (retries - 1) = s.stats.retries + s.stage.retries)
    (hw : w ∈ Deed.attempts deeds ↔ 0 < retries) : next.Tallies (deeds ++ s.deeds next) := by
  obtain ⟨hd, hretries⟩ := ht.attempts
  rw [Tallies] at h ⊢
  rw [Deed.attempts_append, hd, List.length_append, List.length_singleton, List.toFinset_append,
    hretries]
  by_cases hmem : w ∈ Deed.attempts deeds
  · have hcard : (Deed.attempts deeds).toFinset ∪ [w].toFinset =
        (Deed.attempts deeds).toFinset := by simp [hmem]
    have := hw.mp hmem
    rw [hcard]
    omega
  · have hcard : ((Deed.attempts deeds).toFinset ∪ [w].toFinset).card =
        (Deed.attempts deeds).toFinset.card + 1 := by
      rw [Finset.card_union_of_disjoint (by simpa using hmem)]
      rfl
    have hzero : retries = 0 := Nat.eq_zero_of_not_pos fun hpos => hmem (hw.mpr hpos)
    rw [hcard]
    omega

/-- It was not cut off, and was not torn down. -/
def Uncut (s : Session) : Prop :=
  ¬s.AbandonedFor .budgetExceeded ∧ ¬s.AbandonedFor .cancelled ∧ ∀ at_, s.stage ≠ .crashed at_

theorem AtWork.uncut (h : s.AtWork) : s.Uncut :=
  ⟨fun hr => hr.not_atWork h, fun hr => hr.not_atWork h, fun _ => h.not_crashed⟩

/-- What a session at work comes to when it goes on: it retries, tries something new, or makes no
attempt. -/
theorem Goes.tallies {shutdown : Bool} {limit : Nat} (h : s.Goes shutdown now next)
    (ht : s.Tallies deeds) (hu : next.Uncut)
    (hm : Metered limit (fun v => deeds.countP (Deed.tries v))
      (fun v => deeds.countP (Deed.asks v)) s)
    (hon : ∃ wire, s.On wire) : next.Tallies (deeds ++ s.deeds next) := by
  have retries {g : Standing} (hg : next.standing = g) : next.stats.retries = g.retries :=
    congrArg Standing.retries hg
  cases h with
  | asks hs hn _ hg | waits hs _ hn _ hg | hands hs hn _ hg =>
    refine ht.quiet (by rw [attempts_deeds, hn]) ?_
    rw [hn, hs, retries hg]
    rfl
  | opens hs hn _ hg =>
    obtain ⟨wire, hopen, hdown⟩ := hon
    rw [hs] at hdown
    have hc : s.connected = false := by
      rw [← hopen, hdown]
      rfl
    refine ht.quiet (by rw [attempts_deeds, hn, hc]; rfl) ?_
    rw [hn, hs, retries hg]
    rfl
  | crashes _ hn => exact absurd hn (hu.2.2 _)
  | rests hf _ _ hn _ hg =>
    refine ht.quiet (by rw [attempts_deeds, hn]) ?_
    rw [hn, hf.retries, retries hg]
    rfl
  | @retries w n hs hn hg =>
    have hcount := hm.count
    rw [hs] at hcount
    refine ht.tried hn ?_ ?_
    · rw [hs, retries hg]
      rfl
    · rw [Deed.mem_attempts, hcount.1]
  | fails hf hn =>
    obtain ⟨hd, hzero, hretries⟩ := hn.attempts (s := s)
    refine ht.quiet hd ?_
    rw [hzero, hretries, hf.retries]
    rfl
  | heeds hf _ _ hn =>
    obtain ⟨hd, hzero, hretries⟩ := hn.attempts (s := s)
    refine ht.quiet hd ?_
    rw [hzero, hretries, ← hf.retries]
    rfl
  | @takes g w rest hf hw _ hn hg =>
    have hfresh := hm.frees hf.frees
    rw [(Splitter.next_eq_some hw).1] at hfresh
    refine ht.tried hn ?_ ?_
    · rw [retries hg]
      exact hf.retries
    · rw [Deed.mem_attempts]
      exact iff_of_false (hfresh.not_taken (List.mem_cons_self ..)) (Nat.lt_irrefl 0)
  | fills hf hn hg =>
    obtain ⟨hd, hzero⟩ := hn.attempts (s := s)
    refine ht.quiet hd ?_
    rw [hzero, retries hg]
    exact (Resumes.resolved hf).retries
  | flushes hf _ hn hg =>
    obtain ⟨hd, hzero⟩ := hn.attempts (s := s)
    refine ht.quiet hd ?_
    rw [hzero, retries hg, ← hf.retries]
    rfl
  | drains hf _ _ hn hg =>
    refine ht.quiet (by rw [attempts_deeds, hn]) ?_
    rw [hn, retries hg, ← hf.retries]
    rfl
  | finishes hs hn hg =>
    refine ht.quiet (by rw [attempts_deeds, hn]) ?_
    rw [hn, retries hg, advised, hs]
    rfl
  | refused hs hn hg =>
    refine ht.quiet (by rw [attempts_deeds, hn]) ?_
    rw [hn, hs, retries hg]
    rfl

theorem Turn.tallies {limit : Nat} (h : s.Turn c now next) (ht : s.Uncut → s.Tallies deeds)
    (hm : Metered limit (fun v => deeds.countP (Deed.tries v))
      (fun v => deeds.countP (Deed.asks v)) s)
    (hon : ∃ wire, s.On wire) (hu : next.Uncut) : next.Tallies (deeds ++ s.deeds next) := by
  cases h with
  | cut ha hc hn =>
    rcases reason_of_cutOff? ha hc with rfl | rfl
    · exact absurd hn.abandonedFor hu.1
    · exact absurd hn.abandonedFor hu.2.1
  | @left b reason due delivered heeds hs _ hn hg =>
    have huncut : s.Uncut := by
      obtain ⟨hbudget, hcancel, -⟩ := hu
      rw [AbandonedFor, hn] at hbudget hcancel
      refine ⟨?_, ?_, fun at_ he => by rw [hs] at he; cases he⟩ <;> rw [AbandonedFor, hs]
      · exact fun he => hbudget (congrArg _ he)
      · exact fun he => hcancel (congrArg _ he)
    have hretries : next.stats.retries = s.stats.retries := congrArg Standing.retries hg
    refine (ht huncut).quiet (by rw [attempts_deeds, hn]) ?_
    rw [hn, hs, hretries]
    rfl
  | goes ha _ hgoes => exact hgoes.tallies (ht ha.uncut) hu hm hon

/-- **The attempts of a session that was not cut off are its retries and one for each window.** -/
theorem Path.tallies {job : Job} {wall : UInt64} (h : Path c (Session.start job wall now) deeds s) :
    s.Uncut → s.Tallies deeds := by
  induction h with
  | start => exact fun _ => rfl
  | step hp ho world ih =>
    obtain ⟨_, -, hturn⟩ := turn_step ho c world
    obtain ⟨wire, -, hon⟩ := hp.on (on_start job wall now)
    exact hturn.tallies ih hp.metered ⟨wire, hon⟩

/-! ## What is not tried again -/

/-- Who is not at work any more begins no attempt. -/
theorem Path.idle {first : Session} {more : List Deed} (h : Path c first more s)
    (hf : ¬first.AtWork) : ¬s.AtWork ∧ Deed.attempts more = [] := by
  induction h with
  | start => exact ⟨hf, rfl⟩
  | @step more s hp ho world ih =>
    obtain ⟨hn, hnone⟩ := ih
    obtain ⟨now, -, hturn⟩ := turn_step ho c world
    cases hturn with
    | cut ha => exact absurd ha hn
    | goes ha => exact absurd ha hn
    | left _ _ he =>
      refine ⟨fun ha => absurd he ha.not_ended, ?_⟩
      rw [Deed.attempts_append, hnone, attempts_deeds, he]
      rfl

/-- What is done from a moment on is done in the first move or after it. -/
theorem Path.unfold {first : Session} {more : List Deed} (h : Path c first more s) :
    more = [] ∨ first.isOver = false ∧ ∃ world rest,
      more = first.deeds (first.step c world).2 ++ rest ∧
        Path c (first.step c world).2 rest s := by
  suffices hs : (s = first ∧ more = []) ∨ first.isOver = false ∧ ∃ world rest,
      more = first.deeds (first.step c world).2 ++ rest ∧ Path c (first.step c world).2 rest s from
    hs.imp_left And.right
  induction h with
  | start => exact .inl ⟨rfl, rfl⟩
  | @step more s hp ho world ih =>
    right
    rcases ih with ⟨rfl, rfl⟩ | ⟨hf, world', rest, rfl, hrest⟩
    · exact ⟨ho, world, [], by rw [List.append_nil, List.nil_append], .start⟩
    · exact ⟨hf, world', _, List.append_assoc .., hrest.step ho world⟩

theorem Faults.unique {retries : Nat} {fault : LinkFault} (h : s.Faults w retries now fault)
    {w' : Window} {retries' now' : Nat} {fault' : LinkFault}
    (h' : s.Faults w' retries' now' fault') : fault = fault' := by
  rcases h with hs | hs <;> rcases h' with hs' | hs' <;> rw [hs] at hs' <;> cases hs' <;> rfl

/-- After a fault that would only come again the session gives up. -/
theorem Faults.stops {shutdown : Bool} {retries due : Nat} {fault : LinkFault}
    (hf : s.Faults w retries due fault) (ht : fault.isTransient = false)
    (h : s.Goes shutdown now next) : ∃ reason g, s.Stops now reason g next := by
  have digests {v : Window} {received : Nat} {oldest : Option Nat} {items : List Json}
      {delivered : Nat} (hd : s.Digests v received oldest items delivered) : False := by
    rcases hf with hs | hs <;> cases hd <;> simp_all
  have resumes {g : Standing} (hr : s.Resumes g) : False := by
    cases hr with
    | ready hs' => rcases hf with hs | hs <;> simp_all
    | resolved hd => exact digests hd
  cases h with
  | fails _ hn => exact ⟨_, _, hn⟩
  | rests hf' ht' =>
    obtain rfl := hf.unique hf'
    rw [ht] at ht'
    cases ht'
  | heeds hr | takes hr | flushes hr | drains hr => exact (resumes hr).elim
  | fills hd => exact (digests hd).elim
  | asks hs' | opens hs' | crashes hs' | retries hs' | finishes hs' | waits hs' | hands hs'
  | refused hs' => rcases hf with hs | hs <;> rw [hs] at hs' <;> cases hs'

/-- **A fault that would only come again is the end of all attempts.** -/
theorem Path.of_faults {last : Session} {more : List Deed} (h : Path c s more last)
    {retries due : Nat} {fault : LinkFault} (hf : s.Faults w retries due fault)
    (ht : fault.isTransient = false) : Deed.attempts more = [] := by
  rcases h.unfold with rfl | ⟨ho, world, rest, rfl, hrest⟩
  · rfl
  · obtain ⟨now, -, hturn⟩ := turn_step ho c world
    obtain ⟨reason, g, hstops⟩ : ∃ reason g, s.Stops now reason g (s.step c world).2 := by
      cases hturn with
      | cut _ _ hn => exact ⟨_, _, hn⟩
      | left hs' => rcases hf with hs | hs <;> rw [hs] at hs' <;> cases hs'
      | goes _ _ hgoes => exact hf.stops ht hgoes
    rw [Deed.attempts_append, (hstops.attempts (s := s)).1,
      (hrest.idle hstops.abandonedFor.not_atWork).2]
    rfl

/-- While a batch is with the sink, or rests, no events are pending besides. -/
def Handed (s : Session) : Prop :=
  match s.stage with
  | .storing .. | .storeResting .. => s.pending = []
  | _ => True

theorem Goes.handed {shutdown : Bool} (h : s.Goes shutdown now next) (hs : s.Handed) :
    next.Handed := by
  have stores {after : After} {events : List Event} (hn : next.Stores now after events)
      (hp : next.pending = []) : next.Handed := by
    obtain ⟨_, _, _, hn, -⟩ := hn
    rw [Handed, hn]
    exact hp
  have tries {retries : Nat} {v : Window} (hn : s.Tries now next v retries) : next.Handed := by
    rw [Handed]
    cases hn with
    | paced hn | dialled hn => rw [hn]; trivial
  cases h with
  | fills _ hn hg | flushes _ _ hn hg => exact stores hn (congrArg Standing.pending hg)
  | waits hs' _ hn _ hg | hands hs' hn _ hg =>
    rw [Handed, hs'] at hs
    rw [Handed, hn]
    exact (congrArg Standing.pending hg).trans hs
  | retries _ hn | takes _ _ _ hn => exact tries hn
  | fails _ hn | heeds _ _ _ hn =>
    rw [Handed]
    cases hn with
    | ended hn | salvaging hn => rw [hn]; trivial
  | asks _ hn | opens _ hn | crashes _ hn | rests _ _ _ hn | drains _ _ _ hn | finishes _ hn
  | refused _ hn => rw [Handed, hn]; trivial

theorem Path.handed {job : Job} {wall : UInt64} (h : Path c (Session.start job wall now) deeds s) :
    s.Handed := by
  induction h with
  | start => trivial
  | step _ ho world ih =>
    obtain ⟨_, -, hturn⟩ := turn_step ho c world
    cases hturn with
    | cut _ _ hn =>
      rw [Handed]
      cases hn with
      | ended hn | salvaging hn => rw [hn]; trivial
    | left _ _ hn => rw [Handed, hn]; trivial
    | goes _ _ hgoes => exact hgoes.handed ih

theorem settle_of_closed {b : Batch} {refusal : Option SinkFault} {world : World}
    (ht : (world.take b refusal).2 = .error .closed) (s : Session) (retries : Nat) (after : After)
    (shutdown : Bool) (now : Nat) :
    (s.settle b retries after refusal shutdown now world).2.stage =
      .ended (.sinkFailed .closed) now := by
  unfold settle
  split
  · rename_i h
    rw [h] at ht
    cases ht
  · rename_i h
    rw [h] at ht
    obtain rfl := Except.error.inj ht
    rfl

/-- **A session ends where the sink says that it is closed**: nothing else is to be handed over. -/
theorem step_of_closed {b : Batch} {refusal : Option SinkFault} {world : World}
    (hb : s.stage.withSink? = some (b, refusal)) (hh : s.Handed) (c : Control)
    (ht : (world.take b refusal).2 = .error .closed) :
    ∃ outcome at_, (s.step c world).2.stage = .ended outcome at_ := by
  obtain ⟨retries, after, due, hs⟩ := Stage.of_withSink? hb
  rw [Handed, hs] at hh
  have hp : s.pending = [] := hh
  have hgoes (shutdown : Bool) :
      ∃ outcome at_, (s.proceed shutdown world).2.stage = .ended outcome at_ := by
    rw [proceed, hs]
    exact ⟨_, _, settle_of_closed ht s retries after shutdown due⟩
  have hcut (reason : AbandonReason) (t : Nat) :
      ∃ outcome at_, (s.interrupt reason t world).2.stage = .ended outcome at_ := by
    rw [interrupt, hs]
    simp only [abandon, hp, or_true, if_true]
    exact ⟨_, _, rfl⟩
  unfold step
  split
  · split
    · exact hcut _ _
    · exact hgoes _
  · exact hgoes _
  · rename_i hd
    rw [hs] at hd
    cases hd

/-! ## Whole sessions -/

theorem Path.run {first : Session} (h : Path c first deeds s) (world : World) :
    ∃ deeds, Path c first deeds (s.run c world).2 := by
  fun_induction Session.run c world s generalizing deeds with
  | case2 world s ho => exact ⟨deeds, h⟩
  | case1 world s ho ih => exact ih (h.step ho world)

theorem count_attempts (deeds : List Deed) (w : Window) :
    (Deed.attempts deeds).count w = deeds.countP (Deed.tries w) := by
  rw [Deed.attempts, List.count_filterMap]
  refine List.countP_congr fun deed _ => ?_
  cases deed <;> simp [Deed.tried?, Deed.tries]

/-- The attempt that comes to a fault is the last one so far. -/
theorem Path.count_of_faults {job : Job} {wall : UInt64} {start : Nat}
    (h : Path c (Session.start job wall start) deeds s) {retries due : Nat} {fault : LinkFault}
    (hf : s.Faults w retries due fault) : (Deed.attempts deeds).count w = retries + 1 := by
  have hcount := h.metered.count
  rw [count_attempts]
  rcases hf with hs | hs <;> rw [hs] at hcount
  · exact hcount.1
  · exact hcount

/-- Where no element occurs more than `n` times, the distinct ones bound them all. -/
theorem length_le_card_mul {α : Type} [DecidableEq α] {items : List α} {n : Nat}
    (h : ∀ a, items.count a ≤ n) : items.length ≤ items.toFinset.card * n :=
  calc items.length = ∑ a ∈ items.toFinset, items.count a :=
        (List.sum_toFinset_count_eq_length items).symm
    _ ≤ items.toFinset.card * n := Finset.sum_le_card_nsmul _ _ _ fun a _ => h a

/-- **Loops of attempts, and what they amount to in a session.** A loop makes its attempts up to the
first one that succeeds, fails for good or is the last one of its policy, with a pause before each
retry. A session goes on until it is over. No window is tried in it more often than its policy says;
what a relay has refused, or has answered against the protocol, is not tried again; where the sink
says that it is closed the session ends; and unless it was cut off, its attempts are its retries and
one for each window. So it has no more retries than the policy grants for all its windows together,
and where these are less than `2 ^ 32` a counter of 32 bits holds their number. -/
theorem retries_exact :
    (∀ (σ ε α : Type) (p : RetryPolicy) (transient : ε → Bool)
      (attempt : σ → Nat → σ × Except ε α) (s : σ),
      ∃ k, p.Ran transient (RetryPolicy.outcomeOf attempt s) k (p.runWith transient attempt s).2 ∧
        (p.runWith transient attempt s).1 = RetryPolicy.stateAfter attempt s (k + 1)) ∧
    (∀ (ε α : Type) (p : RetryPolicy) (transient : ε → Bool) (outcomes : Nat → Except ε α),
      ∃ k, p.Ran transient outcomes k (p.run transient outcomes) ∧
        p.runWith transient (RetryPolicy.noting outcomes) [] =
          (List.range (k + 1), p.run transient outcomes)) ∧
    (∀ (job : Job) (wall : UInt64) (now : Nat) (c : Control) (world : World),
      let last := ((Session.start job wall now).run c world).2
      (∃ deeds, Path c (Session.start job wall now) deeds last) ∧ last.isOver = true) ∧
    ∀ (job : Job) (wall : UInt64) (now : Nat) (c : Control) (deeds : List Deed) (s : Session),
      Path c (Session.start job wall now) deeds s →
        (∀ w, (Deed.attempts deeds).count w ≤ max 1 job.settings.queryRetry.maxAttempts) ∧
        (∀ w retries due text,
          s.Faults w retries due (.refused text) ∨ s.Faults w retries due (.protocol text) →
            (Deed.attempts deeds).count w = retries + 1 ∧
              ∀ more last, Path c s more last → Deed.attempts more = []) ∧
        (∀ b refusal world, s.stage.withSink? = some (b, refusal) →
          (World.take world b refusal).2 = .error .closed →
            ∃ outcome at_, (s.step c world).2.stage = .ended outcome at_) ∧
        ∀ r, s.report? = some r → r.outcome ≠ .abandoned .budgetExceeded →
          r.outcome ≠ .abandoned .cancelled →
            r.stats.retries + (Deed.attempts deeds).toFinset.card =
                (Deed.attempts deeds).length ∧
              r.stats.retries ≤ (Deed.attempts deeds).toFinset.card *
                (max 1 job.settings.queryRetry.maxAttempts - 1) := by
  refine ⟨fun σ ε α => RetryPolicy.ran_runWith, fun ε α => RetryPolicy.ran_run,
    fun job wall now c world => ⟨Path.start.run world, isOver_run ..⟩, ?_⟩
  intro job wall now c deeds s h
  have hlimit (w : Window) :
      (Deed.attempts deeds).count w ≤ max 1 job.settings.queryRetry.maxAttempts := by
    rw [count_attempts]
    exact h.metered.tries_le w
  refine ⟨hlimit, ?_, ?_, ?_⟩
  · rintro w retries due text (hf | hf)
    · exact ⟨h.count_of_faults hf, fun more last hm => hm.of_faults hf rfl⟩
    · exact ⟨h.count_of_faults hf, fun more last hm => hm.of_faults hf rfl⟩
  · intro b refusal world hb ht
    exact step_of_closed hb h.handed c ht
  · intro r hr hbudget hcancel
    obtain ⟨⟨at_, hs⟩, -⟩ := of_report? hr
    have huncut : s.Uncut := by
      refine ⟨?_, ?_, fun at_ he => by rw [hs] at he; cases he⟩ <;> rw [AbandonedFor, hs]
      · exact hbudget
      · exact hcancel
    have htallies := h.tallies huncut
    rw [Tallies, hs] at htallies
    have hretries : r.stats.retries = s.stats.retries := by rw [stats_of_report hr]
    have htries : s.stats.retries + (Deed.attempts deeds).toFinset.card =
        (Deed.attempts deeds).length := htallies.symm
    have hall := length_le_card_mul hlimit
    rw [hretries, Nat.mul_sub_one]
    exact ⟨htries, by omega⟩

theorem exists_path_repeat (c : Control) (world : World) (first : Session) (n : Nat) :
    ∃ deeds, Path c first deeds
      (Nat.repeat (fun state => state.2.step c state.1) n (world, first)).2 := by
  induction n with
  | zero => exact ⟨_, .start⟩
  | succ n ih =>
    obtain ⟨deeds, h⟩ := ih
    rw [Nat.repeat]
    generalize Nat.repeat (fun state => state.2.step c state.1) n (world, first) = state at h
    cases ho : state.2.isOver with
    | false => exact ⟨_, h.step ho state.1⟩
    | true =>
      rw [step_of_isOver ho]
      exact ⟨_, h⟩

/-- One relay cannot be reached at first, and what it then sends is for a sink that is closed.
Another one refuses. -/
theorem retries_exact_refused :
    let relay : Relay := { id := "relay" }
    let event : Event := { Event.build (Event.repeated "a1") 5 1 [] "x" with
      id := "7cb95dc45205407bb4c493f8ff38b0437cbfc4b817ab6533a08c1b36d33d4582" }
    let reply : Reply := { items := [event.toJson], garbled := 0, exhausted := true }
    let unstable : Script :=
      { connects := [{ value := .failed (.connect "relay" "refused") }]
        queries := [{ value := .ok reply }] }
    let world : World :=
      { network := { peers := [("relay", .scripted unstable)] }
        sink := { script := [{ refusal := some .closed }], depot := .memory {} } }
    let closed : World :=
      { network := { peers := [("relay", .unreachable (.refused "not here"))] }
        sink := { depot := .memory {} } }
    let job : Job := { relay, target := ⟨5, 9⟩, settings := Config.settings {} relay }
    let move := fun state : World × Session => state.2.step {} state.1
    let state := Nat.repeat move 6 (world, start job 0 0)
    let refused := (move (closed, start job 0 0)).2
    (∃ deeds r, Path {} (start job 0 0) deeds (move state).2 ∧ (move state).2.report? = some r ∧
      r.outcome = .sinkFailed .closed ∧ r.stats.retries = 1 ∧
      1 + (Deed.attempts deeds).toFinset.card = (Deed.attempts deeds).length ∧
      1 ≤ (Deed.attempts deeds).toFinset.card * 2 ∧ (Deed.attempts deeds).count ⟨5, 9⟩ ≤ 3) ∧
    (∃ b, state.2.stage.withSink? = some (b, some .closed) ∧
      ∃ outcome at_, (move state).2.stage = .ended outcome at_) ∧
    ∃ deeds, Path {} (start job 0 0) deeds refused ∧ (Deed.attempts deeds).count ⟨5, 9⟩ = 1 ∧
      ∀ more last, Path {} refused more last → Deed.attempts more = [] := by
  intro relay event reply unstable world closed job move state refused
  obtain ⟨-, -, -, hpaths⟩ := retries_exact
  have hmoves : ∃ now,
      Nat.repeat (fun state => state.2.step {} state.1) 6 (world, start job 0 0) = now ∧
        now.2.isOver = false ∧ now.2.stage.withSink?.map Prod.snd = some (some .closed) ∧
        ((now.2.step {} now.1).2.report?.map fun r => (r.outcome, r.stats.retries)) =
          some (.sinkFailed .closed, 1) := by
    refine ⟨_, rfl, ?_⟩
    clear refused closed state move
    revert relay event reply unstable world job
    decide +kernel
  obtain ⟨now, hstate, ho, hclosed, hreport⟩ := hmoves
  have hstate : state = now := hstate
  obtain ⟨deeds, hpath⟩ := exists_path_repeat {} world (start job 0 0) 6
  have hnow : Path {} (start job 0 0) deeds now.2 := by
    rw [← hstate]
    exact hpath
  rw [hstate]
  refine ⟨?_, ?_, ?_⟩
  · have hended := hnow.step ho now.1
    obtain ⟨r, hr, hvalues⟩ := Option.map_eq_some_iff.mp hreport
    obtain ⟨ho, hretries⟩ := Prod.mk.inj hvalues
    obtain ⟨hlimit, -, -, hcount⟩ := hpaths job 0 0 {} _ _ hended
    have hall := hcount r hr (by rw [ho]; simp) (by rw [ho]; simp)
    rw [hretries] at hall
    exact ⟨_, r, hended, hr, ho, hretries, hall.1, hall.2, hlimit ⟨5, 9⟩⟩
  · obtain ⟨-, -, hends, -⟩ := hpaths job 0 0 {} deeds now.2 hnow
    obtain ⟨⟨b, refusal⟩, hb, hrefusal⟩ := Option.map_eq_some_iff.mp hclosed
    obtain rfl : refusal = some .closed := hrefusal
    exact ⟨b, hb, hends b (some .closed) now.1 hb rfl⟩
  · have hstart : Path {} (start job 0 0) [] (start job 0 0) := .start
    have hrefused := hstart.step rfl closed
    obtain ⟨-, hlast, -, -⟩ := hpaths job 0 0 {} _ refused hrefused
    obtain ⟨hcount, hnone⟩ := hlast ⟨5, 9⟩ 0 0 "not here" (.inl (.inl rfl))
    exact ⟨_, hrefused, hcount, hnone⟩

end Session

end Harvest
