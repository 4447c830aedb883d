import Harvest.Proofs.Session.Completeness
import Harvest.Proofs.Session.Outcomes

/-! What becomes of the windows that a session owes. As long as it is at work its splitter, the
window in its hand and the replies so far are a course for its target. When it gives up, what is
owed then counts as abandoned: all that is pending, and the window in hand if an attempt to ask for
it has failed or it was not asked for because of a shutdown. A session that is cut off loses the
window in its hand: it counts neither as resolved nor as abandoned. -/

namespace Harvest

def After.window? : After → Option Window
  | reply w .. => some w
  | finish => none

/-- The window that was taken and had no complete reply yet. -/
def Stage.inHand : Stage → List Window
  | connecting w .. | pacing w .. | querying w .. | resting w .. => [w]
  | storing _ _ after .. | storeResting _ _ after _ => after.window?.toList
  | _ => []

namespace Session

/-- The reply to the window in hand as the splitter will be told of it: how many items, and the
oldest stamp. -/
def reply? (s : Session) : Option (Window × Nat × Option Nat) :=
  match s.stage with
  | .querying w _ _ (.ok reply) => some (w, reply.received, oldestAfter w none reply.items)
  | .storing _ _ (.reply w received oldest rest) .. =>
    some (w, received, oldestAfter w oldest rest)
  | _ => none

/-- The reply that the splitter was told of in a move, if it was told of one. -/
def answers (s next : Session) : List Harvest.Answered :=
  if next.splitter.resolved = s.splitter.resolved then []
  else s.reply?.toList.map fun (w, received, oldest) =>
    ⟨w, received, oldest, s.splitter.judge w received oldest⟩

/-- The window that is lost in the next move because the session is cut off. -/
def loses (s : Session) (c : Control) : List Window :=
  if (s.cutOff? c).map Prod.fst = s.due? c then s.stage.inHand else []

/-- What becomes of the windows of a session in whatever worlds the others leave for its moves: the
replies that its splitter was told of, the latest first, and the windows that it has lost. -/
inductive Resolves (c : Control) (first : Session) :
    List Harvest.Answered → List Window → Session → Prop
  | start : Resolves c first [] [] first
  | step {answered : List Harvest.Answered} {lost : List Window} {s : Session}
      (h : Resolves c first answered lost s) (ho : s.isOver = false) (world : World) :
      Resolves c first (s.answers (s.step c world).2 ++ answered) (s.loses c ++ lost)
        (s.step c world).2

/-- Where a session stands with its windows while it is at work. -/
structure Charts (answered : List Harvest.Answered) (s : Session) : Prop where
  course : Course.Reached s.job.target s.settings.resultCap s.settings.minWindow
    ⟨s.splitter, s.stage.inHand, answered⟩
  resolved : s.stats.resolved = answered.length
  abandoned : s.stats.abandoned = 0

/-- What a session has counted that gave up on its course for a reason. -/
structure GaveUp (answered : List Harvest.Answered) (lost : List Window) (reason : AbandonReason)
    (s : Session) : Prop where
  course : ∃ k : Course,
    Course.Reached s.job.target s.settings.resultCap s.settings.minWindow k ∧
      k.answered = answered ∧
      s.stats.abandoned + lost.length = k.splitter.stack.pending.length + k.hand.length
  resolved : s.stats.resolved = answered.length
  single : lost.length ≤ 1
  cut : lost ≠ [] → reason = .budgetExceeded ∨ reason = .cancelled

structure Charted (answered : List Harvest.Answered) (lost : List Window) (s : Session) : Prop where
  works : s.AtWork → s.Charts answered ∧ lost = []
  gaveUp : ∀ reason, s.AbandonedFor reason → s.GaveUp answered lost reason

/-! ## Single moves -/

variable {c : Control} {s next : Session} {now : Nat} {answered : List Harvest.Answered}
  {lost : List Window} {w : Window}

theorem answers_of_eq (h : next.splitter.resolved = s.splitter.resolved) : s.answers next = [] :=
  if_pos h

theorem Digests.reply? {received : Nat} {oldest : Option Nat} {items : List Json} {delivered : Nat}
    (h : s.Digests w received oldest items delivered) :
    s.reply? = some (w, received, oldestAfter w oldest items) ∧ s.stage.inHand = [w] := by
  rw [Session.reply?]
  cases h with
  | reply hs | stored hs =>
    rw [hs]
    exact ⟨rfl, rfl⟩

theorem Tries.inHand {retries : Nat} (h : s.Tries now next w retries) :
    next.stage.inHand = [w] := by
  cases h with
  | paced hn | dialled hn => rw [hn]; rfl

theorem Faults.inHand {retries : Nat} {fault : LinkFault} (h : s.Faults w retries now fault) :
    s.stage.inHand = [w] := by
  rcases h with hs | hs <;> rw [hs] <;> rfl

theorem Stops.splitter {reason : AbandonReason} {g : Standing} (h : s.Stops now reason g next) :
    next.splitter = g.splitter := by
  cases h with
  | ended _ hg | salvaging _ _ _ _ _ hg => exact congrArg Standing.splitter hg

theorem Charts.splitter_resolved (h : s.Charts answered) :
    s.splitter.resolved = answered.length := (Course.counted h.course).2

theorem Charts.charted (h : s.Charts answered) (ha : s.AtWork) : s.Charted answered [] :=
  ⟨fun _ => ⟨h, rfl⟩, fun _ hr => absurd ha hr.not_atWork⟩

/-- The windows of a session that stays at work stay where they are. -/
theorem Charts.same {g : Standing} (h : s.Charts answered) (hj : next.job = s.job)
    (hg : next.standing = g) (hw : next.stage.inHand = s.stage.inHand) (ha : next.AtWork)
    (hs : g.splitter = s.splitter ∧ g.resolved = s.stats.resolved ∧
      g.abandoned = s.stats.abandoned) : next.Charted (s.answers next ++ answered) [] := by
  subst hg
  obtain ⟨hsplitter, hresolved, habandoned⟩ := hs
  have hkept : next.splitter = s.splitter := hsplitter
  rw [answers_of_eq (by rw [hkept]), List.nil_append]
  refine Charts.charted ⟨?_, hresolved.trans h.resolved, habandoned.trans h.abandoned⟩ ha
  rw [settings, hj, hkept, hw]
  exact h.course

theorem advised_counts (s : Session) :
    s.advised.splitter = s.splitter ∧ s.advised.resolved = s.stats.resolved ∧
      s.advised.abandoned = s.stats.abandoned := by
  unfold advised
  split <;> exact ⟨rfl, rfl, rfl⟩

/-- A session that is about to take a window has none in its hand, and the splitter knows of all
replies. -/
theorem Resumes.charts {g : Standing} (hf : s.Resumes g) (h : s.Charts answered)
    (hn : next.splitter.resolved = g.splitter.resolved) :
    Course.Reached s.job.target s.settings.resultCap s.settings.minWindow
        ⟨g.splitter, [], s.answers next ++ answered⟩ ∧
      g.resolved = (s.answers next ++ answered).length ∧ g.abandoned = 0 := by
  have hcourse := h.course
  cases hf with
  | ready hs =>
    rw [hs] at hcourse
    rw [answers_of_eq hn, List.nil_append]
    exact ⟨hcourse, h.resolved, h.abandoned⟩
  | @resolved w received oldest items _ hd =>
    obtain ⟨hreply, hhand⟩ := hd.reply?
    rw [hhand] at hcourse
    obtain ⟨hsplitter, -, habandoned⟩ := s.advised_counts
    have hresolve := Splitter.resolved_resolve s.splitter w received (oldestAfter w oldest items)
    simp only [Standing.look, Standing.resolve, hsplitter] at hn ⊢
    rw [hresolve] at hn
    have hnote : Course.Reached s.job.target s.settings.resultCap s.settings.minWindow _ :=
      .step hcourse (.note received (oldestAfter w oldest items) (List.mem_singleton_self w))
    rw [answers, if_neg (by omega), hreply]
    rw [Course.note, Splitter.fst_resolve, List.erase_cons_head] at hnote
    refine ⟨hnote, ?_, habandoned.trans h.abandoned⟩
    rw [hresolve, h.splitter_resolved]
    rfl

/-- It gives up: what is pending counts as abandoned, and the window in hand counts or is lost. -/
theorem Stops.gaveUp {k : Course} {reason : AbandonReason} {g : Standing} {more : Nat}
    (h : s.Stops now reason (g.abandon more) next) (hj : next.job = s.job)
    (hk : Course.Reached s.job.target s.settings.resultCap s.settings.minWindow k)
    (hs : g.splitter = k.splitter) (hr : g.resolved = k.answered.length) (ha : g.abandoned = 0)
    (hl : more + lost.length = k.hand.length) (hsingle : lost.length ≤ 1)
    (hcut : lost ≠ [] → reason = .budgetExceeded ∨ reason = .cancelled) :
    next.Charted k.answered lost := by
  refine ⟨fun hw => absurd hw h.abandonedFor.not_atWork, fun reason' hreason => ?_⟩
  obtain rfl := h.abandonedFor.unique hreason
  have hg : next.standing = { g.abandon more with pending := next.pending } := by
    cases h with
    | ended _ hg | salvaging _ _ _ _ _ hg => exact hg
  have hresolved : next.stats.resolved = g.resolved := congrArg Standing.resolved hg
  have habandoned : next.stats.abandoned = g.abandoned + more + g.splitter.pending :=
    congrArg Standing.abandoned hg
  refine ⟨⟨k, ?_, rfl, ?_⟩, hresolved.trans hr, hsingle, hcut⟩
  · rw [settings, hj]
    exact hk
  · have hsize : g.splitter.pending = k.splitter.stack.pending.length := by rw [hs]; rfl
    omega

theorem Charted.of_ended {outcome : Outcome} {at_ : Nat} (hn : next.stage = .ended outcome at_)
    (ho : ∀ reason, outcome ≠ .abandoned reason) : next.Charted answered lost := by
  refine ⟨fun ha => absurd hn ha.not_ended, fun reason hr => ?_⟩
  rw [AbandonedFor, hn] at hr
  exact absurd hr (ho reason)

/-- What a session at work comes to when it goes on: no window is lost. -/
theorem Goes.charted {shutdown : Bool} (h : s.Goes shutdown now next) (hs : s.Charts answered)
    (hj : next.job = s.job) : next.Charted (s.answers next ++ answered) [] := by
  have kept : s.standing.splitter = s.splitter ∧ s.standing.resolved = s.stats.resolved ∧
      s.standing.abandoned = s.stats.abandoned := ⟨rfl, rfl, rfl⟩
  cases h with
  | asks hs' hn _ hg | opens hs' hn _ hg | waits hs' _ hn _ hg | hands hs' hn _ hg =>
    exact hs.same hj hg (by rw [hn, hs']; rfl) (atWork_of_stage hn trivial) kept
  | rests hf _ _ hn _ hg =>
    exact hs.same hj hg (by rw [hn, hf.inHand]; rfl) (atWork_of_stage hn trivial) kept
  | retries hs' hn hg =>
    exact hs.same hj hg (by rw [hn.inHand, hs']; rfl) hn.atWork kept
  | fills hf hn hg =>
    refine hs.same hj hg ?_ hn.atWork s.advised_counts
    obtain ⟨_, _, _, hn, -⟩ := hn
    rw [hn, hf.reply?.2]
    rfl
  | crashes _ hn =>
    refine ⟨fun ha => absurd hn ha.not_crashed, fun reason hr => ?_⟩
    rw [AbandonedFor, hn] at hr
    cases hr
  | drains _ _ _ hn => exact .of_ended hn fun _ he => by cases he
  | finishes _ hn => exact .of_ended hn fun _ he => by cases he
  | refused _ hn => exact .of_ended hn fun _ he => by cases he
  | @fails w retries fault hf hn =>
    have hcourse := hs.course
    rw [hf.inHand] at hcourse
    have hsame : next.splitter.resolved = s.splitter.resolved := by rw [hn.splitter]; rfl
    rw [answers_of_eq hsame]
    exact hn.gaveUp hj hcourse rfl hs.resolved hs.abandoned rfl (Nat.zero_le _)
      fun h => absurd rfl h
  | @heeds g w rest hf hw _ hn =>
    have hrest : rest.resolved = g.splitter.resolved := by rw [(Splitter.next_eq_some hw).2]
    have hsame : next.splitter.resolved = g.splitter.resolved := by rw [hn.splitter]; exact hrest
    obtain ⟨hcourse, hresolved, habandoned⟩ := hf.charts hs hsame
    exact hn.gaveUp hj (hcourse.step (.take hw)) rfl hresolved habandoned rfl (Nat.zero_le _)
      fun h => absurd rfl h
  | @takes g w rest hf hw _ hn hg =>
    have hsplitter : next.splitter = rest := congrArg Standing.splitter hg
    have hrest : rest.resolved = g.splitter.resolved := by rw [(Splitter.next_eq_some hw).2]
    obtain ⟨hcourse, hresolved, habandoned⟩ := hf.charts hs (by rw [hsplitter]; exact hrest)
    refine Charts.charted ⟨?_, ?_, ?_⟩ hn.atWork
    · rw [settings, hj, hsplitter, hn.inHand]
      exact hcourse.step (.take hw)
    · exact (congrArg Standing.resolved hg).trans hresolved
    · exact (congrArg Standing.abandoned hg).trans habandoned
  | @flushes g hf hw hn hg =>
    have hsplitter : next.splitter = g.splitter := congrArg Standing.splitter hg
    obtain ⟨hcourse, hresolved, habandoned⟩ := hf.charts hs (by rw [hsplitter])
    refine Charts.charted ⟨?_, ?_, ?_⟩ hn.atWork
    · obtain ⟨_, _, _, hn, -⟩ := hn
      rw [settings, hj, hsplitter, hn]
      exact hcourse
    · exact (congrArg Standing.resolved hg).trans hresolved
    · exact (congrArg Standing.abandoned hg).trans habandoned

/-- **What a move does to the windows**: each of them goes on in its course, counts as abandoned, or
is lost with a session that is cut off. -/
theorem Turn.charted (h : s.Turn c now next) (hd : s.due? c = some now)
    (hs : s.Charted answered lost) (hj : next.job = s.job) :
    next.Charted (s.answers next ++ answered) (s.loses c ++ lost) := by
  cases h with
  | @cut reason ha hc hn =>
    obtain ⟨hcharts, rfl⟩ := hs.works ha
    have hsame : next.splitter.resolved = s.splitter.resolved := by rw [hn.splitter]; rfl
    rw [answers_of_eq hsame, loses, hc, hd, if_pos (by rfl), List.append_nil]
    refine hn.gaveUp hj hcharts.course rfl hcharts.resolved hcharts.abandoned (Nat.zero_add _) ?_
      fun _ => reason_of_cutOff? ha hc
    cases hstage : s.stage with
    | storing _ _ after | storeResting _ _ after => cases after <;> exact Nat.le_of_ble_eq_true rfl
    | _ => exact Nat.le_of_ble_eq_true rfl
  | @left b reason due delivered heeds hs' hle hn hg =>
    have hempty : s.loses c = [] := by
      rw [loses, hs']
      split <;> rfl
    have hsplitter : next.splitter = s.splitter := congrArg Standing.splitter hg
    have hresolved : next.stats.resolved = s.stats.resolved := congrArg Standing.resolved hg
    have habandoned : next.stats.abandoned = s.stats.abandoned := congrArg Standing.abandoned hg
    have hnext : next.AbandonedFor reason := by rw [AbandonedFor, hn]
    rw [answers_of_eq (by rw [hsplitter]), hempty, List.nil_append, List.nil_append]
    refine ⟨fun ha => absurd ha hnext.not_atWork, fun reason' hr => ?_⟩
    obtain rfl := hnext.unique hr
    obtain ⟨hcourse, hcount, hsingle, hcut⟩ := hs.gaveUp reason (by rw [AbandonedFor, hs'])
    refine ⟨?_, hresolved.trans hcount, hsingle, hcut⟩
    rw [settings, hj, habandoned]
    exact hcourse
  | goes ha hc hgoes =>
    obtain ⟨hcharts, rfl⟩ := hs.works ha
    have hnone : s.loses c = [] := by
      refine if_neg fun he => ?_
      rw [hd, Option.map_eq_some_iff] at he
      obtain ⟨⟨cut, reason⟩, hcut, rfl⟩ := he
      exact Nat.lt_irrefl _ (hc cut reason hcut)
    rw [hnone]
    exact hgoes.charted hcharts hj

/-! ## Whole sessions -/

namespace Resolves

variable {first : Session}

theorem job (h : Resolves c first answered lost s) : s.job = first.job := by
  induction h with
  | start => rfl
  | step _ _ world ih => exact (leads_step _ world c).2.1.trans ih

theorem charted (h : Resolves c first answered lost s) (hf : first.Charted [] []) :
    s.Charted answered lost := by
  induction h with
  | start => exact hf
  | step _ ho world ih =>
    obtain ⟨now, hd, hturn⟩ := turn_step ho c world
    exact hturn.charted hd ih (leads_step _ world c).2.1

theorem run (h : Resolves c first answered lost s) (world : World) :
    ∃ answered lost, Resolves c first answered lost (s.run c world).2 := by
  fun_induction Session.run c world s generalizing answered lost with
  | case2 world s ho => exact ⟨answered, lost, h⟩
  | case1 world s ho ih => exact ih (h.step ho world)

end Resolves

theorem charted_start (job : Job) (wall : UInt64) (now : Nat) :
    (start job wall now).Charted [] [] :=
  Charts.charted ⟨.start, rfl, rfl⟩ (atWork_of_stage rfl trivial)

/-- **Of every abandoned session all windows are accounted for, but for the one in hand when it was
cut off.** The replies that its splitter was told of are those of a course for its target, and it
counts each of them. Together with the windows that it counts as abandoned they are all that was
ever owed, the target and what took the place of a window that was narrowed, just when none is lost.
Only to be cut off, by a cancellation or because the time is over, loses a window, and no more than
the one in hand. -/
theorem windows_accounted (job : Job) (wall : UInt64) (now : Nat) (c : Control) :
    (∀ world, ∃ answered lost, Resolves c (start job wall now) answered lost
      ((start job wall now).run c world).2) ∧
    ∀ (answered : List Harvest.Answered) (lost : List Window) (s : Session) (r : Report)
      (reason : AbandonReason), job.target.since ≤ job.target.upto →
        Resolves c (start job wall now) answered lost s → s.report? = some r →
          r.outcome = .abandoned reason →
            let owed := 1 + (answered.map fun a => a.resolution.owed.length).sum
            (∃ k : Course,
              Course.Reached job.target job.settings.resultCap job.settings.minWindow k ∧
                k.answered = answered) ∧
            r.stats.resolved = answered.length ∧
            r.stats.resolved + r.stats.abandoned + lost.length = owed ∧
            (r.stats.resolved + r.stats.abandoned = owed ↔ lost = []) ∧ lost.length ≤ 1 ∧
            (lost ≠ [] → reason = .budgetExceeded ∨ reason = .cancelled) := by
  refine ⟨fun world => Resolves.start.run world, ?_⟩
  intro answered lost s r reason ht h hr ho owed
  obtain ⟨⟨k, hk, rfl, hcount⟩, hresolved, hsingle, hcut⟩ :=
    (h.charted (charted_start ..)).gaveUp reason (abandonedFor_of_report hr ho)
  rw [settings, h.job] at hk
  obtain ⟨howed, -⟩ := Course.counted hk
  have htarget : (start job wall now).job.target = job.target := rfl
  rw [Course.owed, htarget, if_pos ht] at howed
  have hall : s.stats.resolved + s.stats.abandoned + lost.length = owed := by omega
  rw [stats_of_report hr]
  refine ⟨⟨k, hk, rfl⟩, hresolved, hall, ?_, hsingle, hcut⟩
  rw [← List.length_eq_zero_iff]
  dsimp only
  omega

/-- The reply is full and shows no stamp, so the two halves of the target are owed instead. By then
the session is to stop: it gives up the half that it takes and the other one. -/
theorem windows_accounted_stopped :
    let relay : Relay := { id := "relay" }
    let reply : Reply := { items := [.null], garbled := 0, exhausted := true }
    let world : World :=
      { network :=
          { peers := [("relay", .scripted { queries := [{ delay := 5, value := .ok reply }] })] }
        sink := { depot := .memory {} } }
    let job : Job :=
      { relay, target := ⟨0, 3⟩, settings := { Config.settings {} relay with resultCap := 1 } }
    let c : Control := { shutdownAt := some 3 }
    let s := ((start job 0 0).run c world).2
    ∃ answered r, Resolves c (start job 0 0) answered [] s ∧ s.report? = some r ∧
      r.outcome = .abandoned .shutdown ∧ r.stats.resolved = 1 ∧ r.stats.abandoned = 2 ∧
      1 + (answered.map fun a => a.resolution.owed.length).sum = 3 := by
  intro relay reply world job c s
  obtain ⟨hexists, haccounted⟩ := windows_accounted job 0 0 c
  obtain ⟨answered, lost, h⟩ := hexists world
  have hends : ∃ ended,
      Nat.repeat (fun state => state.2.step c state.1) 4 (world, start job 0 0) = ended ∧
        ended.2.isOver = true ∧
        (ended.2.report?.map fun r => (r.outcome, r.stats.resolved, r.stats.abandoned)) =
          some (.abandoned .shutdown, 1, 2) := by
    refine ⟨_, rfl, ?_⟩
    clear hexists haccounted h
    revert relay reply world job c s
    decide +kernel
  obtain ⟨ended, hrepeat, hover, hreport⟩ := hends
  have hs : s = ended.2 := congrArg Prod.snd (run_eq_repeat hrepeat hover)
  rw [← hs] at hreport
  obtain ⟨r, hr, hvalues⟩ := Option.map_eq_some_iff.mp hreport
  simp only [Prod.mk.injEq] at hvalues
  obtain ⟨ho, hresolved, habandoned⟩ := hvalues
  obtain ⟨-, -, hall, -, -, hlost⟩ :=
    haccounted answered lost s r .shutdown (Nat.zero_le 3) h hr ho
  obtain rfl : lost = [] := by
    by_cases hn : lost = []
    · exact hn
    · rcases hlost hn with he | he <;> cases he
  refine ⟨answered, r, h, hr, ho, hresolved, habandoned, ?_⟩
  rw [← hall, hresolved, habandoned]
  rfl

/-- The relay takes the connection and never answers. When the time is over, the target is neither
resolved nor counted as abandoned. -/
theorem windows_lost :
    let relay : Relay := { id := "relay" }
    let world : World :=
      { network := { peers := [("relay", .memory { events := [], hangs := true })] }
        sink := { depot := .memory {} } }
    let settings : Settings :=
      { Config.settings {} relay with budget := 5000, queryTimeout := 60000 }
    let job : Job := { relay, target := ⟨100, 200⟩, settings }
    let s := ((start job 0 0).run {} world).2
    ∃ answered lost r, Resolves {} (start job 0 0) answered lost s ∧ s.report? = some r ∧
      r.outcome = .abandoned .budgetExceeded ∧
      r.stats.resolved + r.stats.abandoned ≠
        1 + (answered.map fun a => a.resolution.owed.length).sum := by
  intro relay world settings job s
  have hstart : Resolves {} (start job 0 0) [] [] (start job 0 0) := .start
  obtain ⟨answered, lost, h⟩ := hstart.run world
  have hends : ∃ ended,
      Nat.repeat (fun state => state.2.step {} state.1) 4 (world, start job 0 0) = ended ∧
        ended.2.isOver = true ∧
        (ended.2.report?.map fun r => (r.outcome, r.stats.resolved, r.stats.abandoned)) =
          some (.abandoned .budgetExceeded, 0, 0) := by
    refine ⟨_, rfl, ?_⟩
    clear hstart h
    revert relay world settings job s
    decide +kernel
  obtain ⟨ended, hrepeat, hover, hreport⟩ := hends
  have hs : s = ended.2 := congrArg Prod.snd (run_eq_repeat hrepeat hover)
  rw [← hs] at hreport
  obtain ⟨r, hr, hvalues⟩ := Option.map_eq_some_iff.mp hreport
  simp only [Prod.mk.injEq] at hvalues
  obtain ⟨ho, hresolved, habandoned⟩ := hvalues
  refine ⟨answered, lost, r, h, hr, ho, ?_⟩
  rw [hresolved, habandoned]
  omega

end Session

end Harvest
