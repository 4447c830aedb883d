import Harvest.Proofs.Session.Pacing

/-! The time that a session has. It works until it has drained its range, gives up or is cut off,
and after that has at most the time of one query for what is left. Main statement: all that it asks
it asks before its budget is over; if it is at work until then it is abandoned for that reason; and
its whole life is no longer than its budget and one query. -/

namespace Harvest.Session

variable {c : Control} {s first next : Session} {now till : Nat}

/-- It is through with its work at an instant, and waits for nothing later than the time of a query
after it. -/
def ThroughBy (now : Nat) (s : Session) : Prop :=
  match s.stage with
  | .salvaging _ _ due _ => due ≤ now + s.settings.queryTimeout
  | .ended _ at_ => at_ ≤ now + s.settings.queryTimeout
  | .crashed _ => True
  | _ => False

theorem atWork_start (job : Job) (wall : UInt64) (now : Nat) : (start job wall now).AtWork :=
  ⟨rfl, fun _ _ _ _ hs => by cases hs⟩

/-- Who goes on with his work does so before his time is over. -/
theorem AtWork.lt_budgetEnd (ha : s.AtWork)
    (hc : ∀ cut reason, s.cutOff? c = some (cut, reason) → now < cut) : now < s.budgetEnd := by
  obtain ⟨cut, reason, hcut, hbudget, -⟩ := cutOff?_of_working (c := c) ha.1 ha.2
  exact Nat.lt_of_lt_of_le (hc cut reason hcut) hbudget

/-- Unless it is cancelled by then, the end of its time is why a session is cut off. -/
theorem AtWork.cutOff?_late (ha : s.AtWork) (hn : ∀ t, c.cancelAt = some t → s.budgetEnd < t) :
    s.cutOff? c = some (s.budgetEnd, .budgetExceeded) := by
  obtain ⟨ho, hleft⟩ := ha
  rw [isOver] at ho
  unfold cutOff?
  cases hs : s.stage with
  | ended | crashed => simp [hs, Stage.due?] at ho
  | salvaging => exact absurd hs (hleft _ _ _ _)
  | _ =>
    cases hc : c.cancelAt with
    | none => rfl
    | some t => exact if_neg (Nat.not_le_of_lt (hn t hc))

/-! ## The instant at which a session is through -/

theorem Stops.throughBy {reason : AbandonReason} {g : Standing} (h : s.Stops now reason g next)
    (hj : next.settings = s.settings) : next.ThroughBy now := by
  rw [ThroughBy]
  cases h with
  | ended hn =>
    rw [hn]
    exact Nat.le_add_right ..
  | salvaging hn _ _ _ hlate =>
    rw [hn, hj]
    exact hlate

/-- A session that goes on is at work after that, or through with its work. -/
theorem Goes.throughBy {shutdown : Bool} (h : s.Goes shutdown now next)
    (hj : next.settings = s.settings) (hn : ¬next.AtWork) : next.ThroughBy now := by
  have ends {outcome : Outcome} (he : next.stage = .ended outcome now) : next.ThroughBy now := by
    rw [ThroughBy, he]
    exact Nat.le_add_right ..
  cases h with
  | fails _ hq | heeds _ _ _ hq => exact hq.throughBy hj
  | retries _ ht | takes _ _ _ ht => exact absurd ht.atWork hn
  | fills _ hs | flushes _ _ hs => exact absurd hs.atWork hn
  | drains _ _ _ he | finishes _ he | refused _ he => exact ends he
  | crashes _ he => rw [ThroughBy, he]; trivial
  | asks _ he | opens _ he | rests _ _ _ he | waits _ _ he | hands _ he =>
    exact absurd (atWork_of_stage he trivial) hn

/-! ## Single moves -/

/-- **A move after which a session is at work falls before the end of its time.** -/
theorem lt_budgetEnd_of_atWork (world : World) (hd : s.due? c = some now)
    (hn : (s.step c world).2.AtWork) : now < s.budgetEnd := by
  obtain ⟨at_, hat, hturn⟩ := turn_step (isOver_of_due? hd) c world
  obtain rfl := Option.some.inj (hd.symm.trans hat)
  cases hturn with
  | cut _ _ hstops => exact absurd hn hstops.abandonedFor.not_atWork
  | left _ _ he => exact absurd he hn.not_ended
  | goes ha hc => exact ha.lt_budgetEnd hc

theorem atWork_ask (w : Window) (retries : Nat) (now : Nat) (world : World) :
    (s.ask w retries now world).2.AtWork :=
  ⟨rfl, fun _ _ _ _ he => by cases he⟩

/-- Where a session stands that was through with its work at the instant `till`. -/
structure Through (c : Control) (till : Nat) (s : Session) : Prop where
  inTime : till ≤ s.budgetEnd
  throughBy : s.ThroughBy till
  /-- If it was at work until the end of its time, that is why it was abandoned. -/
  late : s.budgetEnd ≤ till → (∀ t, c.cancelAt = some t → s.budgetEnd < t) →
    s.AbandonedFor .budgetExceeded

theorem budgetEnd_step (s : Session) (c : Control) (world : World) :
    (s.step c world).2.settings = s.settings ∧ (s.step c world).2.budgetEnd = s.budgetEnd := by
  obtain ⟨-, hjob, hstarted, -⟩ := leads_step s world c
  constructor
  · rw [settings, hjob, settings]
  · rw [budgetEnd, settings, hjob, hstarted, budgetEnd, settings]

/-- The move after which a session is not at work any more. -/
theorem AtWork.through (ha : s.AtWork) (hd : s.due? c = some now) (world : World)
    (hn : ¬(s.step c world).2.AtWork) : (s.step c world).2.Through c now := by
  obtain ⟨hsettings, hend⟩ := budgetEnd_step s c world
  obtain ⟨at_, hat, hturn⟩ := turn_step ha.1 c world
  obtain rfl := Option.some.inj (hd.symm.trans hat)
  cases hturn with
  | @cut reason _ hc hstops =>
    refine ⟨?_, hstops.throughBy hsettings, fun _ hcancel => ?_⟩
    · obtain ⟨_, _, hcut, hbudget, -⟩ := cutOff?_of_working (c := c) ha.1 ha.2
      obtain ⟨rfl, -⟩ := Prod.mk.inj (Option.some.inj (hc.symm.trans hcut))
      rw [hend]
      exact hbudget
    · rw [hend] at hcancel
      have hlate := ha.cutOff?_late hcancel
      obtain ⟨-, rfl⟩ := Prod.mk.inj (Option.some.inj (hc.symm.trans hlate))
      exact hstops.abandonedFor
  | left hs => exact absurd hs (ha.2 _ _ _ _)
  | goes _ hc hgoes =>
    have hlt := ha.lt_budgetEnd hc
    rw [← hend] at hlt
    exact ⟨Nat.le_of_lt hlt, hgoes.throughBy hsettings hn, fun hle => by omega⟩

/-- What was left of it keeps to its time, and does not change why the session was abandoned. -/
theorem Through.step (h : s.Through c till) (ho : s.isOver = false) (world : World) :
    (s.step c world).2.Through c till := by
  obtain ⟨hsettings, hend⟩ := budgetEnd_step s c world
  obtain ⟨at_, -, hturn⟩ := turn_step ho c world
  obtain ⟨hin, hby, hlate⟩ := h
  have works (ha : s.AtWork) : False := by
    obtain ⟨-, hn⟩ := ha
    rw [ThroughBy] at hby
    rw [isOver] at ho
    cases hs : s.stage with
    | salvaging => exact hn _ _ _ _ hs
    | _ => simp_all [Stage.due?]
  cases hturn with
  | cut ha => exact (works ha).elim
  | goes ha => exact (works ha).elim
  | @left b reason due _ _ hs hle he =>
    rw [ThroughBy, hs] at hby
    rw [AbandonedFor, hs] at hlate
    refine ⟨by rw [hend]; exact hin, ?_, ?_⟩
    · rw [ThroughBy, he, hsettings]
      exact Nat.le_trans hle hby
    · rw [hend, AbandonedFor, he]
      intro hover hcancel
      rw [hlate hover hcancel]

/-! ## Whole lives -/

/-- What becomes of a session in whatever worlds the others leave for its moves, with the instant at
which it stopped to work, if it has. -/
inductive Life (c : Control) (first : Session) : Option Nat → Session → Prop
  | start : Life c first none first
  | works {s : Session} (h : Life c first none s) (ho : s.isOver = false) (world : World)
      (hn : (s.step c world).2.AtWork) : Life c first none (s.step c world).2
  | stops {s : Session} {now : Nat} (h : Life c first none s) (hd : s.due? c = some now)
      (world : World) (hn : ¬(s.step c world).2.AtWork) :
      Life c first (some now) (s.step c world).2
  | left {s : Session} {till : Nat} (h : Life c first (some till) s) (ho : s.isOver = false)
      (world : World) : Life c first (some till) (s.step c world).2

namespace Life

variable {till? : Option Nat}

theorem atWork (h : Life c first none s) (hf : first.AtWork) : s.AtWork := by
  cases h with
  | start => exact hf
  | works _ _ _ hn => exact hn

theorem kept (h : Life c first till? s) :
    s.job = first.job ∧ s.started = first.started := by
  induction h with
  | start => exact ⟨rfl, rfl⟩
  | works _ _ world _ ih | stops _ _ world _ ih | left _ _ world ih =>
    obtain ⟨-, hjob, hstarted, -⟩ := leads_step _ world c
    exact ⟨hjob.trans ih.1, hstarted.trans ih.2⟩

theorem through (h : Life c first till? s) (hf : first.AtWork) :
    ∀ till, till? = some till → s.Through c till := by
  induction h with
  | start | works => intro _ he; cases he
  | stops h hd world hn =>
    rintro _ ⟨⟩
    exact (h.atWork hf).through hd world hn
  | left _ ho world ih =>
    rintro _ ⟨⟩
    exact (ih _ rfl).step ho world

/-- A session by itself is through with its work at some instant. -/
theorem run (h : Life c first till? s) (hf : first.AtWork) (world : World) :
    ∃ till, Life c first (some till) (s.run c world).2 := by
  fun_induction Session.run c world s generalizing till? with
  | case2 world s ho =>
    cases till? with
    | some till => exact ⟨till, h⟩
    | none => exact absurd (h.atWork hf).1 ho
  | case1 world s ho ih =>
    cases till? with
    | some till => exact ih (h.left ho world)
    | none =>
      by_cases hn : (s.step c world).2.AtWork
      · exact ih (h.works ho world hn)
      · obtain ⟨now, hd, -⟩ := turn_step ho c world
        exact ih (h.stops hd world hn)

end Life

theorem Timeline.started {asked : List Asked} (h : Timeline c first asked s) :
    s.started = first.started := by
  induction h with
  | start => rfl
  | step _ _ world ih => exact (leads_step _ world c).2.2.1.trans ih

theorem Timeline.lt_budgetEnd {asked : List Asked} (h : Timeline c first asked s) :
    ∀ a ∈ asked, a.at_ < s.budgetEnd := by
  induction h with
  | start => intro a ha; cases ha
  | @step asked s h ho world ih =>
    obtain ⟨now, hd, hmove⟩ := step_quiet_or_asks ho c world
    rw [(budgetEnd_step s c world).2]
    rcases hmove with hq | ⟨w, retries, hs, hstep⟩
    · have hnone : (s.step c world).1.network.asked = [] ++ world.network.asked := hq.asked
      rw [World.askedSince_eq hnone]
      exact ih
    · have hlt : now < s.budgetEnd := by
        refine lt_budgetEnd_of_atWork world hd ?_
        rw [hstep]
        exact atWork_ask w retries now world
      have hasked : (s.step c world).1.network.asked =
          [⟨s.relay, now, s.queryFor w⟩] ++ world.network.asked := by
        rw [hstep]
        exact World.asked_query ..
      rw [World.askedSince_eq hasked]
      exact List.forall_mem_cons.mpr ⟨hlt, ih⟩

theorem Through.report (h : s.Through c till) {r : Report} (hr : s.report? = some r) :
    r.elapsed ≤ till + s.settings.queryTimeout - s.started := by
  have hby := h.throughBy
  unfold report? at hr
  split at hr
  · rename_i outcome at_ hs
    obtain rfl := Option.some.inj hr
    rw [ThroughBy, hs] at hby
    exact Nat.sub_le_sub_right hby _
  · cases hr

theorem AbandonedFor.report {reason : AbandonReason} (h : s.AbandonedFor reason)
    (ho : s.isOver = true) :
    ∃ r, s.report? = some r ∧ r.outcome = .abandoned reason ∧ r.confirmedUntil = none := by
  rw [AbandonedFor] at h
  unfold report?
  cases hs : s.stage with
  | ended outcome at_ =>
    rw [hs] at h
    obtain rfl : outcome = .abandoned reason := h
    exact ⟨_, rfl, rfl, rfl⟩
  | salvaging =>
    rw [isOver, hs] at ho
    cases ho
  | _ => simp_all

/-- **A session keeps to its budget.** It asks nothing at the end of its time or later. A session by
itself is through with its work at some instant, and alone or beside others it holds: one that was
not through before the end of its time, and was not cancelled by then, is abandoned for just that
reason and confirms nothing. However long the sink takes for what is left, no report is later than
the budget and the time of one query. -/
theorem budget_kept :
    (∀ (job : Job) (wall : UInt64) (now : Nat) (c : Control) (asked : List Asked) (s : Session),
      Timeline c (start job wall now) asked s → ∀ a ∈ asked, a.at_ < now + job.settings.budget) ∧
    (∀ (job : Job) (wall : UInt64) (now : Nat) (c : Control) (world : World),
      let ended := (start job wall now).run c world
      ended.2.isOver = true ∧
        (∃ asked, ended.1.network.asked = asked ++ world.network.asked ∧
          Timeline c (start job wall now) asked ended.2) ∧
        ∃ till, Life c (start job wall now) (some till) ended.2) ∧
    ∀ (job : Job) (wall : UInt64) (now : Nat) (c : Control) (till : Nat) (s : Session),
      Life c (start job wall now) (some till) s →
        (now + job.settings.budget ≤ till →
          (∀ t, c.cancelAt = some t → now + job.settings.budget < t) → s.isOver = true →
            ∃ r, s.report? = some r ∧ r.outcome = .abandoned .budgetExceeded ∧
              r.confirmedUntil = none) ∧
        ∀ r, s.report? = some r → r.elapsed ≤ job.settings.budget + job.settings.queryTimeout := by
  refine ⟨?_, ?_, ?_⟩
  · intro job wall now c asked s h a ha
    have hlt := h.lt_budgetEnd a ha
    rw [budgetEnd, settings, h.job, h.started] at hlt
    exact hlt
  · intro job wall now c world
    exact ⟨isOver_run c world _, Timeline.start.run rfl, Life.start.run (atWork_start ..) world⟩
  · intro job wall now c till s h
    have hthrough := h.through (atWork_start ..) till rfl
    obtain ⟨hjob, hstarted⟩ := h.kept
    have hend : s.budgetEnd = now + job.settings.budget := by
      rw [budgetEnd, settings, hjob, hstarted]
      rfl
    refine ⟨fun hover hcancel ho => ?_, fun r hr => ?_⟩
    · rw [← hend] at hover hcancel
      exact (hthrough.late hover hcancel).report ho
    · have hin := hthrough.inTime
      have hle := hthrough.report hr
      rw [hend] at hin
      rw [settings, hjob, hstarted] at hle
      have hle : r.elapsed ≤ till + job.settings.queryTimeout - now := hle
      omega

/-- The second reply does not come in time, and the sink does not take what the first one has
brought: the session lasts as long as it may. -/
theorem budget_kept_stuck :
    let relay : Relay := { id := "relay" }
    let event : Event := { Event.build (Event.repeated "a1") 5 1 [] "x" with
      id := "7cb95dc45205407bb4c493f8ff38b0437cbfc4b817ab6533a08c1b36d33d4582" }
    let reply : Reply := { items := [event.toJson], garbled := 0, exhausted := true }
    let script : Script :=
      { queries := [{ value := .ok reply }, { delay := 1000000000, value := .ok reply }] }
    let world : World :=
      { network := { peers := [("relay", .scripted script)] }
        sink := { script := [{ delay := 1000000000 }], depot := .memory {} } }
    let settings : Settings :=
      { Config.settings {} relay with resultCap := 1, budget := 1000, queryTimeout := 2000 }
    let job : Job := { relay, target := ⟨5, 9⟩, settings }
    let s := ((start job 100 7).run {} world).2
    ∃ till asked r, Life {} (start job 100 7) (some till) s ∧ 1007 ≤ till ∧
      Timeline {} (start job 100 7) asked s ∧ asked.map Asked.at_ = [257, 7] ∧
      (∀ a ∈ asked, a.at_ < 1007) ∧ s.report? = some r ∧
      r.outcome = .abandoned .budgetExceeded ∧ r.confirmedUntil = none ∧ r.elapsed = 3000 ∧
      r.elapsed ≤ 1000 + 2000 := by
  intro relay event reply script world settings job s
  obtain ⟨hasks, halone, hends⟩ := budget_kept
  obtain ⟨hover, ⟨asked, hasked, htimeline⟩, till, hlife⟩ := halone job 100 7 {} world
  have hcomputed : ∃ ended,
      Nat.repeat (fun state => state.2.step {} state.1) 7 (world, start job 100 7) = ended ∧
        ended.2.isOver = true ∧ ended.2.report?.map (·.elapsed) = some 3000 ∧
        ended.1.network.asked.map Asked.at_ = [257, 7] := by
    refine ⟨_, rfl, ?_⟩
    clear hasks halone hends hover hasked htimeline hlife
    revert relay event reply script world settings job s
    decide +kernel
  obtain ⟨ended, hrepeat, hended, helapsed, hat⟩ := hcomputed
  have hs : s = ended.2 := congrArg Prod.snd (run_eq_repeat hrepeat hended)
  have hall : asked ++ world.network.asked = asked := List.append_nil asked
  rw [run_eq_repeat hrepeat hended, hall] at hasked
  rw [← hs] at helapsed
  obtain ⟨r, hr, helapsed⟩ := Option.map_eq_some_iff.mp helapsed
  have hafter : 1007 ≤ till := by
    have hle := (hlife.through (atWork_start ..) till rfl).report hr
    rw [helapsed, Session.settings, hlife.kept.1, hlife.kept.2] at hle
    have hle : 3000 ≤ till + 2000 - 7 := hle
    omega
  obtain ⟨hbudget, hlast⟩ := hends job 100 7 {} till s hlife
  obtain ⟨r', hr', hreason, hnone⟩ := hbudget hafter (fun t ht => by cases ht) hover
  obtain rfl := Option.some.inj (hr.symm.trans hr')
  refine ⟨till, asked, r, hlife, hafter, htimeline, ?_, hasks job 100 7 {} asked s htimeline, hr,
    hreason, hnone, helapsed, hlast r hr⟩
  rw [← hasked]
  exact hat

end Harvest.Session
