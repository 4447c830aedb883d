import Harvest.Proofs.Coordinator.Transition

/-! What a coordinator tells, in its order. The states that it enters follow a diagram, whatever is
called and however its cycles go. A planned cycle tells of its sessions one after the other, of each
watermark just before the session that has moved it, and of a request to shut down at most once.
Nothing comes after the stop. -/

namespace Harvest

/-- The diagram of the states. -/
inductive CycleState.Follows : CycleState → CycleState → Prop
  | begins : Follows .idle .running
  | completes : Follows .running .completed
  | fallsShort : Follows .running .incomplete
  | unplanned : Follows .running .idle
  | heeds : Follows .running .stopping
  | completed : Follows .completed .idle
  | incomplete : Follows .incomplete .idle
  | stops : Follows .stopping .stopped
  | quits : Follows .idle .stopped

/-- A way through the diagram: the states that are entered, one after the other. -/
inductive CycleState.Walk : CycleState → List CycleState → CycleState → Prop
  | stay (state : CycleState) : Walk state [] state
  | enter {a b c : CycleState} {rest : List CycleState} (h : Follows a b) (w : Walk b rest c) :
      Walk a (b :: rest) c

namespace CycleState

theorem Walk.append {a b c : CycleState} {states more : List CycleState} (h : Walk a states b)
    (h' : Walk b more c) : Walk a (states ++ more) c := by
  induction h with
  | stay => exact h'
  | enter hab _ ih => exact .enter hab (ih h')

end CycleState

def Notice.state? : Notice → Option CycleState
  | entered state => some state
  | _ => none

/-- The states that a stream of notices says to be entered. -/
def statesOf (notices : List Notice) : List CycleState := notices.filterMap Notice.state?

theorem statesOf_append (notices more : List Notice) :
    statesOf (notices ++ more) = statesOf notices ++ statesOf more := List.filterMap_append ..

/-! ## What is told of a session -/

namespace Report

/-- What is told of a session that was noted: that its watermark has moved, if it has, and how it
has ended. -/
def notices (noted : Report × Bool) : List Notice :=
  (if noted.2 then [.committed noted.1.relay noted.1.target.upto] else []) ++
    [.reported noted.1.relay noted.1.outcome]

/-- The watermarks that have moved. -/
def commits (noted : List (Report × Bool)) : Table RelayId Nat :=
  noted.foldl (fun table r => if r.2 then table.set r.1.relay r.1.target.upto else table) {}

theorem commits_concat (noted : List (Report × Bool)) (r : Report) (moved : Bool) :
    commits (noted ++ [(r, moved)]) =
      if moved then (commits noted).set r.relay r.target.upto else commits noted := by
  rw [commits, List.foldl_append]
  rfl

theorem statesOf_notices (noted : List (Report × Bool)) :
    statesOf (noted.flatMap notices) = [] := by
  induction noted with
  | nil => rfl
  | cons r rest ih =>
    rw [List.flatMap_cons, statesOf_append, ih, notices]
    split <;> rfl

end Report

namespace Ledger

/-- What a ledger is after a report was noted. -/
theorem note_eq (l : Ledger) (r : Report) :
    (l.note r).stopping = l.stopping ∧ (l.note r).sessions = l.sessions ++ [r] ∧
      (l.note r).committed =
        (if l.writes r then l.committed.set r.relay r.target.upto else l.committed) ∧
      (l.note r).notices = (Report.notices (r, l.writes r)).reverse ++ l.notices ∧
      (l.writes r = true → r.outcome = .drained) := by
  obtain ⟨relay, target, outcome, stats, elapsed⟩ := r
  cases outcome with
  | drained =>
    cases hr : l.watermarks.refusesSet relay <;>
      simp [note, commit, writes, Report.confirmedUntil, Report.notices, Outcome.isDrained,
        Watermarks.set, hr, Except.isOk, Except.toBool]
  | abandoned | sinkFailed =>
    simp [note, commit, writes, Report.confirmedUntil, Report.notices, Outcome.isDrained]

/-- A ledger tells of its sessions in their order, and of a request to shut down between those
before and those after it. With each session goes whether its watermark has moved. -/
structure Tells (l : Ledger) (early late : List (Report × Bool)) : Prop where
  sessions : l.sessions = (early ++ late).map Prod.fst
  moved : ∀ noted ∈ early ++ late, noted.2 = true → noted.1.outcome = .drained
  committed : l.committed = Report.commits (early ++ late)
  quiet : l.stopping = false → late = []
  notices : l.notices.reverse = early.flatMap Report.notices ++
    (if l.stopping then [.entered .stopping] else []) ++ late.flatMap Report.notices

/-- Reports are noted, and the request to shut down is heeded, in whichever order. The store may
change at any time. -/
inductive Notes (first : Ledger) : Ledger → Prop
  | start : Notes first first
  | heed {l : Ledger} (h : Notes first l) (control : Control) (now : Nat) :
      Notes first (l.heed control now)
  | note {l : Ledger} (h : Notes first l) (r : Report) : Notes first (l.note r)
  | turn {l : Ledger} (h : Notes first l) (watermarks : Watermarks) :
      Notes first { l with watermarks }

variable {l : Ledger} {early late : List (Report × Bool)}

theorem Notes.noteAt {first : Ledger} (h : Notes first l) (control : Control) (now : Nat)
    (r : Report) : Notes first (l.noteAt control now r) := (h.heed control now).note r

theorem Tells.heed (h : l.Tells early late) (control : Control) (now : Nat) :
    (l.heed control now).Tells early late := by
  unfold Ledger.heed
  split
  · rename_i hc
    obtain ⟨hsessions, hmoved, hcommitted, hquiet, hnotices⟩ := h
    obtain rfl := hquiet hc.2
    refine ⟨hsessions, hmoved, hcommitted, fun _ => rfl, ?_⟩
    rw [hc.2] at hnotices
    simp only [List.reverse_cons, hnotices]
    simp
  · exact h

theorem Tells.note (h : l.Tells early late) (r : Report) :
    ∃ early late, (l.note r).Tells early late := by
  obtain ⟨hsessions, hmoved, hcommitted, hquiet, hnotices⟩ := h
  obtain ⟨hstop, hs, hc, hn, hd⟩ := l.note_eq r
  have hmoved' : ∀ noted ∈ (early ++ late) ++ [(r, l.writes r)],
      noted.2 = true → noted.1.outcome = .drained := by
    intro noted hm
    rcases List.mem_append.mp hm with hm | hm
    · exact hmoved noted hm
    · obtain rfl := List.mem_singleton.mp hm
      exact hd
  have hcommitted' : (l.note r).committed =
      Report.commits ((early ++ late) ++ [(r, l.writes r)]) := by
    rw [hc, hcommitted, Report.commits_concat]
  have hsessions' : (l.note r).sessions =
      ((early ++ late) ++ [(r, l.writes r)]).map Prod.fst := by
    rw [hs, hsessions, ← List.map_singleton (f := Prod.fst) (a := (r, l.writes r)),
      ← List.map_append]
  cases hstopping : l.stopping with
  | true =>
    refine ⟨early, late ++ [(r, l.writes r)], ?_, ?_, ?_, fun h => ?_, ?_⟩
    · rwa [← List.append_assoc]
    · rwa [← List.append_assoc]
    · rwa [← List.append_assoc]
    · rw [hstop, hstopping] at h
      cases h
    · rw [hn, hstop, List.reverse_append, List.reverse_reverse, hnotices]
      simp
  | false =>
    obtain rfl := hquiet hstopping
    rw [List.append_nil] at *
    refine ⟨early ++ [(r, l.writes r)], [], ?_, ?_, ?_, fun _ => rfl, ?_⟩
    · rwa [List.append_nil]
    · rwa [List.append_nil]
    · rwa [List.append_nil]
    · rw [hn, hstop, List.reverse_append, List.reverse_reverse, hnotices, hstopping]
      simp

theorem Notes.tells {watermarks : Watermarks} (h : Notes { watermarks } l) :
    ∃ early late, l.Tells early late := by
  induction h with
  | start => exact ⟨[], [], rfl, fun _ hm => (by cases hm), rfl, fun _ => rfl, rfl⟩
  | heed _ control now ih =>
    obtain ⟨early, late, h⟩ := ih
    exact ⟨early, late, h.heed control now⟩
  | note _ r ih =>
    obtain ⟨early, late, h⟩ := ih
    exact h.note r
  | turn _ watermarks ih =>
    obtain ⟨early, late, h⟩ := ih
    exact ⟨early, late, h.sessions, h.moved, h.committed, h.quiet, h.notices⟩

end Ledger

namespace Coordinator

variable {c : Coordinator} {wall : UInt64} {jobs : List Job}

/-! ## What a call comes to -/

/-- What is made of a planned cycle in which `l` was noted, where `after` is left of the
coordinator. -/
def sumUp (c after : Coordinator) (wall : UInt64) (jobs : List Job) (l : Ledger) :
    Ran (Except Failure CycleReport) :=
  let state := after.conclude l c.clock jobs.length
  { coordinator :=
      { after with
        watermarks := l.watermarks, state := if state = .stopped then .stopped else .idle }
    notices := [.entered .running, .started jobs.length] ++ l.notices.reverse ++
      [.entered state, .finished state] ++ if state = .stopped then [] else [.entered .idle]
    result :=
      .ok {
        startedAt := wall
        cycleEnd := ((jobs.head?.map (·.target.upto)).getD wall.toNat)
        state, sessions := l.sessions, committed := l.committed
        elapsed := after.clock - c.clock } }

/-- What a call can come to, in whichever order the reports, the deadline and the request to shut
down are met with. -/
inductive Outcome (c : Coordinator) (wall : UInt64) : Ran (Except Failure CycleReport) → Prop
  | refused {fault : Failure} (hs : c.state.refusal? = some fault) :
      Outcome c wall { coordinator := c, notices := [], result := .error fault }
  | unplanned {fault : Failure} (hs : c.state.refusal? = none)
      (hp : plan c.config c.directory c.watermarks wall = .error fault) :
      Outcome c wall
        { coordinator := c, notices := [.entered .running, .entered .idle], result := .error fault }
  | planned {jobs : List Job} {l : Ledger} (hs : c.state.refusal? = none)
      (hp : plan c.config c.directory c.watermarks wall = .ok jobs)
      (hl : Ledger.Notes { watermarks := c.watermarks } l) (after : Coordinator) :
      Outcome c wall (c.sumUp after wall jobs l)

theorem notes_cycle (c : Coordinator) (wall : UInt64) (jobs : List Job) :
    Ledger.Notes { watermarks := c.watermarks }
      ((c.begun wall jobs).1.run (Ledger.noteAt c.control) (c.begun wall jobs).2).2 := by
  refine cycle_keeps (fun state => Ledger.Notes { watermarks := c.watermarks } state.2) .start
    (fun _ _ _ _ h => h.noteAt _ _ _) ?_
  intro d l next report _ h
  cases report with
  | none => exact h
  | some r => exact h.noteAt _ _ r

theorem runCycle_eq_sumUp (hs : c.state.refusal? = none)
    (hp : plan c.config c.directory c.watermarks wall = .ok jobs) :
    let ended := (c.begun wall jobs).1.run (Ledger.noteAt c.control) (c.begun wall jobs).2
    c.runCycle wall =
      c.sumUp (c.execute wall jobs).coordinator wall jobs
        (ended.2.heed c.control ended.1.clock) := by
  intro ended
  have hstate : (c.execute wall jobs).result.state =
      (c.execute wall jobs).coordinator.conclude (ended.2.heed c.control ended.1.clock) c.clock
        jobs.length := rfl
  have hnotices : (c.execute wall jobs).notices =
      (ended.2.heed c.control ended.1.clock).notices.reverse ++
        [.entered (c.execute wall jobs).result.state] := List.reverse_cons ..
  simp only [runCycle, hs, hp, sumUp, ← hstate, hnotices]
  split
  · rename_i hstopped
    have hafter : (c.execute wall jobs).coordinator.state = .stopped := hstopped
    rw [← hafter, Ran.mk.injEq]
    exact ⟨rfl, by simp, rfl⟩
  · rw [Ran.mk.injEq]
    exact ⟨rfl, by simp, rfl⟩

/-- Every call comes to what a call can come to. -/
theorem outcome_runCycle (c : Coordinator) (wall : UInt64) : c.Outcome wall (c.runCycle wall) := by
  cases hs : c.state.refusal? with
  | some fault =>
    simp only [runCycle, hs]
    exact .refused hs
  | none =>
    cases hp : plan c.config c.directory c.watermarks wall with
    | error fault =>
      simp only [runCycle, hs, hp]
      exact .unplanned hs hp
    | ok jobs =>
      rw [runCycle_eq_sumUp hs hp]
      exact .planned hs hp ((c.notes_cycle wall jobs).heed ..) _

/-- What is told in a planned cycle: its beginning with the number of its jobs, its sessions with
the watermarks that they move and the request to shut down, its last state and its end. -/
structure Told (jobs : Nat) (ran : Ran (Except Failure CycleReport)) (report : CycleReport)
    (early late : List (Report × Bool)) : Prop where
  result : ran.result = .ok report
  last : report.state = .completed ∨ report.state = .incomplete ∨ report.state = .stopped
  state : ran.coordinator.state = if report.state = .stopped then .stopped else .idle
  sessions : report.sessions = (early ++ late).map Prod.fst
  moved : ∀ noted ∈ early ++ late, noted.2 = true → noted.1.outcome = .drained
  committed : report.committed = Report.commits (early ++ late)
  quiet : report.state ≠ .stopped → late = []
  notices : ran.notices = [.entered .running, .started jobs] ++
      (early.flatMap Report.notices ++
        (if report.state = .stopped then [.entered .stopping] else []) ++
        late.flatMap Report.notices) ++
      [.entered report.state, .finished report.state] ++
      if report.state = .stopped then [] else [.entered .idle]

/-- A cycle ends stopped just if a request to shut down was noted. -/
theorem conclude_cases (c : Coordinator) (l : Ledger) (started expected : Nat) :
    c.conclude l started expected = .stopped ∧ l.stopping = true ∨
      (c.conclude l started expected = .completed ∨ c.conclude l started expected = .incomplete) ∧
        l.stopping = false := by
  rw [conclude]
  cases l.stopping with
  | true => exact .inl ⟨rfl, rfl⟩
  | false =>
    right
    rw [if_neg Bool.false_ne_true]
    split
    · exact ⟨.inr rfl, rfl⟩
    · exact ⟨.inl rfl, rfl⟩

theorem told_sumUp {l : Ledger} (hl : Ledger.Notes { watermarks := c.watermarks } l)
    (after : Coordinator) (wall : UInt64) (jobs : List Job) :
    ∃ report early late, Told jobs.length (c.sumUp after wall jobs l) report early late := by
  obtain ⟨early, late, hsessions, hmoved, hcommitted, hquiet, hnotices⟩ := hl.tells
  have hstate := after.conclude_cases l c.clock jobs.length
  refine ⟨_, early, late, rfl, ?_, rfl, hsessions, hmoved, hcommitted, ?_, ?_⟩
  · rcases hstate with ⟨hs, -⟩ | ⟨hs | hs, -⟩
    · exact .inr (.inr hs)
    · exact .inl hs
    · exact .inr (.inl hs)
  · intro hne
    rcases hstate with ⟨hs, -⟩ | ⟨-, hstop⟩
    · exact absurd hs hne
    · exact hquiet hstop
  · have hif : (if l.stopping = true then [Notice.entered .stopping] else []) =
        if after.conclude l c.clock jobs.length = .stopped then [.entered .stopping] else [] := by
      rcases hstate with ⟨hs, hstop⟩ | ⟨hs | hs, hstop⟩ <;> rw [hs, hstop] <;> rfl
    rw [← hif, ← hnotices]
    rfl

open CycleState (Walk)

/-- A planned cycle goes once around, or to the stop. -/
theorem Told.walk {jobs : Nat} {ran : Ran (Except Failure CycleReport)} {report : CycleReport}
    {early late : List (Report × Bool)} (h : Told jobs ran report early late) :
    Walk .idle (statesOf ran.notices) ran.coordinator.state := by
  rw [h.notices, h.state]
  simp only [statesOf_append, Report.statesOf_notices]
  rcases h.last with hs | hs | hs <;> rw [hs]
  · exact .enter .begins (.enter .completes (.enter .completed (.stay _)))
  · exact .enter .begins (.enter .fallsShort (.enter .incomplete (.stay _)))
  · exact .enter .begins (.enter .heeds (.enter .stops (.stay _)))

theorem refusal?_eq_none {state : CycleState} (h : state.refusal? = none) : state = .idle := by
  cases state <;> first | rfl | cases h

/-- Every call goes on through the diagram from where the coordinator stands. -/
theorem Outcome.walk {ran : Ran (Except Failure CycleReport)} (h : c.Outcome wall ran) :
    Walk c.state (statesOf ran.notices) ran.coordinator.state := by
  cases h with
  | refused => exact .stay _
  | unplanned hs =>
    rw [refusal?_eq_none hs]
    exact .enter .begins (.enter .unplanned (.stay _))
  | planned hs _ hl after =>
    obtain ⟨_, _, _, htold⟩ := told_sumUp hl after wall _
    rw [refusal?_eq_none hs]
    exact htold.walk

/-- Between two calls a coordinator is at rest. -/
theorem Outcome.rests {ran : Ran (Except Failure CycleReport)} (h : c.Outcome wall ran)
    (hs : c.state = .idle ∨ c.state = .stopped) :
    ran.coordinator.state = .idle ∨ ran.coordinator.state = .stopped := by
  cases h with
  | refused | unplanned => exact hs
  | planned _ _ hl after =>
    obtain ⟨_, _, _, htold⟩ := told_sumUp hl after wall _
    rw [htold.state]
    split
    · exact .inr rfl
    · exact .inl rfl

/-- A coordinator that is stopped refuses a cycle, and nothing happens. -/
theorem Outcome.of_stopped {ran : Ran (Except Failure CycleReport)} (h : c.Outcome wall ran)
    (hs : c.state = .stopped) :
    ran =
      { coordinator := c, notices := []
        result := .error (.invalidOperation "coordinator is stopped") } := by
  have hrefusal : c.state.refusal? = some (.invalidOperation "coordinator is stopped") := by
    rw [hs]
    rfl
  cases h with
  | refused h =>
    obtain rfl := Option.some.inj (h.symm.trans hrefusal)
    rfl
  | unplanned h | planned h =>
    rw [h] at hrefusal
    cases hrefusal

/-- Calls of one caller, one after the other, and what is told. Between two of them everything may
change except the state. What the caller tells of a cycle that has failed is added. -/
inductive Calls (note : Failure → List Notice) (first : Coordinator) :
    List Notice → Coordinator → Prop
  | none : Calls note first [] first
  | wait {notices : List Notice} {c next : Coordinator} (h : Calls note first notices c)
      (hn : next.state = c.state) : Calls note first notices next
  | call {notices : List Notice} {c : Coordinator} {wall : UInt64}
      {ran : Ran (Except Failure CycleReport)} (h : Calls note first notices c)
      (ho : c.Outcome wall ran) :
      Calls note first
        (notices ++ (ran.notices ++
          match ran.result with | .error fault => note fault | .ok _ => []))
        ran.coordinator

namespace Calls

variable {note : Failure → List Notice} {first : Coordinator} {notices : List Notice}

/-- A caller that adds no states of its own sees a way through the diagram. -/
theorem walk (hn : ∀ fault, statesOf (note fault) = []) (h : Calls note first notices c) :
    Walk first.state (statesOf notices) c.state := by
  induction h with
  | none => exact .stay _
  | wait _ hs ih => rw [hs]; exact ih
  | @call _ _ _ ran _ ho ih =>
    have hnone :
        statesOf (match ran.result with | .error fault => note fault | .ok _ => []) = [] := by
      split
      · exact hn _
      · rfl
    rw [statesOf_append, statesOf_append, hnone, List.append_nil]
    exact ih.append ho.walk

/-- Calls that follow on other calls. -/
theorem append {last : Coordinator} {more : List Notice} (h : Calls note first notices c)
    (h' : Calls note c more last) : Calls note first (notices ++ more) last := by
  induction h' with
  | none => rwa [List.append_nil]
  | wait _ hs ih => exact ih.wait hs
  | call _ ho ih =>
    rw [← List.append_assoc]
    exact ih.call ho

theorem rests (h : Calls note first notices c)
    (hs : first.state = .idle ∨ first.state = .stopped) :
    c.state = .idle ∨ c.state = .stopped := by
  induction h with
  | none => exact hs
  | wait _ hn ih => rw [hn]; exact ih
  | call _ ho ih => exact ho.rests ih

/-- After the stop nothing is told any more. -/
theorem of_stopped (hs : first.state = .stopped) (h : Calls (fun _ => []) first notices c) :
    notices = [] ∧ c.state = .stopped := by
  induction h with
  | none => exact ⟨rfl, hs⟩
  | wait _ hn ih => exact ⟨ih.1, hn.trans ih.2⟩
  | call _ ho ih =>
    obtain ⟨rfl, hstate⟩ := ih
    rw [ho.of_stopped hstate]
    exact ⟨rfl, hstate⟩

end Calls

/-- Whoever stops a coordinator at rest goes on through the diagram. -/
theorem walk_stop (hs : c.state = .idle ∨ c.state = .stopped) :
    Walk c.state (statesOf c.stop.notices) .stopped := by
  rcases hs with hs | hs <;> rw [stop, hs]
  · exact .enter .quits (.stay _)
  · exact .stay _

/-- One cycle, as whoever runs one after the other tells of it: of one that has failed, why. -/
theorem calls_runCycle (c : Coordinator) (wall : UInt64) :
    Calls (fun fault => [.failed fault.message]) c
      (match (c.runCycle wall).result with
        | .error fault => (c.runCycle wall).notices ++ [.failed fault.message]
        | .ok _ => (c.runCycle wall).notices)
      (c.runCycle wall).coordinator := by
  have h := Calls.call (.none : Calls (fun fault => [.failed fault.message]) c [] c)
    (c.outcome_runCycle wall)
  cases hr : (c.runCycle wall).result with
  | error fault => simpa only [hr, List.nil_append] using h
  | ok report => simpa only [hr, List.nil_append, List.append_nil] using h

/-- To run until a request to shut down is to make calls, and to stop after them unless the last one
has ended stopped. -/
theorem calls_runUntil {instant : Nat} {wall : UInt64} {ran : Ran Unit}
    (hr : c.runUntil instant wall = some ran) :
    ∃ notices last, Calls (fun fault => [.failed fault.message]) c notices last ∧
      (last.state = .stopped ∧ ran.coordinator = last ∧ ran.notices = notices ∨
        ran.coordinator = last.stop.coordinator ∧ ran.notices = notices ++ last.stop.notices) := by
  fun_induction Coordinator.runUntil c instant wall generalizing ran with
  | case1 c _ =>
    obtain rfl := Option.some.inj hr
    exact ⟨[], c, .none, .inr ⟨rfl, rfl⟩⟩
  | case2 c =>
    rename_i hstop
    obtain rfl := Option.some.inj hr
    exact ⟨_, _, calls_runCycle c wall, .inl ⟨hstop.1, rfl, rfl⟩⟩
  | case3 c _ => cases hr
  | case4 c =>
    rename_i ih
    obtain ⟨rest, hrest, rfl⟩ := Option.map_eq_some_iff.mp hr
    obtain ⟨notices, last, hcalls, hend⟩ := ih hrest
    refine ⟨_, last, Calls.append (.wait (calls_runCycle c wall) ?_) hcalls, ?_⟩
    · rfl
    rcases hend with ⟨hs, hc, hn⟩ | ⟨hc, hn⟩
    · exact .inl ⟨hs, hc, congrArg (_ ++ ·) hn⟩
    · exact .inr ⟨hc, (congrArg (_ ++ ·) hn).trans (List.append_assoc ..).symm⟩

/-- **The states form a path through the diagram and the stop is the end of it. Every planned cycle
tells of its jobs, of its sessions in their order and of its end.** This holds in whichever order
the reports, the deadline and the request to shut down are met with; a call of `runCycle` is one of
these orders. A run is calls, each failure being told of, and a stop. -/
theorem stream_ordered {c : Coordinator} (hs : c.state = .idle) :
    (∀ (c : Coordinator) (wall : UInt64), c.Outcome wall (c.runCycle wall)) ∧
    (∀ note notices last, (∀ fault, statesOf (note fault) = []) → Calls note c notices last →
      Walk .idle (statesOf notices) last.state ∧
        Walk .idle (statesOf (notices ++ last.stop.notices)) .stopped) ∧
    (∀ wall ran, c.run wall = some ran →
      Walk .idle (statesOf ran.notices) .stopped ∧ ran.coordinator.state = .stopped ∧
        ∃ notices last, Calls (fun fault => [.failed fault.message]) c notices last ∧
          (ran.coordinator = last ∧ ran.notices = notices ∨
            ran.coordinator = last.stop.coordinator ∧
              ran.notices = notices ++ last.stop.notices)) ∧
    (∀ (c : Coordinator) wall ran jobs, c.Outcome wall ran → c.state = .idle →
      plan c.config c.directory c.watermarks wall = .ok jobs →
        ∃ report early late, Told jobs.length ran report early late) ∧
    ∀ first : Coordinator, first.state = .stopped → ∀ notices last,
      Calls (fun _ => []) first notices last → notices = [] ∧ last.state = .stopped ∧
        ∀ wall ran, last.Outcome wall ran →
          ran =
            { coordinator := last, notices := []
              result := .error (.invalidOperation "coordinator is stopped") } := by
  refine ⟨outcome_runCycle, ?_, ?_, ?_, ?_⟩
  · intro note notices last hn hcalls
    have hwalk := hcalls.walk hn
    rw [hs] at hwalk
    rw [statesOf_append]
    exact ⟨hwalk, hwalk.append (walk_stop (hcalls.rests (.inl hs)))⟩
  · intro wall ran hr
    rw [run] at hr
    split at hr
    case h_2 => cases hr
    obtain ⟨notices, last, hcalls, hend⟩ := calls_runUntil hr
    have hwalk := hcalls.walk fun _ => rfl
    rw [hs] at hwalk
    rcases hend with ⟨hlast, hc, hn⟩ | ⟨hc, hn⟩
    · rw [hlast] at hwalk
      rw [hn, hc]
      exact ⟨hwalk, hlast, notices, last, hcalls, .inl ⟨rfl, rfl⟩⟩
    · rw [hn, hc, statesOf_append]
      exact ⟨hwalk.append (walk_stop (hcalls.rests (.inl hs))), rfl, notices, last, hcalls,
        .inr ⟨rfl, rfl⟩⟩
  · intro c wall ran jobs ho hidle hp
    cases ho with
    | refused hrefused =>
      rw [hidle] at hrefused
      cases hrefused
    | unplanned _ hfault =>
      rw [hp] at hfault
      cases hfault
    | planned _ hjobs hl after =>
      obtain rfl := Except.ok.inj (hjobs.symm.trans hp)
      exact told_sumUp hl after wall _
  · intro first hfirst notices last hcalls
    obtain ⟨hn, hlast⟩ := hcalls.of_stopped hfirst
    exact ⟨hn, hlast, fun wall ran ho => ho.of_stopped hlast⟩

/-- A run ends with the first cycle that ends stopped. -/
theorem runUntil_of_stopped {instant : Nat} {wall : UInt64} {report : CycleReport}
    (hc : ¬ instant ≤ c.clock) (hs : (c.runCycle wall).coordinator.state = .stopped)
    (hr : (c.runCycle wall).result = .ok report) :
    c.runUntil instant wall = some
      { coordinator := (c.runCycle wall).coordinator
        notices := (c.runCycle wall).notices
        result := () } := by
  rw [runUntil, if_neg hc]
  simp only [hs, hr]
  exact if_pos ⟨trivial, rfl⟩

/-- A request to shut down comes while the only relay is about to answer. Its watermark still moves;
the next call is refused. -/
theorem stream_ordered_stopping :
    let c : Coordinator :=
      { config := {}, directory := .memory { relays := [{ id := "open" }] }
        watermarks := { store := .memory {} }, shutdownAt := some 2
        world :=
          { network := { peers := [("open", .memory { events := [], latency := 3 })] }
            sink := { depot := .memory {} } } }
    c.state = .idle ∧ ∃ ran, c.run 5 = some ran ∧
      ran.notices = [.entered .running, .started 1, .entered .stopping, .committed "open" 5,
        .reported "open" .drained, .entered .stopped, .finished .stopped] ∧
      Walk .idle (statesOf ran.notices) .stopped ∧
      (∃ report early late, Told 1 (c.runCycle 5) report early late) ∧
      ran.coordinator.runCycle 9 =
        { coordinator := ran.coordinator, notices := []
          result := .error (.invalidOperation "coordinator is stopped") } := by
  intro c
  have hplan : plan c.config c.directory c.watermarks 5 =
      .ok [c.jobFor 5 { id := "open" }] := rfl
  have hends : ∃ ended,
      Nat.repeat (Dispatch.advance (Ledger.noteAt c.control)) 24
          (c.begun 5 [c.jobFor 5 { id := "open" }]) = ended ∧
        ended.1.step?.isNone = true ∧
        ({ c with clock := ended.1.clock } : Coordinator).conclude
          (ended.2.heed c.control ended.1.clock) c.clock 1 = .stopped ∧
        (ended.2.heed c.control ended.1.clock).notices.reverse =
          [.entered .stopping, .committed "open" 5, .reported "open" .drained] := by
    refine ⟨_, rfl, ?_⟩
    clear hplan
    revert c
    decide +kernel
  obtain ⟨hout, -, hrun, htold, hstops⟩ := stream_ordered (c := c) rfl
  obtain ⟨ended, hend, hover, hconclude, hnotices⟩ := hends
  have hmoves := Dispatch.run_eq_repeat hend (Option.isNone_iff_eq_none.mp hover)
  have hstate : (c.execute 5 [c.jobFor 5 { id := "open" }]).result.state = .stopped := by
    rw [state_execute, hmoves]
    exact hconclude
  have hsum := runCycle_eq_sumUp (c := c) rfl hplan
  rw [hmoves] at hsum
  have hlast : (c.execute 5 [c.jobFor 5 { id := "open" }]).coordinator.conclude
      (ended.2.heed c.control ended.1.clock) c.clock 1 = .stopped := by
    rw [← hmoves]
    exact hstate
  have htold' : (c.runCycle 5).notices = [.entered .running, .started 1, .entered .stopping,
      .committed "open" 5, .reported "open" .drained, .entered .stopped, .finished .stopped] := by
    rw [hsum, sumUp]
    simp only [List.length_cons, List.length_nil, hlast, hnotices]
    rfl
  have hstopped : (c.runCycle 5).coordinator.state = .stopped := by
    rw [hsum, sumUp]
    simp only [List.length_cons, List.length_nil, hlast]
    rfl
  have hr : c.run 5 = some
      { coordinator := (c.runCycle 5).coordinator
        notices := (c.runCycle 5).notices
        result := () } :=
    runUntil_of_stopped (Nat.not_succ_le_zero 1) hstopped (result_eq_execute rfl hplan)
  refine ⟨rfl, _, hr, htold', (hrun _ _ hr).1, ?_, ?_⟩
  · exact htold c 5 _ _ (hout c 5) rfl hplan
  · exact (hstops _ hstopped _ _ .none).2.2 9 _ (hout _ 9)

end Coordinator

end Harvest
