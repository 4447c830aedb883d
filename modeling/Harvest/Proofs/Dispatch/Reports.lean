import Harvest.Proofs.Dispatch.Connections
import Harvest.Proofs.Session.Outcomes

/-! What becomes of each job. Its task ends once, with one report that names the relay and the range
of the job, or without one if it was torn down. A worker without a sink starts none of its jobs. A
handle to the sink is closed once, after all that was handed over through it. -/

namespace Harvest

/-- What a report is about. -/
def Report.about (r : Report) : RelayId × Window := (r.relay, r.target)

namespace Task

/-- What the report of a task is about, once there is one. -/
def answered? (t : Task) : Option (RelayId × Window) :=
  match t.progress with
  | .ended .ran | .ended .notStarted => some (t.job.relay.id, t.job.target)
  | _ => none

def isCrashed (t : Task) : Bool :=
  match t.progress with
  | .ended .crashed => true
  | _ => false

theorem isOver_of_isWaiting {t : Task} (h : t.progress.isWaiting = true) : t.isOver = false := by
  rw [isOver]
  cases hp : t.progress with
  | staggering | queued | running => rfl
  | ended =>
    rw [hp] at h
    cases h

theorem answered?_of_isWaiting {t : Task} (h : t.progress.isWaiting = true) :
    t.answered? = none := by
  rw [answered?]
  cases hp : t.progress with
  | staggering | queued | running => rfl
  | ended =>
    rw [hp] at h
    cases h

theorem answered?_of_isOver {t : Task} (h : t.isOver = true) :
    t.answered? = if !t.isCrashed then some (t.job.relay.id, t.job.target) else none := by
  obtain ⟨ending, hp⟩ := ended_of_isOver h
  rw [answered?, isCrashed, hp]
  cases ending <;> rfl

def Act.ending? : Act → Option (Option Report)
  | did _ => none
  | ended report => some report

theorem did_ending? (deeds : List Deed) : (deeds.map Act.did).filterMap Act.ending? = [] := by
  rw [List.filterMap_map]
  exact List.filterMap_eq_nil_iff.mpr fun _ _ => rfl

theorem ended_ending? (report : Option Report) :
    [Act.ended report].filterMap Act.ending? = [report] := rfl

variable {c : Control} {wall : UInt64} {since now : Nat} {first t : Task} {world : World}

/-- A task that is over has ended once: with the report of its job, or without any if it was torn
down. -/
theorem Told.ending {done : List Act} {ending : TaskEnd}
    (h : Told c wall since first done (.ended ending)) (hf : first.progress.isWaiting = true) :
    ∃ report, done.filterMap Act.ending? = [report] ∧ (report = none ↔ ending = .crashed) ∧
      ∀ r, report = some r → r.relay = first.job.relay.id ∧ r.target = first.job.target := by
  have hjob {s₀ s : Session} {deeds : List Deed} (hb : Begins c wall since first s₀)
      (hp : Session.Path c s₀ deeds s) : s.job = first.job := by
    obtain ⟨_, -, -, rfl⟩ := hb.of_waiting hf
    exact hp.job
  cases h with
  | waiting _ hp => cases hp
  | past h =>
    rw [h] at hf
    cases hf
  | dropped =>
    refine ⟨_, rfl, by simp, fun r hr => ?_⟩
    obtain rfl := Option.some.inj hr
    exact ⟨rfl, rfl⟩
  | ran hb hp hr =>
    rename_i r
    obtain ⟨-, hrelay, htarget, -⟩ := Session.of_report? hr
    rw [Session.relay, hjob hb hp] at hrelay
    rw [hjob hb hp] at htarget
    refine ⟨some r, ?_, by simp, fun r' hr' => ?_⟩
    · rw [List.filterMap_append, did_ending?, ended_ending?, List.nil_append]
    · obtain rfl := Option.some.inj hr'
      exact ⟨hrelay, htarget⟩
  | crashed =>
    refine ⟨none, ?_, by simp, fun r hr => by cases hr⟩
    rw [List.filterMap_append, did_ending?, ended_ending?, List.nil_append]

/-- What a move reports is what the task has to answer from then on. -/
theorem answered_step (t : Task) (c : Control) (wall : UInt64) (now : Nat) (world : World)
    (ho : t.isOver = false)
    (hj : ∀ s, t.progress = .running s → s.job = t.job) :
    t.answered? = none ∧ ((t.step c wall now world).2.2.map Report.about).toList =
      ((t.step c wall now world).2.1.answered?).toList := by
  obtain ⟨worker, job, progress⟩ := t
  cases progress with
  | staggering | queued =>
    refine ⟨rfl, ?_⟩
    simp only [step, drop]
    split <;> rfl
  | running s =>
    refine ⟨rfl, ?_⟩
    have hjob : (s.step c world).2.job = job := (Session.leads_step s world c).2.1.trans (hj s rfl)
    simp only [step, follow]
    split
    · split
      · rename_i r hr
        obtain ⟨-, hrelay, htarget, -⟩ := Session.of_report? hr
        rw [Session.relay, hjob] at hrelay
        rw [hjob] at htarget
        simp [answered?, Report.about, hrelay, htarget]
      · rfl
    · rfl
  | ended => cases ho

end Task

namespace Dispatch

/-! ## Reports -/

/-- Where an element is replaced that brings nothing, what the new one brings comes to the rest. -/
theorem filterMap_set_perm {items : List α} {i : Nat} {a b : α} {f : α → Option β}
    (h : items[i]? = some a) (ha : f a = none) :
    ((items.set i b).filterMap f).Perm (items.filterMap f ++ (f b).toList) := by
  induction items generalizing i with
  | nil => cases h
  | cons x rest ih =>
    cases i with
    | zero =>
      obtain rfl : x = a := Option.some.inj h
      rw [List.set_cons_zero, List.filterMap_cons_none ha]
      cases hb : f b with
      | none => rw [List.filterMap_cons_none hb, Option.toList_none, List.append_nil]
      | some y =>
        rw [List.filterMap_cons_some hb]
        exact (List.perm_append_singleton y _).symm
    | succ i =>
      have ih := ih (i := i) h
      rw [List.set_cons_succ]
      cases hx : f x with
      | none =>
        rw [List.filterMap_cons_none hx, List.filterMap_cons_none hx]
        exact ih
      | some y =>
        rw [List.filterMap_cons_some hx, List.filterMap_cons_some hx]
        exact ih.cons y

variable {first d : Dispatch} {acts : List Act}

/-- **No report is lost or made twice.** At every moment the reports so far are about the jobs of
the tasks that are over and were not torn down. -/
theorem Trail.reports_perm (h : Trail first acts d) (hf : first.Regular)
    (hn : ∀ t ∈ first.tasks, ∀ s, t.progress ≠ .running s) :
    (first.tasks.filterMap Task.answered? ++ (reports acts).map Report.about).Perm
      (d.tasks.filterMap Task.answered?) := by
  induction h with
  | start => rw [reports, List.filterMap_nil, List.map_nil, List.append_nil]
  | move h ht hd ih =>
    rename_i acts d place task now
    obtain ⟨-, -, -, hrun⟩ := h.wireAt hf hn ht
    obtain ⟨hnone, hreport⟩ := task.answered_step d.control d.wall now d.world (of_due? hd).1
      fun s hs => (hrun s hs).2.2
    rw [reports_append, reports_acts, List.map_append, ← List.append_assoc, tasks_moved]
    refine ((ih.append_right _).trans ?_).trans (filterMap_set_perm ht hnone).symm
    rw [← hreport]
    cases (task.step d.control d.wall now d.world).2.2 <;> rfl

end Dispatch

/-! ## Cancellations -/

namespace Session

variable {c : Control} {s next : Session} {now : Nat}

theorem cancelAt_of_cutOff? (h : s.cutOff? c = some (now, .cancelled)) : c.cancelAt = some now := by
  unfold cutOff? at h
  split at h
  · cases h
  · cases h
  · obtain ⟨_, hc, he⟩ := Option.map_eq_some_iff.mp h
    obtain ⟨rfl, -⟩ := Prod.mk.inj he
    exact hc
  · split at h
    · rename_i hc
      split at h <;> cases h
      exact hc
    · cases h

/-- A session that is handing over what is left was not cancelled. -/
def Uncancelled (s : Session) : Prop := ∀ b due heeds, s.stage ≠ .salvaging b .cancelled due heeds

/-- Who is cancelled is over at once, at the instant of the cancellation. -/
theorem Comes.cancelled (h : s.Comes c now next) (hs : s.Uncancelled) :
    next.Uncancelled ∧ ∀ at_, next.stage = .ended (.abandoned .cancelled) at_ →
      c.cancelAt = some now := by
  have quits {reason : AbandonReason} (hq : next.Quits now reason) :
      next.Uncancelled ∧ ∀ at_, next.stage = .ended (.abandoned .cancelled) at_ →
        reason = .cancelled := by
    cases hq <;> simp_all [Uncancelled]
  have tries {w : Window} {retries : Nat} (ht : s.Tries now next w retries) :
      next.Uncancelled ∧ ∀ at_, next.stage = .ended (.abandoned .cancelled) at_ →
        c.cancelAt = some now := by
    cases ht <;> simp_all [Uncancelled]
  have stores {after : After} {events : List Event} (hn : next.Stores now after events) :
      next.Uncancelled ∧ ∀ at_, next.stage = .ended (.abandoned .cancelled) at_ →
        c.cancelAt = some now := by
    obtain ⟨_, _, _, hn, -⟩ := hn
    simp_all [Uncancelled]
  cases h with
  | cut hc _ hq =>
    refine ⟨(quits hq).1, fun at_ hn => ?_⟩
    obtain rfl := (quits hq).2 at_ hn
    exact cancelAt_of_cutOff? hc
  | left hs' hn =>
    rename_i reason _ _ _
    have hr : reason ≠ .cancelled := fun he => hs _ _ _ (he ▸ hs')
    simp_all [Uncancelled]
  | fails _ hq => exact ⟨(quits hq).1, fun at_ hn => nomatch (quits hq).2 at_ hn⟩
  | heeds _ _ _ hq => exact ⟨(quits hq).1, fun at_ hn => nomatch (quits hq).2 at_ hn⟩
  | retries _ hn _ => exact tries hn
  | takes _ _ _ hn _ => exact tries hn
  | fills _ hn _ => exact stores hn
  | flushes _ _ hn _ => exact stores hn
  | _ => simp_all [Uncancelled]

end Session

namespace Task

variable {c : Control} {wall : UInt64} {now : Nat} {t : Task} {world : World}

/-- A session is reported to be cancelled only once it was. -/
theorem cancelled_step (wall : UInt64) (world : World)
    (ht : ∀ s, t.progress = .running s → s.Uncancelled) {slot : Bool} {clock due : Nat}
    (hd : t.due? c slot clock = some due) (hn : due ≤ now) :
    (∀ s, (t.step c wall now world).2.1.progress = .running s → s.Uncancelled) ∧
      ∀ r, (t.step c wall now world).2.2 = some r → r.outcome = .abandoned .cancelled →
        ∃ instant, c.cancelAt = some instant ∧ instant ≤ now := by
  obtain ⟨worker, job, progress⟩ := t
  cases progress with
  | staggering | queued =>
    simp only [step, drop]
    split <;> simp [Report.notStarted, Session.Uncancelled, Session.start]
  | running s =>
    have hd : s.due? c = some due := hd
    obtain ⟨due', hd', hcomes⟩ := Session.comes_step (Session.isOver_of_due? hd) c world
    obtain rfl := Option.some.inj (hd.symm.trans hd')
    obtain ⟨huncancelled, hcancelled⟩ := hcomes.cancelled (ht s rfl)
    simp only [step, follow]
    split
    · split
      · rename_i r hr
        refine ⟨(fun s hs => by cases hs), fun r' hr' ho => ?_⟩
        obtain rfl := Option.some.inj hr'
        obtain ⟨⟨at_, hstage⟩, -⟩ := Session.of_report? hr
        rw [ho] at hstage
        exact ⟨due, hcancelled at_ hstage, hn⟩
      · exact ⟨(fun s hs => by cases hs), fun r hr => by cases hr⟩
    · refine ⟨fun s hs => ?_, fun r hr => by cases hr⟩
      obtain rfl := Progress.running.inj hs
      exact huncancelled
  | ended => cases hd

end Task

namespace Dispatch

variable {first d : Dispatch} {acts : List Act}

/-- **Nobody is reported to be cancelled before the cancellation.** -/
theorem Trail.cancelled (h : Trail first acts d)
    (hn : ∀ t ∈ first.tasks, ∀ s, t.progress ≠ .running s) :
    (∀ t ∈ d.tasks, ∀ s, t.progress = .running s → s.Uncancelled) ∧
      ∀ r ∈ reports acts, r.outcome = .abandoned .cancelled →
        ∃ instant, first.control.cancelAt = some instant ∧ instant ≤ d.clock := by
  induction h with
  | start => exact ⟨fun t ht s hs => absurd hs (hn t ht s), fun r hr => by cases hr⟩
  | move h ht hd ih =>
    rename_i acts d place task now
    obtain ⟨hquiet, hearly⟩ := ih
    obtain ⟨due, hdue, rfl⟩ := Option.map_eq_some_iff.mp hd
    obtain ⟨hstep, hreport⟩ := Task.cancelled_step d.wall d.world
      (hquiet task (List.mem_of_getElem? ht)) hdue (Nat.le_max_right d.clock due)
    rw [tasks_moved, (moved_keeps ..).2.2.2]
    refine ⟨fun t hm => ?_, fun r hr ho => ?_⟩
    · rcases List.mem_or_eq_of_mem_set hm with hm | rfl
      · exact hquiet t hm
      · exact hstep
    · rw [reports_append, reports_acts] at hr
      rcases List.mem_append.mp hr with hr | hr
      · obtain ⟨instant, hc, hle⟩ := hearly r hr ho
        exact ⟨instant, hc, Nat.le_trans hle (Nat.le_max_left ..)⟩
      · rw [← h.keeps.2.1]
        exact hreport r (Option.mem_toList.mp hr) ho

/-! ## Handles -/

def Act.closes (worker : Nat) : Act → Bool
  | closed w => w == worker
  | task .. => false

theorem countP_closes_task (worker place : Nat) (done : List Task.Act) :
    (done.map (Act.task place)).countP (Act.closes worker) = 0 := by
  rw [List.countP_map]
  exact List.countP_eq_zero.mpr fun _ _ => Bool.false_ne_true

/-- A move leaves the handles as they are, or closes that of its worker, whose tasks are all
over. -/
theorem closes_moved (d : Dispatch) (place : Nat) (task : Task) (now : Nat) :
    d.acts place task now = (task.acts d.control d.wall now d.world).map (.task place) ∧
        (d.moved place task now).handles = d.handles ∧
        (d.moved place task now).world = (task.step d.control d.wall now d.world).1 ∨
      d.acts place task now =
          (task.acts d.control d.wall now d.world).map (.task place) ++ [.closed task.worker] ∧
        task.worker ∈ d.handles ∧
        (d.moved place task now).handles = d.handles.erase task.worker ∧
        (d.moved place task now).world.sink =
          (task.step d.control d.wall now d.world).1.sink.close ∧
        ∀ t ∈ (d.moved place task now).tasks, t.worker = task.worker → t.isOver = true := by
  simp only [acts]
  rw [tasks_moved, moved_eq, release]
  split
  · rename_i hc
    obtain ⟨hm, hall⟩ := hc
    have hm : task.worker ∈ d.handles := by simpa using hm
    refine .inr ⟨?_, hm, rfl, rfl, fun t ht hw => ?_⟩
    · rw [if_neg]
      intro he
      have hlen := congrArg List.length he
      have hpos := List.length_pos_of_mem hm
      simp only [List.length_erase, hm, if_true] at hlen
      omega
    · simpa [hw] using List.all_eq_true.mp hall t ht
  · exact .inl ⟨by simp, rfl, rfl⟩

/-- A handle is closed or still open. -/
theorem Trail.closings (h : Trail first acts d) (worker : Nat) :
    acts.countP (Act.closes worker) + d.handles.count worker = first.handles.count worker := by
  induction h with
  | start => rw [List.countP_nil, Nat.zero_add]
  | move h ht hd ih =>
    rename_i acts d place task now
    rw [List.countP_append]
    rcases closes_moved d place task now with ⟨ha, hhandles, -⟩ | ⟨ha, hm, hhandles, -⟩
    · rw [ha, hhandles, countP_closes_task]
      exact ih
    · rw [ha, hhandles, List.countP_append, countP_closes_task, List.count_erase,
        List.countP_singleton]
      by_cases hw : task.worker = worker
      · subst hw
        have hpos := List.count_pos_iff.mpr hm
        simp only [Act.closes, beq_self_eq_true, if_true]
        omega
      · simp only [Act.closes, beq_eq_false_iff_ne.mpr hw, Bool.false_eq_true, if_false]
        omega

/-- The worker of the task at a place. -/
def workerAt (d : Dispatch) (place : Nat) : Option Nat := d.tasks[place]?.map Task.worker

theorem workerAt_moved {place : Nat} {task : Task} {now : Nat} (ht : d.tasks[place]? = some task)
    (other : Nat) : (d.moved place task now).workerAt other = d.workerAt other := by
  rw [workerAt, workerAt, tasks_moved]
  by_cases he : place = other
  · subst he
    obtain ⟨hlt, -⟩ := List.getElem?_eq_some_iff.mp ht
    rw [List.getElem?_set_self hlt, ht, Option.map_some, Option.map_some,
      (task.job_step d.control d.wall now d.world).2]
  · rw [List.getElem?_set_ne he]

theorem Trail.workerAt (h : Trail first acts d) (place : Nat) :
    d.workerAt place = first.workerAt place := by
  induction h with
  | start => rfl
  | move _ ht _ ih => rw [workerAt_moved ht, ih]

/-- Not an act of a task whose worker has closed its handle before. -/
def InTime (first : Dispatch) (a b : Act) : Prop :=
  ∀ worker place act, a = .closed worker → b = .task place act →
    first.workerAt place ≠ some worker

theorem place_of_mem_acts {place p : Nat} {task : Task} {now : Nat} {act : Task.Act}
    (h : .task p act ∈ d.acts place task now) : p = place := by
  have htask (h : .task p act ∈ (task.acts d.control d.wall now d.world).map (Act.task place)) :
      p = place := by
    obtain ⟨_, -, he⟩ := List.mem_map.mp h
    exact (Act.task.inj he).1.symm
  rcases closes_moved d place task now with ⟨ha, -⟩ | ⟨ha, -⟩
  · exact htask (ha ▸ h)
  · rw [ha] at h
    rcases List.mem_append.mp h with h | h
    · exact htask h
    · cases List.mem_singleton.mp h

/-- Within a move nothing comes after the end of the handle. -/
theorem pairwise_acts (first : Dispatch) (place : Nat) (task : Task) (now : Nat) :
    (d.acts place task now).Pairwise first.InTime := by
  have htask : ((task.acts d.control d.wall now d.world).map (Act.task place)).Pairwise
      first.InTime :=
    List.pairwise_map.mpr (List.pairwise_of_forall fun _ _ _ _ _ ha => by cases ha)
  rcases closes_moved d place task now with ⟨ha, -⟩ | ⟨ha, -⟩
  · exact ha ▸ htask
  · rw [ha]
    refine List.pairwise_append.mpr ⟨htask, List.pairwise_singleton _ _, ?_⟩
    intro a ha b _ worker p act he
    obtain ⟨_, -, rfl⟩ := List.mem_map.mp ha
    cases he

/-- A worker that has closed its handle has nothing left to do. -/
theorem Trail.over_of_closed (h : Trail first acts d) {worker : Nat}
    (hc : 0 < acts.countP (Act.closes worker)) :
    ∀ t ∈ d.tasks, t.worker = worker → t.isOver = true := by
  induction h with
  | start => cases hc
  | move h ht hd ih =>
    rename_i acts d place task now
    have hrest (hpos : 0 < acts.countP (Act.closes worker)) :
        ∀ t ∈ (d.moved place task now).tasks, t.worker = worker → t.isOver = true := by
      intro t hm hw
      rw [tasks_moved] at hm
      rcases List.mem_or_eq_of_mem_set hm with hm | rfl
      · exact ih hpos t hm hw
      · -- the task that moves was not over, so it is not one of that worker
        rw [(task.job_step d.control d.wall now d.world).2] at hw
        have hover := ih hpos task (List.mem_of_getElem? ht) hw
        rw [(of_due? hd).1] at hover
        cases hover
    rw [List.countP_append] at hc
    rcases closes_moved d place task now with ⟨ha, -⟩ | ⟨ha, -, -, -, hall⟩
    · rw [ha, countP_closes_task] at hc
      exact hrest hc
    · rw [ha, List.countP_append, countP_closes_task, List.countP_singleton] at hc
      by_cases hw : task.worker = worker
      · exact hw ▸ hall
      · refine hrest ?_
        simp only [Act.closes, beq_eq_false_iff_ne.mpr hw, Bool.false_eq_true, if_false] at hc
        omega

/-- **A handle is closed after the last act of its worker's tasks.** -/
theorem Trail.closed_last (h : Trail first acts d) : acts.Pairwise first.InTime := by
  induction h with
  | start => exact .nil
  | move h ht hd ih =>
    rename_i acts d place task now
    refine List.pairwise_append.mpr ⟨ih, pairwise_acts first place task now, ?_⟩
    rintro a ha b hb worker p act rfl rfl hw
    obtain rfl := place_of_mem_acts hb
    have hc : 0 < acts.countP (Act.closes worker) :=
      List.countP_pos_iff.mpr ⟨_, ha, beq_self_eq_true worker⟩
    rw [← h.workerAt, Dispatch.workerAt, ht] at hw
    have hover := h.over_of_closed hc task (List.mem_of_getElem? ht) (Option.some.inj hw)
    rw [(of_due? hd).1] at hover
    cases hover

end Dispatch

/-- How often a depot was closed, if it counts that. -/
def Depot.closings : Depot → Option Nat
  | memory sink => some sink.closed
  | store _ => none

theorem Depot.closings_insert (b : Batch) (depot : Depot) :
    (depot.insert b).1.closings = depot.closings := by
  cases depot with
  | memory sink =>
    simp only [insert, MemorySink.insert, closings]
    split
    · rfl
    · split <;> rfl
  | store events => rfl

theorem Depot.closings_close (depot : Depot) :
    depot.close.closings = depot.closings.map (· + 1) := by
  cases depot <;> rfl

def World.closings (world : World) : Option Nat := world.sink.depot.closings

/-- No session closes the sink. -/
theorem World.Moves.closings {relay : RelayId} {a b : World} (h : Moves relay a b) :
    b.closings = a.closings := by
  induction h with
  | refl => rfl
  | tail _ hm ih =>
    rw [← ih]
    cases hm with
    | hand =>
      simp only [World.closings, World.hand, Sink.hand]
      split <;> rfl
    | take b refusal =>
      cases refusal with
      | some fault => rfl
      | none => exact Depot.closings_insert b _
    | _ => rfl

theorem Task.closings_step (t : Task) (c : Control) (wall : UInt64) (now : Nat) (world : World) :
    (t.step c wall now world).1.closings = world.closings := by
  rw [step]
  cases t.progress with
  | running s => exact (Session.leads_step s world c).1.closings
  | _ => rfl

namespace Dispatch

variable {first d : Dispatch} {acts : List Act}

def Act.isClosing : Act → Bool
  | closed _ => true
  | task .. => false

/-- The sink is closed once for each handle. -/
theorem Trail.closings_world (h : Trail first acts d) :
    acts.countP Act.isClosing + d.handles.length = first.handles.length ∧
      d.world.closings = first.world.closings.map (· + acts.countP Act.isClosing) := by
  induction h with
  | start => simp
  | move h ht hd ih =>
    rename_i acts d place task now
    obtain ⟨hlength, hworld⟩ := ih
    have hstep := task.closings_step d.control d.wall now d.world
    have htask : ((task.acts d.control d.wall now d.world).map (Act.task place)).countP
        Act.isClosing = 0 := by
      rw [List.countP_map]
      exact List.countP_eq_zero.mpr fun _ _ => Bool.false_ne_true
    rw [List.countP_append]
    rcases closes_moved d place task now with ⟨ha, hh, hw⟩ | ⟨ha, hm, hh, hw, -⟩
    · rw [ha, hh, hw, hstep, htask]
      exact ⟨hlength, hworld⟩
    · have hpos := List.length_pos_of_mem hm
      have hclosed : [Act.closed task.worker].countP Act.isClosing = 1 := rfl
      rw [ha, hh, List.countP_append, htask, hclosed, List.length_erase_of_mem hm]
      refine ⟨by omega, ?_⟩
      have hmore : (d.moved place task now).world.closings = d.world.closings.map (· + 1) := by
        rw [World.closings, hw, Sink.close, Depot.closings_close, ← World.closings, hstep]
      rw [hmore, hworld, Option.map_map]
      rfl

/-! ## Shares -/

/-- Each item of a list of lists is replaced by the number of its list. -/
def blocks (k : Nat) (shards : List (List α)) : List Nat :=
  (shards.zipIdx k).flatMap fun (shard, worker) => shard.map fun _ => worker

theorem blocks_cons (k : Nat) (shard : List α) (rest : List (List α)) :
    blocks k (shard :: rest) = List.replicate shard.length k ++ blocks (k + 1) rest := by
  rw [blocks, List.zipIdx_cons, List.flatMap_cons]
  dsimp only
  rw [List.map_const', blocks]

theorem le_of_mem_blocks {k worker : Nat} {shards : List (List α)} (h : worker ∈ blocks k shards) :
    k ≤ worker := by
  simp only [blocks, List.mem_flatMap, List.mem_map, Prod.exists] at h
  obtain ⟨shard, w, hm, _, -, rfl⟩ := h
  exact List.le_snd_of_mem_zipIdx hm

theorem eraseDups_blocks {k : Nat} {shards : List (List α)} (hn : ∀ shard ∈ shards, shard ≠ []) :
    (blocks k shards).eraseDups = (shards.zipIdx k).map (·.2) := by
  induction shards generalizing k with
  | nil => rfl
  | cons shard rest ih =>
    obtain ⟨hshard, hrest⟩ := List.forall_mem_cons.mp hn
    obtain ⟨a, more, rfl⟩ := List.exists_cons_of_ne_nil hshard
    rw [blocks_cons, List.length_cons, List.replicate_succ, List.cons_append, List.eraseDups_cons,
      List.filter_append, List.zipIdx_cons, List.map_cons, ← ih hrest]
    congr 2
    have hsame : (List.replicate more.length k).filter (fun b => !b == k) = [] :=
      List.filter_eq_nil_iff.mpr fun b hb => by simp [List.eq_of_mem_replicate hb]
    have hother : (blocks (k + 1) rest).filter (fun b => !b == k) = blocks (k + 1) rest :=
      List.filter_eq_self.mpr fun b hb => by
        have := le_of_mem_blocks hb
        simp
        omega
    rw [hsame, hother, List.nil_append]

theorem count_blocks {k worker : Nat} {shard : List α} {shards : List (List α)}
    (h : (shard, worker) ∈ shards.zipIdx k) : (blocks k shards).count worker = shard.length := by
  induction shards generalizing k with
  | nil => cases h
  | cons first rest ih =>
    rw [blocks_cons, List.count_append]
    rw [List.zipIdx_cons] at h
    rcases List.mem_cons.mp h with h | h
    · obtain ⟨rfl, rfl⟩ := Prod.mk.inj h
      have hnone : (blocks (worker + 1) rest).count worker = 0 :=
        List.count_eq_zero.mpr fun hm => by
          have := le_of_mem_blocks hm
          omega
      rw [hnone, List.count_replicate_self, Nat.add_zero]
    · have hlt := List.le_snd_of_mem_zipIdx h
      have hnone : (List.replicate first.length k).count worker = 0 :=
        List.count_eq_zero.mpr fun hm => by
          have := List.eq_of_mem_replicate hm
          simp only at hlt
          omega
      rw [hnone, ih h, Nat.zero_add]

theorem filterMap_eq_map_filter {items : List α} {f : α → Option β} {p : α → Bool} {g : α → β}
    (h : ∀ a ∈ items, f a = if p a then some (g a) else none) :
    items.filterMap f = (items.filter p).map g := by
  induction items with
  | nil => rfl
  | cons a rest ih =>
    obtain ⟨ha, hrest⟩ := List.forall_mem_cons.mp h
    rw [List.filterMap_cons, List.filter_cons, ha, ih hrest]
    cases p a <;> rfl

/-- Where an element is replaced by one with the same image, the images stay. -/
theorem map_set_same {items : List α} {i : Nat} {a b : α} {f : α → β} (h : items[i]? = some a)
    (hf : f b = f a) : (items.set i b).map f = items.map f := by
  induction items generalizing i with
  | nil => rfl
  | cons x rest ih =>
    cases i with
    | zero =>
      obtain rfl : x = a := Option.some.inj h
      rw [List.set_cons_zero, List.map_cons, List.map_cons, hf]
    | succ i => rw [List.set_cons_succ, List.map_cons, List.map_cons, ih h]

theorem Trail.posts (h : Trail first acts d) :
    d.tasks.map (fun t => (t.worker, t.job)) = first.tasks.map fun t => (t.worker, t.job) := by
  induction h with
  | start => rfl
  | move _ ht _ ih =>
    obtain ⟨hjob, hworker⟩ := Task.job_step ..
    rw [tasks_moved, map_set_same ht (by rw [hjob, hworker]), ih]

/-- Where all tasks of a dispatch are over, the parts of a share add up to the tasks of its
worker. -/
theorem share_sum (hover : ∀ t ∈ d.tasks, t.isOver = true) (worker : Nat) :
    d.ended worker .ran + d.ended worker .notStarted + d.ended worker .crashed =
      (d.tasks.map Task.worker).count worker := by
  simp only [ended, ← List.countP_eq_length_filter]
  rw [List.count, List.countP_map]
  generalize d.tasks = tasks at hover
  induction tasks with
  | nil => rfl
  | cons t rest ih =>
    obtain ⟨ht, hrest⟩ := List.forall_mem_cons.mp hover
    have ih := ih hrest
    simp only [List.countP_cons]
    obtain ⟨ending, hp⟩ := Task.ended_of_isOver ht
    by_cases hw : t.worker = worker
    · cases ending <;> simp [hw, hp] <;> omega
    · simp [hw]
      omega

/-! ## At the end -/

section

variable {jobs : List Job} {workers limit : Nat} {pause : Nat → Nat → Nat} {refused : List Nat}
  {control : Control} {wall : UInt64} {now : Nat} {world : World}

theorem workers_begin :
    (begin_ jobs workers limit pause refused control wall now world).1.tasks.map Task.worker =
      blocks 0 (Shard.deal workers jobs) := by
  simp only [begin_, blocks, List.map_flatMap, List.map_map]
  refine congrArg (List.flatMap · _) (funext fun entry => ?_)
  obtain ⟨shard, worker⟩ := entry
  simp only [Function.comp_def, List.map_const', List.length_zipIdx]

/-- At the beginning the tasks of a worker without a sink are over, and the others wait. -/
theorem progress_begin {t : Task}
    (h : t ∈ (begin_ jobs workers limit pause refused control wall now world).1.tasks) :
    t.worker ∈ refused ∧ t.progress = .ended .notStarted ∨
      t.worker ∉ refused ∧ t.progress.isWaiting = true := by
  simp only [begin_, List.mem_flatMap, List.mem_map, Prod.exists] at h
  obtain ⟨shard, worker, -, job, place, -, rfl⟩ := h
  by_cases hr : worker ∈ refused <;> simp [hr, Progress.isWaiting]

/-- What has become of the jobs of a dispatch when all is over. -/
structure Settled (jobs : List Job) (workers : Nat) (refused : List Nat)
    (begun : Dispatch × List Report) (acts : List Act) (d : Dispatch) : Prop where
  /-- Each job has its task. -/
  dealt : (d.tasks.map Task.job).Perm jobs
  /-- A task whose worker has a sink ends once, with a report of its job or, if it was torn down,
  without. -/
  once : ∀ (place : Nat) (t : Task), d.tasks[place]? = some t → t.worker ∉ refused →
    ∃ ending report, t.progress = .ended ending ∧
      (doneAt place acts).filterMap Task.Act.ending? = [report] ∧
      (report = none ↔ ending = .crashed) ∧
      ∀ r, report = some r → r.relay = t.job.relay.id ∧ r.target = t.job.target
  /-- A task whose worker has none does nothing at all. -/
  idle : ∀ (place : Nat) (t : Task), d.tasks[place]? = some t → t.worker ∈ refused →
    t.progress = .ended .notStarted ∧ doneAt place acts = []
  /-- Its job was reported at the beginning. -/
  refusals : begun.2 =
    (d.tasks.filter fun t => refused.contains t.worker).map fun t => .notStarted t.job
  /-- All in all there is one report for each task that was not torn down. -/
  total : ((begun.2 ++ reports acts).map Report.about).Perm
    ((d.tasks.filter fun t => !t.isCrashed).map fun t => (t.job.relay.id, t.job.target))
  shares : d.shares.map (fun s => (s.worker, s.started + s.notStarted + s.crashed)) =
    (Shard.deal workers jobs).zipIdx.map fun (shard, worker) => (worker, shard.length)
  /-- Handles are opened for the workers that have a sink, and each is closed once. -/
  closed : ∀ worker, acts.countP (Act.closes worker) =
    if worker < (Shard.deal workers jobs).length ∧ worker ∉ refused then 1 else 0
  /-- No task of a worker does anything after that. -/
  last : acts.Pairwise begun.1.InTime
  /-- The sink sees as many of them being closed. -/
  sink : d.world.closings = begun.1.world.closings.map (· + begun.1.handles.length)

/-- What was refused at the beginning, and what it is about. -/
theorem refusals_begin :
    (begin_ jobs workers limit pause refused control wall now world).2 =
      ((begin_ jobs workers limit pause refused control wall now world).1.tasks.filter
        fun t => refused.contains t.worker).map fun t => .notStarted t.job := by
  let begun := begin_ jobs workers limit pause refused control wall now world
  refine congrArg (List.map _) (List.filter_congr fun t (ht : t ∈ begun.1.tasks) => ?_)
  rcases progress_begin ht with ⟨hr, hp⟩ | ⟨hr, hp⟩
  · rw [Task.isOver, hp, List.contains_iff_mem.mpr hr]
  · rw [Task.isOver_of_isWaiting hp]
    simpa using hr

theorem answered_begin :
    (begin_ jobs workers limit pause refused control wall now world).2.map Report.about =
      (begin_ jobs workers limit pause refused control wall now world).1.tasks.filterMap
        Task.answered? := by
  rw [refusals_begin, List.map_map]
  refine (filterMap_eq_map_filter fun t ht => ?_).symm
  rcases progress_begin ht with ⟨hr, hp⟩ | ⟨hr, hp⟩
  · rw [Task.answered?, hp, if_pos (List.contains_iff_mem.mpr hr)]
    rfl
  · rw [Task.answered?_of_isWaiting hp, if_neg (hr ∘ List.contains_iff_mem.mp)]

namespace Trail

variable (h : Trail (begin_ jobs workers limit pause refused control wall now world).1 acts d)

include h

theorem workers_dealt : d.tasks.map Task.worker = blocks 0 (Shard.deal workers jobs) := by
  have hworkers := congrArg (List.map Prod.fst) h.posts
  simp only [List.map_map] at hworkers
  exact hworkers.trans workers_begin

theorem jobs_dealt : d.tasks.map Task.job = (Shard.deal workers jobs).flatten := by
  have hjobs := congrArg (List.map Prod.snd) h.posts
  simp only [List.map_map] at hjobs
  exact hjobs.trans (jobs_begin ..)

theorem refusals :
    (begin_ jobs workers limit pause refused control wall now world).2 =
      (d.tasks.filter fun t => refused.contains t.worker).map fun t => .notStarted t.job := by
  have hposts (tasks : List Task) : (tasks.filter fun t => refused.contains t.worker).map
        (fun t => Report.notStarted t.job) =
      ((tasks.map fun t => (t.worker, t.job)).filter fun post => refused.contains post.1).map
        fun post => .notStarted post.2 := by
    rw [List.filter_map, List.map_map]
    rfl
  rw [refusals_begin, hposts, hposts, h.posts]

/-- What becomes of a task whose worker has a sink. -/
theorem once (hover : ∀ t ∈ d.tasks, t.isOver = true) {place : Nat} {t : Task}
    (ht : d.tasks[place]? = some t) (hw : t.worker ∉ refused) :
    ∃ ending report, t.progress = .ended ending ∧
      (doneAt place acts).filterMap Task.Act.ending? = [report] ∧
      (report = none ↔ ending = .crashed) ∧
      ∀ r, report = some r → r.relay = t.job.relay.id ∧ r.target = t.job.target := by
  obtain ⟨t₀, hp, hj, hworker, htold⟩ := h.toldAt regular_begin ht
  have hwait : t₀.progress.isWaiting = true :=
    ((progress_begin (List.mem_of_getElem? hp)).resolve_left fun hr => hw (hworker ▸ hr.1)).2
  obtain ⟨ending, he⟩ := Task.ended_of_isOver (hover t (List.mem_of_getElem? ht))
  rw [he] at htold
  obtain ⟨report, hone, hcrash, habout⟩ := htold.ending hwait
  exact ⟨ending, report, he, hone, hcrash, hj ▸ habout⟩

/-- What becomes of a task whose worker has none. -/
theorem idle {place : Nat} {t : Task} (ht : d.tasks[place]? = some t) (hw : t.worker ∈ refused) :
    t.progress = .ended .notStarted ∧ doneAt place acts = [] := by
  obtain ⟨t₀, hp, -, hworker, htold⟩ := h.toldAt regular_begin ht
  have hended := ((progress_begin (List.mem_of_getElem? hp)).resolve_right
    fun hr => hr.1 (hworker ▸ hw)).2
  exact htold.of_ended hended

/-- The handles that were opened are closed at the end, each of them once. -/
theorem closed_once (hhandles : d.handles = []) (worker : Nat) :
    acts.countP (Act.closes worker) =
      if worker < (Shard.deal workers jobs).length ∧ worker ∉ refused then 1 else 0 := by
  have hclosings := h.closings worker
  rw [hhandles, List.count_nil, Nat.add_zero] at hclosings
  rw [hclosings]
  by_cases hm : worker ∈ (begin_ jobs workers limit pause refused control wall now world).1.handles
  · rw [if_pos (mem_handles_begin.mp hm)]
    exact regular_begin.nodup.count.trans (if_pos hm)
  · rw [if_neg (hm ∘ mem_handles_begin.mpr)]
    exact List.count_eq_zero.mpr hm

/-- **No job is lost or reported twice**, whoever moves next and whatever the relays do. -/
theorem settled (hd : d.step? = none) :
    Settled jobs workers refused (begin_ jobs workers limit pause refused control wall now world)
      acts d := by
  obtain ⟨hover, hhandles⟩ := (h.regular regular_begin).rest hd
  constructor
  case dealt =>
    rw [h.jobs_dealt]
    exact Shard.deal_perm workers jobs
  case once => exact fun place t ht hw => h.once hover ht hw
  case idle => exact fun place t ht hw => h.idle ht hw
  case refusals => exact h.refusals
  case total =>
    have hanswered := filterMap_eq_map_filter fun t ht => Task.answered?_of_isOver (hover t ht)
    rw [List.map_append, answered_begin, ← hanswered]
    exact h.reports_perm regular_begin fun t ht => (mem_tasks_begin ht).2
  case shares =>
    rw [shares, List.map_map, h.workers_dealt,
      eraseDups_blocks fun shard hs => Shard.ne_nil_of_mem_deal hs, List.map_map]
    refine List.map_congr_left fun entry he => ?_
    obtain ⟨shard, worker⟩ := entry
    simp only [Function.comp_apply]
    rw [share_sum hover, h.workers_dealt, count_blocks he]
  case closed => exact h.closed_once hhandles
  case last => exact h.closed_last
  case sink =>
    obtain ⟨hlength, hsink⟩ := h.closings_world
    rw [hhandles, List.length_nil, Nat.add_zero] at hlength
    rw [hsink, hlength]

end Trail

end

end Dispatch

end Harvest
