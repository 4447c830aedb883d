import Harvest.Proofs.Dispatch.Tasks
import Harvest.Proofs.Session.Deeds
import Harvest.Proofs.Shard.Deal

/-! Moves of the tasks of a dispatch in any order. Whichever task moves next, the others stand still
meanwhile, so what one task does can be read off the trail of all of them: it waits, has a session,
and ends once. No such trail goes on for ever, and the run of a dispatch is one of them. -/

namespace Harvest

/-- The session was not begun, and may still be. -/
def Progress.isWaiting : Progress → Bool
  | staggering _ | queued _ => true
  | _ => false

namespace Task

inductive Act
  | did (deed : Deed)
  /-- The task is over, with a report unless it was torn down. -/
  | ended (report : Option Report)

/-- What a task does in a move: the deeds of its session, and its end. -/
def acts (t : Task) (c : Control) (wall : UInt64) (now : Nat) (world : World) : List Act :=
  (match t.progress with
    | .running s => (s.deeds (s.step c world).2).map .did
    | _ => []) ++
  if (t.step c wall now world).2.1.isOver then [.ended (t.step c wall now world).2.2] else []

/-- The session that a task has, or one that it may begin from an instant on, before it is to
stop. -/
inductive Begins (c : Control) (wall : UInt64) (since : Nat) (first : Task) : Session → Prop
  | had {s : Session} (h : first.progress = .running s) : Begins c wall since first s
  | begun {now : Nat} (h : first.progress.isWaiting = true) (hs : since ≤ now)
      (hc : c.stopAt?.any (· ≤ now) = false) :
      Begins c wall since first (.start first.job wall now)

/-- What a task can have done when it has come so far. -/
inductive Told (c : Control) (wall : UInt64) (since : Nat) (first : Task) :
    List Act → Progress → Prop
  | waiting {progress : Progress} (h : first.progress.isWaiting = true)
      (hp : progress.isWaiting = true) : Told c wall since first [] progress
  | running {s₀ s : Session} {deeds : List Deed} (hb : Begins c wall since first s₀)
      (hp : Session.Path c s₀ deeds s) (ho : s.isOver = false) :
      Told c wall since first (deeds.map .did) (.running s)
  | past {ending : TaskEnd} (h : first.progress = .ended ending) :
      Told c wall since first [] (.ended ending)
  | dropped (h : first.progress.isWaiting = true) :
      Told c wall since first [.ended (some (.notStarted first.job))] (.ended .notStarted)
  | ran {s₀ s : Session} {deeds : List Deed} {r : Report} (hb : Begins c wall since first s₀)
      (hp : Session.Path c s₀ deeds s) (hr : s.report? = some r) :
      Told c wall since first (deeds.map .did ++ [.ended (some r)]) (.ended .ran)
  | crashed {s₀ s : Session} {deeds : List Deed} (hb : Begins c wall since first s₀)
      (hp : Session.Path c s₀ deeds s) (ho : s.isOver = true) (hr : s.report? = none) :
      Told c wall since first (deeds.map .did ++ [.ended none]) (.ended .crashed)

variable {c : Control} {wall : UInt64} {since : Nat} {first t : Task}

theorem ended_of_isOver (h : t.isOver = true) : ∃ ending, t.progress = .ended ending := by
  rw [isOver] at h
  split at h
  · exact ⟨_, ‹_›⟩
  · cases h

theorem Begins.of_waiting {s : Session} (hb : Begins c wall since first s)
    (hf : first.progress.isWaiting = true) :
    ∃ now, since ≤ now ∧ c.stopAt?.any (· ≤ now) = false ∧ s = .start first.job wall now := by
  cases hb with
  | had h =>
    rw [h] at hf
    cases hf
  | begun _ hs hc => exact ⟨_, hs, hc, rfl⟩

theorem Begins.of_running {s₀ s : Session} (hb : Begins c wall since first s)
    (hf : first.progress = .running s₀) : s = s₀ := by
  cases hb with
  | had h => exact Progress.running.inj (h.symm.trans hf)
  | begun h =>
    rw [hf] at h
    cases h

theorem not_begins_of_ended {s : Session} {ending : TaskEnd}
    (hf : first.progress = .ended ending) : ¬ Begins c wall since first s := by
  intro hb
  cases hb with
  | had h | begun h =>
    rw [hf] at h
    cases h

/-- A task that was over from the beginning does nothing. -/
theorem Told.of_ended {done : List Act} {progress : Progress} {ending : TaskEnd}
    (h : Told c wall since first done progress) (hf : first.progress = .ended ending) :
    progress = .ended ending ∧ done = [] := by
  cases h with
  | waiting h | dropped h =>
    rw [hf] at h
    cases h
  | running hb | ran hb | crashed hb => exact absurd hb (not_begins_of_ended hf)
  | past h => exact ⟨h.symm.trans hf, rfl⟩

theorem job_step (t : Task) (c : Control) (wall : UInt64) (now : Nat) (world : World) :
    (t.step c wall now world).2.1.job = t.job ∧
      (t.step c wall now world).2.1.worker = t.worker := by
  obtain ⟨worker, job, progress⟩ := t
  generalize hn : Task.step _ c wall now world = next
  have hg := hn ▸ Task.goes c wall now world _
  cases hg <;> exact ⟨rfl, rfl⟩

/-- Who reports is over. -/
theorem report_step (t : Task) {c : Control} {wall : UInt64} {now : Nat} {world : World}
    (h : (t.step c wall now world).2.1.isOver = false) :
    (t.step c wall now world).2.2 = none := by
  obtain ⟨worker, job, progress⟩ := t
  generalize hn : Task.step _ c wall now world = next at h ⊢
  have hg := hn ▸ Task.goes c wall now world _
  cases hg <;> first | rfl | cases h

theorem told_start (h : ∀ s, first.progress = .running s → s.isOver = false) :
    Told c wall since first [] first.progress := by
  cases hp : first.progress with
  | staggering | queued => exact .waiting (hp ▸ rfl) rfl
  | running s => exact .running (.had hp) .start (h s hp)
  | ended ending => exact .past hp

/-- A move of a session, which goes on, ends with a report or is torn down. -/
theorem acts_running (c : Control) (wall : UInt64) {s : Session} (hp : t.progress = .running s)
    (now : Nat) (world : World) :
    let next := (s.step c world).2
    next.isOver = false ∧ t.acts c wall now world = (s.deeds next).map .did ∧
        (t.step c wall now world).2.1.progress = .running next ∨
      (∃ r, next.report? = some r ∧
        t.acts c wall now world = (s.deeds next).map .did ++ [.ended (some r)] ∧
        (t.step c wall now world).2.1.progress = .ended .ran) ∨
      next.isOver = true ∧ next.report? = none ∧
        t.acts c wall now world = (s.deeds next).map .did ++ [.ended none] ∧
        (t.step c wall now world).2.1.progress = .ended .crashed := by
  intro next
  have hnext : next = (s.step c world).2 := rfl
  simp only [acts, step, hp, follow, ← hnext]
  cases ho : next.isOver with
  | false => exact .inl ⟨rfl, by simp [isOver], rfl⟩
  | true =>
    cases hr : next.report? with
    | some r => exact .inr (.inl ⟨r, rfl, rfl, rfl⟩)
    | none => exact .inr (.inr ⟨rfl, rfl, rfl, rfl⟩)

/-- A move of a task that waits: it waits on, begins its session or is dropped. -/
theorem acts_waiting (c : Control) (wall : UInt64) (h : t.progress.isWaiting = true) (now : Nat)
    (world : World) :
    c.stopAt?.any (· ≤ now) = false ∧ t.acts c wall now world = [] ∧
        ((t.step c wall now world).2.1.progress.isWaiting = true ∨
          (t.step c wall now world).2.1.progress = .running (.start t.job wall now)) ∨
      c.stopAt?.any (· ≤ now) = true ∧
        t.acts c wall now world = [.ended (some (.notStarted t.job))] ∧
        (t.step c wall now world).2.1.progress = .ended .notStarted := by
  obtain ⟨worker, job, progress⟩ := t
  cases progress with
  | staggering due | queued since =>
    cases hc : c.stopAt?.any (· ≤ now) <;>
      simp [acts, step, drop, hc, isOver, Progress.isWaiting]
  | running | ended => cases h

/-- What a task has done, one move later. -/
theorem Told.step {done : List Act} (h : Told c wall since first done t.progress)
    (hj : t.job = first.job) {now : Nat} (hs : since ≤ now) (hover : t.isOver = false)
    (world : World) :
    Told c wall since first (done ++ t.acts c wall now world)
      (t.step c wall now world).2.1.progress := by
  generalize hp : t.progress = progress at h
  have go {s₀ s : Session} {deeds : List Deed} (hb : Begins c wall since first s₀)
      (hpath : Session.Path c s₀ deeds s) (ho : s.isOver = false) (hp : t.progress = .running s) :
      Told c wall since first (deeds.map .did ++ t.acts c wall now world)
        (t.step c wall now world).2.1.progress := by
    have hnext := hpath.step ho world
    rcases acts_running c wall hp now world with
      ⟨ho', ha, hp'⟩ | ⟨r, hr, ha, hp'⟩ | ⟨ho', hr, ha, hp'⟩
    · rw [ha, hp', ← List.map_append]
      exact .running hb hnext ho'
    · rw [ha, hp', ← List.append_assoc, ← List.map_append]
      exact .ran hb hnext hr
    · rw [ha, hp', ← List.append_assoc, ← List.map_append]
      exact .crashed hb hnext ho' hr
  cases h with
  | waiting hf ht =>
    have ht : t.progress.isWaiting = true := hp ▸ ht
    rcases acts_waiting c wall ht now world with
      ⟨hc, ha, hp' | hp'⟩ | ⟨-, ha, hp'⟩
    · rw [ha]
      exact .waiting hf hp'
    · rw [ha, hp', hj]
      exact .running (.begun hf hs hc) .start rfl
    · rw [ha, hp', hj]
      exact .dropped hf
  | running hb hpath ho => exact go hb hpath ho hp
  | past | dropped | ran | crashed => simp [isOver, hp] at hover

end Task

namespace Dispatch

inductive Act
  /-- The task at a place of the list does something. -/
  | task (place : Nat) (act : Task.Act)
  /-- A worker closes its handle to the sink. -/
  | closed (worker : Nat)

/-- The task at a place moves, and its worker may close its handle. -/
def moved (d : Dispatch) (place : Nat) (task : Task) (now : Nat) : Dispatch :=
  let (world, task, _) := task.step d.control d.wall now d.world
  let moved := { d with clock := now, world, tasks := d.tasks.set place task }
  moved.release task.worker

/-- What happens in that move. -/
def acts (d : Dispatch) (place : Nat) (task : Task) (now : Nat) : List Act :=
  (task.acts d.control d.wall now d.world).map (.task place) ++
    if (d.moved place task now).handles = d.handles then [] else [.closed task.worker]

/-- All that has happened since a moment. Any task that may move at an instant can be the next to do
so. -/
inductive Trail (first : Dispatch) : List Act → Dispatch → Prop
  | start : Trail first [] first
  | move {acts : List Act} {d : Dispatch} {place : Nat} {task : Task} {now : Nat}
      (h : Trail first acts d) (ht : d.tasks[place]? = some task) (hd : d.due? task = some now) :
      Trail first (acts ++ d.acts place task now) (d.moved place task now)

def Act.at? (place : Nat) : Act → Option Task.Act
  | task p act => if p = place then some act else none
  | closed _ => none

/-- What the task at a place has done. -/
def doneAt (place : Nat) (acts : List Act) : List Task.Act := acts.filterMap (Act.at? place)

def Act.report? : Act → Option Report
  | task _ (.ended report) => report
  | _ => none

def reports (acts : List Act) : List Report := acts.filterMap Act.report?

/-! ## One move -/

section

variable (d : Dispatch) (place : Nat) (task : Task) (now : Nat)

theorem moved_eq :
    d.moved place task now =
      release { d with
        clock := now, world := (task.step d.control d.wall now d.world).1
        tasks := d.tasks.set place (task.step d.control d.wall now d.world).2.1 } task.worker := by
  rw [← (task.job_step d.control d.wall now d.world).2]
  rfl

theorem release_keeps (worker : Nat) :
    (d.release worker).limit = d.limit ∧ (d.release worker).control = d.control ∧
      (d.release worker).wall = d.wall ∧ (d.release worker).clock = d.clock := by
  rw [release]
  split <;> exact ⟨rfl, rfl, rfl, rfl⟩

theorem moved_keeps :
    (d.moved place task now).limit = d.limit ∧ (d.moved place task now).control = d.control ∧
      (d.moved place task now).wall = d.wall ∧ (d.moved place task now).clock = now :=
  release_keeps ..

theorem tasks_moved :
    (d.moved place task now).tasks =
      d.tasks.set place (task.step d.control d.wall now d.world).2.1 := tasks_release ..

theorem doneAt_append (acts more : List Act) :
    doneAt place (acts ++ more) = doneAt place acts ++ doneAt place more :=
  List.filterMap_append ..

theorem reports_append (acts more : List Act) :
    reports (acts ++ more) = reports acts ++ reports more := List.filterMap_append ..

/-- Only the task that moves does anything. -/
theorem doneAt_acts (other : Nat) :
    doneAt other (d.acts place task now) =
      if place = other then task.acts d.control d.wall now d.world else [] := by
  have hclosed : doneAt other
      (if (d.moved place task now).handles = d.handles then [] else [.closed task.worker]) =
        [] := by
    split <;> rfl
  rw [acts, doneAt_append, hclosed, List.append_nil, doneAt, List.filterMap_map]
  split
  · rename_i he
    have hsome : Act.at? other ∘ Act.task place = some := by
      funext act
      exact if_pos he
    rw [hsome, List.filterMap_some]
  · rename_i he
    have hnone : Act.at? other ∘ Act.task place = fun _ => none := by
      funext act
      exact if_neg he
    rw [hnone]
    exact List.filterMap_eq_nil_iff.mpr fun _ _ => rfl

/-- A task reports at its end only. -/
theorem reports_acts :
    reports (d.acts place task now) =
      (task.step d.control d.wall now d.world).2.2.toList := by
  have hclosed : reports
      (if (d.moved place task now).handles = d.handles then [] else [.closed task.worker]) =
        [] := by
    split <;> rfl
  have hdeeds : reports ((match task.progress with
      | .running s => (s.deeds (s.step d.control d.world).2).map Task.Act.did
      | _ => []).map (.task place)) = [] := by
    cases task.progress <;> simp [reports, List.filterMap_map, Function.comp_def, Act.report?]
  rw [acts, reports_append, hclosed, List.append_nil, Task.acts, List.map_append, reports_append,
    hdeeds, List.nil_append]
  cases ho : (task.step d.control d.wall now d.world).2.1.isOver with
  | true => cases (task.step d.control d.wall now d.world).2.2 <;> rfl
  | false => rw [task.report_step ho]; rfl

end

/-- A task that may move is not over, and no move comes before the clock. -/
theorem of_due? {d : Dispatch} {task : Task} {now : Nat} (h : d.due? task = some now) :
    task.isOver = false ∧ d.clock ≤ now := by
  obtain ⟨due, hd, rfl⟩ := Option.map_eq_some_iff.mp h
  refine ⟨?_, Nat.le_max_left ..⟩
  rw [Task.due?] at hd
  rw [Task.isOver]
  cases hp : task.progress <;> simp_all

/-- The move that comes next is the earliest of those that may. -/
theorem step?_eq_moved {d next : Dispatch} {report : Option Report}
    (h : d.step? = some (next, report)) :
    ∃ place task now, d.tasks[place]? = some task ∧ d.due? task = some now ∧
      next = d.moved place task now ∧
      report = (task.step d.control d.wall now d.world).2.2 := by
  unfold step? at h
  split at h
  · cases h
  · rename_i turn hturn
    obtain ⟨task, hp, hd⟩ := due?_of_mem_turns (Turn.mem_of_first? hturn)
    rw [hp] at h
    obtain ⟨rfl, rfl⟩ := Prod.mk.inj (Option.some.inj h)
    exact ⟨turn.place, task, turn.due, hp, hd, rfl, rfl⟩

/-- Every move makes the tasks lighter, so moves do not go on for ever. -/
theorem moves_wf :
    WellFounded fun next d : Dispatch => ∃ place task now, d.tasks[place]? = some task ∧
      d.due? task = some now ∧ next = d.moved place task now := by
  refine Subrelation.wf ?_
    (InvImage.wf (fun d : Dispatch => d.tasks.map Task.weight) (Lighter.wf Weight.lt_wf))
  rintro _ d ⟨place, task, now, hp, hd, rfl⟩
  obtain ⟨due, hd, -⟩ := Option.map_eq_some_iff.mp hd
  rw [InvImage, tasks_moved, List.map_set]
  exact Lighter.set (a := task.weight) (by simp [hp]) (Task.step_lt task _ _ _ _ hd)

/-! ## What every move keeps -/

/-- One element of a list is replaced: the count of a property changes by it alone. -/
theorem countP_set_add {items : List α} {i : Nat} {a b : α} (h : items[i]? = some a)
    (p : α → Bool) :
    (items.set i b).countP p + (if p a then 1 else 0) =
      items.countP p + (if p b then 1 else 0) := by
  obtain ⟨hi, rfl⟩ := List.getElem?_eq_some_iff.mp h
  have hpos : p items[i] = true → 0 < items.countP p := fun hp =>
    List.countP_pos_iff.mpr ⟨_, List.getElem_mem hi, hp⟩
  rw [List.countP_set hi]
  split
  · rename_i hp
    have := hpos hp
    omega
  · omega

/-- A dispatch in good order: its sessions are not over, no worker runs more of them than it may,
and every open handle is one of a worker that has something to do. -/
structure Regular (d : Dispatch) : Prop where
  limit : 1 ≤ d.limit
  alive : ∀ t ∈ d.tasks, ∀ s, t.progress = .running s → s.isOver = false
  crew : ∀ worker, d.tasks.countP (fun t => t.worker == worker && t.isRunning) ≤ d.limit
  nodup : d.handles.Nodup
  busy : ∀ worker ∈ d.handles, ∃ t ∈ d.tasks, t.worker = worker ∧ t.isOver = false

variable {d : Dispatch} {place : Nat} {task : Task} {now : Nat}

/-- Only a worker with a free slot begins a session. -/
theorem hasSlot_of_begins (hd : d.due? task = some now) (hr : task.isRunning = false)
    (hn : (task.step d.control d.wall now d.world).2.1.isRunning = true) :
    d.hasSlot task.worker = true := by
  obtain ⟨due, hdue, rfl⟩ := Option.map_eq_some_iff.mp hd
  obtain ⟨worker, job, progress⟩ := task
  cases progress with
  | staggering due =>
    simp only [Task.step] at hn
    split at hn <;> cases hn
  | queued since =>
    simp only [Task.due?] at hdue
    split at hdue
    · assumption
    · -- without a slot it moves because it is to stop
      have hstop : d.control.stopAt?.any (· ≤ max d.clock due) = true := by
        rw [hdue]
        exact decide_eq_true (Nat.le_max_right d.clock due)
      simp only [Task.step, hstop, if_true] at hn
      cases hn
  | running s => cases hr
  | ended ending => cases hdue

theorem alive_step (t : Task) (h : ∀ s, t.progress = .running s → s.isOver = false) (c : Control)
    (wall : UInt64) (now : Nat) (world : World) {s : Session}
    (hs : (t.step c wall now world).2.1.progress = .running s) : s.isOver = false := by
  obtain ⟨worker, job, progress⟩ := t
  cases progress with
  | staggering due | queued since =>
    simp only [Task.step] at hs
    split at hs
    all_goals cases hs <;> rfl
  | running s₀ =>
    simp only [Task.step, Task.follow] at hs
    split at hs
    · split at hs <;> cases hs
    · obtain rfl := Progress.running.inj hs
      simp_all
  | ended ending => cases hs

theorem crew_moved (h : d.Regular) (ht : d.tasks[place]? = some task)
    (hd : d.due? task = some now) (worker : Nat) :
    (d.moved place task now).tasks.countP (fun t => t.worker == worker && t.isRunning) ≤
      d.limit := by
  have hcount := countP_set_add (b := (task.step d.control d.wall now d.world).2.1) ht
    fun t => t.worker == worker && t.isRunning
  have hcrew := h.crew worker
  have hworker := (task.job_step d.control d.wall now d.world).2
  rw [tasks_moved]
  by_cases hn : (task.step d.control d.wall now d.world).2.1.isRunning = true
  · by_cases hr : task.isRunning = true
    · simp only [hworker, hn, hr] at hcount
      omega
    · -- the session that begins takes a slot that was free
      have hslot := hasSlot_of_begins hd (by simpa using hr) hn
      by_cases hw : task.worker = worker
      · rw [hasSlot, hw, ← List.countP_eq_length_filter, decide_eq_true_iff] at hslot
        split at hcount <;> split at hcount <;> omega
      · simp [hworker, hw] at hcount
        omega
  · simp only [hn, Bool.and_false, Bool.false_eq_true, if_false] at hcount
    omega

theorem mem_set_of_ne {items : List α} {i : Nat} {a b c : α} (h : items[i]? = some a)
    (hc : c ∈ items) (hne : c ≠ a) : c ∈ items.set i b := by
  obtain ⟨j, hj, rfl⟩ := List.mem_iff_getElem.mp hc
  have hij : i ≠ j := by
    rintro rfl
    rw [List.getElem?_eq_getElem hj] at h
    exact hne (Option.some.inj h)
  exact List.mem_iff_getElem.mpr ⟨j, by simpa using hj, List.getElem_set_ne hij _⟩

theorem busy_release (d : Dispatch) (released : Nat) (hb : ∀ worker ∈ d.handles,
      worker ≠ released → ∃ t ∈ d.tasks, t.worker = worker ∧ t.isOver = false)
    (hn : d.handles.Nodup) :
    (d.release released).handles.Nodup ∧ ∀ worker ∈ (d.release released).handles,
      ∃ t ∈ d.tasks, t.worker = worker ∧ t.isOver = false := by
  rw [release]
  split
  · refine ⟨hn.erase _, fun worker hw => ?_⟩
    obtain ⟨hne, hw⟩ := hn.mem_erase_iff.mp hw
    exact hb worker hw hne
  · rename_i hc
    refine ⟨hn, fun worker hw => ?_⟩
    by_cases hne : worker = released
    · subst hne
      simp only [List.contains_eq_mem, hw, decide_true, true_and, List.all_eq_true,
        Classical.not_forall] at hc
      obtain ⟨t, ht, hc⟩ := hc
      simp only [Bool.or_eq_true, bne_iff_ne, not_or, Classical.not_not, Bool.not_eq_true] at hc
      exact ⟨t, ht, hc.1, hc.2⟩
    · exact hb worker hw hne

theorem Regular.moved (h : d.Regular) (ht : d.tasks[place]? = some task)
    (hd : d.due? task = some now) : (d.moved place task now).Regular := by
  obtain ⟨hlimit, -, -, -⟩ := d.moved_keeps place task now
  have hbusy := busy_release
    { d with
      clock := now, world := (task.step d.control d.wall now d.world).1
      tasks := d.tasks.set place (task.step d.control d.wall now d.world).2.1 } task.worker
    (by
      intro worker hw hne
      obtain ⟨t, hm, rfl, ho⟩ := h.busy worker hw
      exact ⟨t, mem_set_of_ne ht hm (fun he => hne (by rw [he])), rfl, ho⟩) h.nodup
  rw [← moved_eq] at hbusy
  refine ⟨hlimit ▸ h.limit, ?_, ?_, hbusy.1, ?_⟩
  · intro t hm s hs
    rw [tasks_moved] at hm
    rcases List.mem_or_eq_of_mem_set hm with hm | rfl
    · exact h.alive t hm s hs
    · exact alive_step task (h.alive task (List.mem_of_getElem? ht)) _ _ _ _ hs
  · rw [hlimit]
    exact crew_moved h ht hd
  · rw [tasks_moved]
    exact hbusy.2

section

variable {jobs : List Job} {workers limit : Nat} {pause : Nat → Nat → Nat} {refused : List Nat}
  {control : Control} {wall : UInt64} {world : World}

/-- A handle is opened for every worker that has a shard and is given a sink. -/
theorem mem_handles_begin {worker : Nat} :
    worker ∈ (begin_ jobs workers limit pause refused control wall now world).1.handles ↔
      worker < (Shard.deal workers jobs).length ∧ worker ∉ refused := by
  simp only [begin_, List.zipIdx_map_snd, List.mem_filter, List.mem_range'_1, Nat.zero_le,
    Nat.zero_add, true_and, List.contains_eq_mem, Bool.not_eq_true', decide_eq_false_iff_not]

theorem regular_begin :
    (begin_ jobs workers limit pause refused control wall now world).1.Regular where
  limit := Nat.le_max_left ..
  alive t ht s hs := absurd hs ((mem_tasks_begin ht).2 s)
  crew worker := by
    refine Nat.le_trans (Nat.le_of_eq (List.countP_eq_zero.mpr fun t ht => ?_)) (Nat.zero_le _)
    have hrun : t.isRunning = false := by
      rw [Task.isRunning]
      split
      · exact absurd (by assumption) ((mem_tasks_begin ht).2 _)
      · rfl
    simp [hrun]
  nodup := by
    simp only [begin_, List.zipIdx_map_snd]
    exact List.Nodup.sublist List.filter_sublist List.nodup_range'
  busy worker hw := by
    obtain ⟨hlt, hgiven⟩ := mem_handles_begin.mp hw
    obtain ⟨job, rest, hshard⟩ := List.exists_cons_of_ne_nil
      (Shard.ne_nil_of_mem_deal (List.getElem_mem hlt))
    refine ⟨{ worker, job, progress := .staggering (now + pause worker 0) }, ?_, rfl, rfl⟩
    simp only [begin_, List.mem_flatMap, List.mem_map, Prod.exists]
    refine ⟨_, worker, List.mk_mem_zipIdx_iff_getElem?.mpr (List.getElem?_eq_getElem hlt), job, 0,
      ?_⟩
    rw [hshard]
    exact ⟨List.mk_mem_zipIdx_iff_getElem?.mpr rfl, by simp [hgiven]⟩

end

theorem first?_ne_none {turns : List Turn} (h : turns ≠ []) : Turn.first? turns ≠ none := by
  cases turns with
  | nil => exact absurd rfl h
  | cons a rest =>
    rw [Turn.first?]
    split
    · exact Option.some_ne_none _
    · split <;> exact Option.some_ne_none _

/-- Who may move has a turn. -/
theorem exists_mem_turns {t : Task} (ht : t ∈ d.tasks) {due : Nat} (hd : d.due? t = some due) :
    ∃ place, ⟨due, t.since, place⟩ ∈ d.turns := by
  obtain ⟨place, hp⟩ := List.mem_iff_getElem?.mp ht
  exact ⟨place, List.mem_filterMap.mpr
    ⟨(t, place), List.mk_mem_zipIdx_iff_getElem?.mpr hp, by simp [hd]⟩⟩

/-- There is a next move as long as some task may move. -/
theorem due?_of_step?_eq_none (h : d.step? = none) {t : Task} (ht : t ∈ d.tasks) :
    d.due? t = none := by
  cases hd : d.due? t with
  | none => rfl
  | some due =>
    exfalso
    obtain ⟨_, hmem⟩ := exists_mem_turns ht hd
    obtain ⟨turn, hturn⟩ := Option.ne_none_iff_exists'.mp
      (first?_ne_none (List.ne_nil_of_mem hmem))
    obtain ⟨task, hp, -⟩ := due?_of_mem_turns (Turn.mem_of_first? hturn)
    simp [step?, hturn, hp] at h

/-- **No task is left behind.** Where no task may move all are over, and all handles are closed. -/
theorem Regular.rest (h : d.Regular) (hd : d.step? = none) :
    (∀ t ∈ d.tasks, t.isOver = true) ∧ d.handles = [] := by
  have hdue {t : Task} (ht : t ∈ d.tasks) : t.due? d.control (d.hasSlot t.worker) d.clock = none :=
    Option.map_eq_none_iff.mp (due?_of_step?_eq_none hd ht)
  have hrun {t : Task} (ht : t ∈ d.tasks) : t.isRunning = false := by
    have hdue := hdue ht
    rw [Task.isRunning]
    cases hp : t.progress with
    | running s =>
      exfalso
      have ho := h.alive t ht s hp
      rw [Task.due?, hp] at hdue
      simp only [Session.due?] at hdue
      rw [Session.isOver] at ho
      split at hdue <;> simp_all
    | _ => rfl
  have hslot (worker : Nat) : d.hasSlot worker = true := by
    have hnone : d.tasks.countP (fun t => t.worker == worker && t.isRunning) = 0 :=
      List.countP_eq_zero.mpr fun t ht => by simp [hrun ht]
    rw [hasSlot, ← List.countP_eq_length_filter, hnone]
    exact decide_eq_true h.limit
  have hover : ∀ t ∈ d.tasks, t.isOver = true := by
    intro t ht
    have hdue := hdue ht
    have hrun := hrun ht
    rw [Task.isOver]
    rw [Task.due?, hslot] at hdue
    rw [Task.isRunning] at hrun
    cases hp : t.progress <;> simp_all
  refine ⟨hover, List.eq_nil_iff_forall_not_mem.mpr fun worker hw => ?_⟩
  obtain ⟨t, ht, -, ho⟩ := h.busy worker hw
  rw [hover t ht] at ho
  cases ho

/-! ## Whole trails -/

namespace Trail

variable {first : Dispatch} {acts : List Act}

theorem keeps (h : Trail first acts d) :
    d.limit = first.limit ∧ d.control = first.control ∧ d.wall = first.wall := by
  induction h with
  | start => exact ⟨rfl, rfl, rfl⟩
  | move _ _ _ ih =>
    obtain ⟨hl, hc, hw, -⟩ := moved_keeps ..
    exact ⟨hl.trans ih.1, hc.trans ih.2.1, hw.trans ih.2.2⟩

theorem regular (h : Trail first acts d) (hf : first.Regular) : d.Regular := by
  induction h with
  | start => exact hf
  | move _ ht hd ih => exact ih.moved ht hd

/-- Once there was a move, the clock shows what the first move has waited for. -/
theorem clock_since (h : Trail first acts d) {since : Nat}
    (hs : ∀ t ∈ first.tasks, ∀ due, first.due? t = some due → since ≤ due) :
    d = first ∨ since ≤ d.clock := by
  induction h with
  | start => exact .inl rfl
  | move _ ht hd ih =>
    right
    rw [(moved_keeps ..).2.2.2]
    rcases ih with rfl | hclock
    · exact hs _ (List.mem_of_getElem? ht) _ hd
    · exact Nat.le_trans hclock (of_due? hd).2

/-- No move comes before the first that can be. -/
theorem since (h : Trail first acts d) {since : Nat}
    (hs : ∀ t ∈ first.tasks, ∀ due, first.due? t = some due → since ≤ due) :
    (∀ t ∈ d.tasks, ∀ due, d.due? t = some due → since ≤ due) := by
  intro t ht due hd
  rcases h.clock_since hs with rfl | hclock
  · exact hs t ht due hd
  · exact Nat.le_trans hclock (of_due? hd).2

/-- **What the others do is nothing to a task.** At every moment each task has done what a task by
itself can have done when it has come so far. -/
theorem told (h : Trail first acts d) (hf : first.Regular) {since : Nat}
    (hs : ∀ t ∈ first.tasks, ∀ due, first.due? t = some due → since ≤ due) {place : Nat}
    {t₀ : Task} (ht₀ : first.tasks[place]? = some t₀) :
    ∃ t, d.tasks[place]? = some t ∧ t.job = t₀.job ∧ t.worker = t₀.worker ∧
      Task.Told first.control first.wall since t₀ (doneAt place acts) t.progress := by
  induction h with
  | start => exact ⟨t₀, ht₀, rfl, rfl, Task.told_start (hf.alive t₀ (List.mem_of_getElem? ht₀))⟩
  | move h ht hd ih =>
    rename_i acts d moving task now
    obtain ⟨t, hp, hj, hw, htold⟩ := ih
    obtain ⟨-, hcontrol, hwall⟩ := h.keeps
    rw [tasks_moved, doneAt_append, doneAt_acts]
    by_cases he : moving = place
    · subst he
      obtain rfl := Option.some.inj (hp.symm.trans ht)
      obtain ⟨hlt, -⟩ := List.getElem?_eq_some_iff.mp hp
      obtain ⟨hjob, hworker⟩ := t.job_step d.control d.wall now d.world
      refine ⟨_, List.getElem?_set_self hlt, hjob.trans hj, hworker.trans hw, ?_⟩
      rw [if_pos rfl, hcontrol, hwall]
      exact htold.step hj (h.since hs t (List.mem_of_getElem? hp) now hd) (of_due? hd).1 d.world
    · refine ⟨t, ?_, hj, hw, ?_⟩
      · rw [List.getElem?_set_ne he]
        exact hp
      · rw [if_neg he, List.append_nil]
        exact htold

theorem length (h : Trail first acts d) : d.tasks.length = first.tasks.length := by
  induction h with
  | start => rfl
  | move _ _ _ ih => rw [tasks_moved, List.length_set, ih]

/-- The task at a place has been there from the beginning. -/
theorem toldAt (h : Trail first acts d) (hf : first.Regular) {place : Nat} {t : Task}
    (ht : d.tasks[place]? = some t) :
    ∃ t₀, first.tasks[place]? = some t₀ ∧ t.job = t₀.job ∧ t.worker = t₀.worker ∧
      Task.Told first.control first.wall first.clock t₀ (doneAt place acts) t.progress := by
  obtain ⟨hlt, -⟩ := List.getElem?_eq_some_iff.mp ht
  rw [h.length] at hlt
  obtain ⟨t', hp, hj, hw, htold⟩ :=
    h.told hf (fun _ _ _ hd => (of_due? hd).2) (List.getElem?_eq_getElem hlt)
  obtain rfl := Option.some.inj (hp.symm.trans ht)
  exact ⟨_, List.getElem?_eq_getElem hlt, hj, hw, htold⟩

end Trail

/-- **A run is a trail to its end**, and the reports that are noted are those of the trail. -/
theorem Trail.run {first : Dispatch} {acts : List Act} (note : σ → Nat → Report → σ)
    (view : σ → List Report) (hview : ∀ s now r, view (note s now r) = view s ++ [r])
    (h : Trail first acts d) (s : σ) :
    ∃ more, Trail first (acts ++ more) (d.run note s).1 ∧ (d.run note s).1.step? = none ∧
      view (d.run note s).2 = view s ++ reports more := by
  fun_induction Dispatch.run note d s generalizing acts with
  | case1 d s hn => exact ⟨[], by rwa [List.append_nil], hn, (List.append_nil _).symm⟩
  | case2 d s next report hn ih =>
    obtain ⟨place, task, now, ht, hd, rfl, hreport⟩ := step?_eq_moved hn
    obtain ⟨more, htrail, hend, hseen⟩ := ih (h.move ht hd)
    refine ⟨d.acts place task now ++ more, by rwa [← List.append_assoc], ?_, ?_⟩
    · exact hend
    · rw [reports_append, reports_acts, ← hreport, ← List.append_assoc]
      cases report with
      | none => simpa using hseen
      | some r => simpa [hview] using hseen

end Dispatch

end Harvest
