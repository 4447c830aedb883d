import Harvest.Proofs.Dispatch.Reports
import Harvest.Proofs.Dispatch.Shutdown

/-! The instant of a cancellation. Nothing is waited for beyond it: a session at work is cut off,
what is left of an abandoned one is given up, and a task without a session is dropped. So no move
comes after that instant, and whoever moves at it ends, and is reported as abandoned. -/

namespace Harvest

/-- Who is to be cancelled does not begin after the cancellation. -/
theorem Control.stopAt?_of_cancelAt {c : Control} {limit : Nat} (h : c.cancelAt = some limit) :
    ∃ stop, c.stopAt? = some stop ∧ stop ≤ limit := by
  rw [stopAt?, h]
  cases c.shutdownAt with
  | none => exact ⟨limit, rfl, Nat.le_refl _⟩
  | some s => exact ⟨min s limit, rfl, Nat.min_le_right ..⟩

/-! ## Sessions -/

namespace Session

variable {c : Control} {s : Session} {limit due : Nat}

/-- Whatever a session waits for, it is cut off no later than it is cancelled, and if no earlier
then because of that. -/
theorem cutOff?_of_cancelAt (ho : s.isOver = false) (hc : c.cancelAt = some limit) :
    ∃ cut reason, s.cutOff? c = some (cut, reason) ∧ cut ≤ limit ∧
      (limit ≤ cut → reason = .cancelled) := by
  unfold cutOff?
  rw [isOver] at ho
  cases hs : s.stage with
  | ended | crashed => simp [hs, Stage.due?] at ho
  | salvaging => exact ⟨limit, .cancelled, by rw [hc]; rfl, Nat.le_refl _, fun _ => rfl⟩
  | _ =>
    rw [hc]
    dsimp only
    by_cases hle : limit ≤ s.budgetEnd
    · rw [if_pos hle]
      exact ⟨limit, .cancelled, rfl, Nat.le_refl _, fun _ => rfl⟩
    · rw [if_neg hle]
      exact ⟨s.budgetEnd, .budgetExceeded, rfl, Nat.le_of_not_le hle, fun h => absurd h hle⟩

theorem due_le_cancelAt (hc : c.cancelAt = some limit) (hd : s.due? c = some due) :
    due ≤ limit := by
  obtain ⟨cut, reason, hcut, hle, -⟩ := cutOff?_of_cancelAt (isOver_of_due? hd) hc
  exact Nat.le_trans (le_cutOff? hd hcut) hle

/-- **A session that has nothing to do before it is cancelled does nothing but to end.** -/
theorem step_cut (ho : s.isOver = false) (hc : c.cancelAt = some limit)
    (hs : ∀ due, s.due? c = some due → limit ≤ due) (world : World) :
    ∃ reason at_, (s.step c world).2.stage = .ended (.abandoned reason) at_ := by
  obtain ⟨cut, reason, hcut, hle, hreason⟩ := cutOff?_of_cancelAt ho hc
  obtain ⟨due, hdue⟩ : ∃ due, s.stage.due? = some due :=
    Option.isSome_iff_exists.mp (by simpa [isOver] using ho)
  have hlimit : limit ≤ min due cut := hs _ (by rw [due?, hdue, hcut])
  obtain rfl := hreason (Nat.le_trans hlimit (Nat.min_le_right ..))
  have hstep : s.step c world = s.interrupt .cancelled cut world := by
    rw [step, hdue, hcut]
    exact if_pos (Nat.le_trans hle (Nat.le_trans hlimit (Nat.min_le_left ..)))
  rw [hstep]
  rcases s.interrupt_cases .cancelled cut world with ⟨hover, -⟩ | ⟨_, reason, _, _, -, hi⟩ |
    ⟨-, -, hi⟩
  · rw [ho] at hover
    cases hover
  · rw [hi]
    exact ⟨reason, cut, rfl⟩
  · rw [hi]
    cases abandon_quits cut world s .cancelled with
    | ended hn => exact ⟨_, _, hn⟩
    | salvaging _ _ hr => exact absurd rfl hr

end Session

/-! ## Tasks -/

namespace Task

variable {c : Control} {t : Task} {limit now : Nat}

/-- The session of a task, if it has one, does the job of the task and has nothing to do before an
instant. -/
def Halts (c : Control) (limit : Nat) (t : Task) : Prop :=
  ∀ s, t.progress = .running s →
    s.isOver = false ∧ s.job = t.job ∧ ∀ due, s.due? c = some due → limit ≤ due

/-- No task waits for something after it is cancelled. -/
theorem due_le_cancelAt (hc : c.cancelAt = some limit) {slot : Bool} (hn : now ≤ limit) {due : Nat}
    (hd : t.due? c slot now = some due) : due ≤ limit := by
  obtain ⟨stop, hstop, hle⟩ := Control.stopAt?_of_cancelAt hc
  rw [due?] at hd
  cases hp : t.progress with
  | staggering start =>
    simp only [hp, hstop, Option.map_some, Option.getD_some] at hd
    obtain rfl := Option.some.inj hd
    exact Nat.le_trans (Nat.min_le_right ..) hle
  | queued since =>
    simp only [hp] at hd
    split at hd
    · exact Option.some.inj hd ▸ hn
    · obtain rfl := Option.some.inj (hstop.symm.trans hd)
      exact hle
  | running s =>
    simp only [hp] at hd
    exact Session.due_le_cancelAt hc hd
  | ended =>
    simp only [hp] at hd
    cases hd

/-- **Who moves at the cancellation ends, and is reported as abandoned.** -/
theorem Halts.step (h : t.Halts c limit) (hc : c.cancelAt = some limit) (ho : t.isOver = false)
    (hn : limit ≤ now) (wall : UInt64) (world : World) :
    (t.step c wall now world).2.1.isOver = true ∧
      ∃ r reason, (t.step c wall now world).2.2 = some r ∧
        r.about = (t.job.relay.id, t.job.target) ∧ r.outcome = .abandoned reason := by
  obtain ⟨worker, job, progress⟩ := t
  cases progress with
  | staggering | queued =>
    obtain ⟨stop, hstop, hle⟩ := Control.stopAt?_of_cancelAt hc
    have hstopped : c.stopAt?.any (· ≤ now) = true := by
      rw [hstop]
      exact decide_eq_true (Nat.le_trans hle hn)
    simp only [Task.step, hstopped, if_true]
    exact ⟨rfl, .notStarted job, .notStarted, rfl, rfl, rfl⟩
  | running s =>
    obtain ⟨hover, hjob, hdue⟩ := h s rfl
    obtain ⟨reason, at_, hend⟩ := Session.step_cut hover hc hdue world
    have hnext : (s.step c world).2.isOver = true := by
      rw [Session.isOver, hend]
      rfl
    obtain ⟨r, hr⟩ : ∃ r, (s.step c world).2.report? = some r :=
      ⟨_, by
        simp only [Session.report?, hend]
        rfl⟩
    obtain ⟨⟨at', hstage⟩, hrelay, htarget, -⟩ := Session.of_report? hr
    have hkept : (s.step c world).2.job = job := (Session.leads_step s world c).2.1.trans hjob
    rw [Session.relay, hkept] at hrelay
    rw [hkept] at htarget
    rw [hend] at hstage
    simp only [Task.step, follow, hnext, if_true, hr]
    exact ⟨rfl, r, reason, rfl, Prod.ext hrelay htarget, (Stage.ended.inj hstage).1.symm⟩
  | ended => cases ho

/-- Only a task that is over has an answer. -/
theorem of_answered? {about : RelayId × Window} (h : t.answered? = some about) :
    t.isOver = true ∧ about = (t.job.relay.id, t.job.target) := by
  cases ho : t.isOver with
  | true =>
    rw [answered?_of_isOver ho] at h
    split at h
    · exact ⟨rfl, (Option.some.inj h).symm⟩
    · cases h
  | false =>
    rw [answered?] at h
    rw [isOver] at ho
    cases hp : t.progress <;> simp_all

end Task

/-! ## Trails -/

namespace Dispatch

variable {first d : Dispatch} {acts : List Act} {limit : Nat}

/-- **The clock never shows more than the instant of the cancellation**, whoever moves next. -/
theorem Trail.clock_le (h : Trail first acts d) (hc : first.control.cancelAt = some limit)
    (hf : first.clock ≤ limit) : d.clock ≤ limit := by
  induction h with
  | start => exact hf
  | move h _ hd ih =>
    obtain ⟨due, hdue, rfl⟩ := Option.map_eq_some_iff.mp hd
    rw [(moved_keeps ..).2.2.2]
    rw [← h.keeps.2.1] at hc
    exact Nat.max_le.mpr ⟨ih, Task.due_le_cancelAt hc ih hdue⟩

/-- **From the cancellation on every report says abandoned**, and whoever was not over has one. -/
theorem Trail.cut (h : Trail first acts d) (hc : first.control.cancelAt = some limit)
    (hm : ∀ t ∈ first.tasks, ∀ due, first.due? t = some due → limit ≤ due)
    (hq : ∀ t ∈ first.tasks, t.Halts first.control limit) :
    (∀ t ∈ d.tasks, t.Halts first.control limit) ∧
      (∀ r ∈ reports acts, ∃ reason, r.outcome = .abandoned reason) ∧
      ∀ (place : Nat) (t : Task), first.tasks[place]? = some t → d.tasks[place]? = some t ∨
        ∃ r ∈ reports acts, r.about = (t.job.relay.id, t.job.target) := by
  induction h with
  | start => exact ⟨hq, (fun r hr => by cases hr), fun place t ht => .inl ht⟩
  | move h ht hd ih =>
    rename_i acts d moving task now
    obtain ⟨hhalts, habandoned, htold⟩ := ih
    have hmem := List.mem_of_getElem? ht
    obtain ⟨hover, r, reason, hr, habout, houtcome⟩ := (hhalts task hmem).step hc (of_due? hd).1
      (h.since hm task hmem now hd) d.wall d.world
    rw [← h.keeps.2.1] at hover hr
    rw [reports_append, reports_acts, hr, tasks_moved]
    refine ⟨fun t ht' => ?_, fun r' hr' => ?_, fun place t ht' => ?_⟩
    · rcases List.mem_or_eq_of_mem_set ht' with ht' | rfl
      · exact hhalts t ht'
      · intro s hs
        rw [Task.isOver, hs] at hover
        cases hover
    · rcases List.mem_append.mp hr' with hr' | hr'
      · exact habandoned r' hr'
      · obtain rfl := List.mem_singleton.mp hr'
        exact ⟨reason, houtcome⟩
    · rcases htold place t ht' with hsame | ⟨r', hr', habout'⟩
      · by_cases he : moving = place
        · -- it is the one that moves
          subst he
          obtain rfl := Option.some.inj (hsame.symm.trans ht)
          exact .inr ⟨r, List.mem_append_right _ (List.mem_singleton_self r), habout⟩
        · exact .inl (by rw [List.getElem?_set_ne he, hsame])
      · exact .inr ⟨r', List.mem_append_left _ hr', habout'⟩

/-- What is noted before an instant are the reports of a trail. -/
theorem Trail.noted_runTo (note : σ → Nat → Report → σ) (instant : Nat) (view : σ → List Report)
    (hview : ∀ s now r, view (note s now r) = view s ++ [r]) (d : Dispatch) (s : σ) :
    ∃ acts, Trail d acts (d.runTo note instant s).1 ∧
      view (d.runTo note instant s).2 = view s ++ reports acts := by
  refine runTo_keeps (fun state => ∃ acts, Trail d acts state.1 ∧
    view state.2 = view s ++ reports acts) ?_ d s ⟨[], .start, (List.append_nil _).symm⟩
  rintro d' s' next report hn ⟨acts, htrail, hseen⟩
  obtain ⟨place, task, now, ht, hd, rfl, hreport⟩ := step?_eq_moved hn
  refine ⟨_, htrail.move ht hd, ?_⟩
  rw [reports_append, reports_acts, ← hreport, ← List.append_assoc, ← hseen]
  cases report with
  | none => exact (List.append_nil _).symm
  | some r => exact hview s' _ r

end Dispatch

end Harvest
