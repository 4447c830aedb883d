import Harvest.Proofs.Dispatch.Trail
import Harvest.Proofs.Session.WindingDown

/-! What a request to shut down leaves to a dispatch. At the instant of the request each task waits,
has a session or is over. One that waits never begins, one that has a session winds down, and one
that is over does nothing more. -/

namespace Harvest

theorem Turn.due_le_of_first? {turns : List Turn} {a : Turn} (h : first? turns = some a) :
    ∀ b ∈ turns, a.due ≤ b.due := by
  induction turns generalizing a with
  | nil => cases h
  | cons b rest ih =>
    intro b' hb
    rw [first?] at h
    split at h
    · rename_i hrest
      obtain rfl := Option.some.inj h
      rcases List.mem_cons.mp hb with rfl | hb
      · exact Nat.le_refl _
      · exact absurd hrest (Dispatch.first?_ne_none (List.ne_nil_of_mem hb))
    · rename_i e hrest
      have hle := ih hrest
      split at h <;> obtain rfl := Option.some.inj h
      · rename_i hp
        rcases List.mem_cons.mp hb with rfl | hb
        · simp only [precedes, Bool.or_eq_true, decide_eq_true_eq, Bool.and_eq_true,
            beq_iff_eq] at hp
          omega
        · exact hle b' hb
      · rename_i hp
        rcases List.mem_cons.mp hb with rfl | hb
        · exact Nat.le_refl _
        · refine Nat.le_trans (Nat.le_of_not_lt fun hlt => hp ?_) (hle b' hb)
          simp [precedes, hlt]

namespace Task

variable {c : Control} {wall : UInt64} {instant : Nat} {first : Task} {done : List Act}
  {ending : TaskEnd}

/-- A task that waits when it is to stop is dropped. -/
theorem Told.dropped_of_waiting (h : Told c wall instant first done (.ended ending))
    (hc : c.shutdownAt = some instant) (hf : first.progress.isWaiting = true) :
    done = [.ended (some (.notStarted first.job))] := by
  have begins {s : Session} (hb : Begins c wall instant first s) : False := by
    obtain ⟨now, hs, hopen, -⟩ := hb.of_waiting hf
    -- its stop is no later than the request
    simp only [Control.stopAt?, hc] at hopen
    split at hopen <;> simp_all <;> omega
  cases h with
  | past hp =>
    rw [hp] at hf
    cases hf
  | waiting _ hw => cases hw
  | dropped => rfl
  | ran hb => exact absurd hb begins
  | crashed hb => exact absurd hb begins

/-- A task that has a session goes on with it to the end. -/
theorem Told.of_running (h : Told c wall instant first done (.ended ending)) {s : Session}
    (hf : first.progress = .running s) :
    ∃ late last, s.Path c late last ∧ done = late.map .did ++ [.ended last.report?] := by
  cases h with
  | past hp =>
    rw [hf] at hp
    cases hp
  | waiting hw | dropped hw =>
    rw [hf] at hw
    cases hw
  | ran hb hp hr =>
    obtain rfl := hb.of_running hf
    exact ⟨_, _, hp, by rw [hr]⟩
  | crashed hb hp _ hr =>
    obtain rfl := hb.of_running hf
    exact ⟨_, _, hp, by rw [hr]⟩

/-- A task that waits has done nothing. -/
theorem Told.of_waiting {progress : Progress} (h : Told c wall instant first done progress)
    (hp : progress.isWaiting = true) : done = [] := by
  cases h with
  | waiting => rfl
  | _ => cases hp

/-- A task that has begun its session has done what the session has. -/
theorem Told.of_begun {s : Session} (h : Told c wall instant first done (.running s))
    (hf : ∀ s, first.progress ≠ .running s) :
    ∃ now early, (Session.start first.job wall now).Path c early s ∧ done = early.map .did := by
  cases h with
  | waiting _ hw => cases hw
  | running hb hp =>
    cases hb with
    | had hr => exact absurd hr (hf _)
    | begun => exact ⟨_, _, hp, rfl⟩

end Task

namespace Dispatch

variable {first d ended : Dispatch} {instant : Nat} {before after acts : List Act}

/-- Nothing is to happen before an instant. -/
structure Awaits (d : Dispatch) (instant : Nat) : Prop where
  moves : ∀ t ∈ d.tasks, ∀ due, d.due? t = some due → instant ≤ due
  sessions : ∀ t ∈ d.tasks, ∀ s, t.progress = .running s →
    ∀ due, s.due? d.control = some due → instant ≤ due

/-- What the tasks have done before a moment at which they are asked to stop, and all that they do
after it. -/
structure Stops (d : Dispatch) (limit : Nat) (before after : List Act) : Prop where
  waiting : ∀ place t, d.tasks[place]? = some t → t.progress.isWaiting = true →
    doneAt place before = [] ∧ doneAt place after = [.ended (some (.notStarted t.job))]
  running : ∀ place t s, d.tasks[place]? = some t → t.progress = .running s →
    ∃ early late report, doneAt place before = early.map .did ∧
      doneAt place after = late.map .did ++ [.ended report] ∧
      s.WindsDown limit early late report
  past : ∀ place t, d.tasks[place]? = some t → t.isOver = true → doneAt place after = []

/-- **Whoever waits does not begin, and whoever is at work winds down.** -/
theorem Trail.stops (h : Trail first before d) (hf : first.Regular)
    (hn : ∀ t ∈ first.tasks, ∀ s, t.progress ≠ .running s)
    (hc : first.control.shutdownAt = some instant) (hd : d.Awaits instant)
    (h' : Trail d after ended) (he : ended.step? = none) {limit : Nat}
    (hl : ∀ t ∈ first.tasks, max 1 t.job.settings.queryRetry.maxAttempts = limit) :
    d.Stops limit before after := by
  obtain ⟨-, hcontrol, hwall⟩ := h.keeps
  have hregular := h.regular hf
  have hover := ((h'.regular hregular).rest he).1
  have told {place : Nat} {t : Task} (ht : d.tasks[place]? = some t) :
      ∃ ending, Task.Told d.control d.wall instant t (doneAt place after) (.ended ending) := by
    obtain ⟨t', hp, -, -, htold⟩ := h'.told hregular hd.moves ht
    obtain ⟨ending, hended⟩ := Task.ended_of_isOver (hover t' (List.mem_of_getElem? hp))
    exact ⟨ending, hended ▸ htold⟩
  refine ⟨fun place t ht hw => ?_, fun place t s ht hp => ?_, fun place t ht ho => ?_⟩
  · obtain ⟨_, htold⟩ := told ht
    refine ⟨?_, htold.dropped_of_waiting (by rw [hcontrol]; exact hc) hw⟩
    obtain ⟨_, -, -, -, hbefore⟩ := h.toldAt hf ht
    exact hbefore.of_waiting hw
  · obtain ⟨_, htold⟩ := told ht
    obtain ⟨late, last, hlate, hdone⟩ := htold.of_running hp
    obtain ⟨t₀, ht₀, -, -, hbefore⟩ := h.toldAt hf ht
    have hm₀ := List.mem_of_getElem? ht₀
    rw [hp] at hbefore
    obtain ⟨_, early, hearly, hdid⟩ := hbefore.of_begun (hn t₀ hm₀)
    refine ⟨early, late, last.report?, hdid, hdone, ?_⟩
    rw [hcontrol] at hlate
    rw [← hl t₀ hm₀]
    refine Session.windsDown hearly hlate hc fun due hdue => ?_
    exact hd.sessions t (List.mem_of_getElem? ht) s hp due (by rw [hcontrol]; exact hdue)
  · obtain ⟨_, htold⟩ := told ht
    obtain ⟨_, hended⟩ := Task.ended_of_isOver ho
    exact (htold.of_ended hended).2

theorem due?_running {t : Task} {s : Session} (hs : t.progress = .running s) {due : Nat}
    (hd : s.due? d.control = some due) : d.due? t = some (max d.clock due) := by
  rw [due?, Task.due?, hs]
  exact congrArg (Option.map (max d.clock)) hd

/-- The next move is the earliest of all. -/
theorem clock_le_of_step? {next : Dispatch} {report : Option Report}
    (h : d.step? = some (next, report)) {t : Task} (ht : t ∈ d.tasks) {due : Nat}
    (hd : d.due? t = some due) : next.clock ≤ due := by
  unfold step? at h
  split at h
  · cases h
  · rename_i turn hturn
    split at h
    · cases h
    · obtain ⟨rfl, -⟩ := Prod.mk.inj (Option.some.inj h)
      rw [(release_keeps ..).2.2.2]
      obtain ⟨_, hmem⟩ := exists_mem_turns ht hd
      exact Turn.due_le_of_first? hturn _ hmem

/-- Makes the moves that come before an instant. -/
def runTo (note : σ → Nat → Report → σ) (instant : Nat) (d : Dispatch) (s : σ) : Dispatch × σ :=
  match _h : d.step? with
  | none => (d, s)
  | some (next, report) =>
    if next.clock < instant then
      runTo note instant next (match report with | some r => note s next.clock r | none => s)
    else (d, s)
termination_by (Lighter.wf Weight.lt_wf).wrap (d.tasks.map Task.weight)
decreasing_by exact step?_lighter ‹_›

section

variable {note : σ → Nat → Report → σ}

/-- A run goes on from where it stands at the instant. -/
theorem run_runTo (note : σ → Nat → Report → σ) (instant : Nat) (d : Dispatch) (s : σ) :
    (d.runTo note instant s).1.run note (d.runTo note instant s).2 = d.run note s := by
  fun_induction Dispatch.runTo note instant d s with
  | case1 => rfl
  | case2 d s next report hn hlt ih => exact ih.trans (run_of_step? note hn s).symm
  | case3 => rfl

theorem runTo_of_step? {next : Dispatch} {report : Option Report}
    (h : d.step? = some (next, report)) (hlt : next.clock < instant) (s : σ) :
    d.runTo note instant s =
      next.runTo note instant (match report with | some r => note s next.clock r | none => s) := by
  rw [runTo.eq_def note instant d s]
  split
  · rename_i hn
    rw [h] at hn
    cases hn
  · rename_i hn
    rw [h] at hn
    obtain ⟨rfl, rfl⟩ := Prod.mk.inj (Option.some.inj hn)
    exact if_pos hlt

theorem runTo_advance {d : Dispatch} {s : σ} (hc : (advance note (d, s)).1.clock < instant) :
    d.clock < instant ∧
      (advance note (d, s)).1.runTo note instant (advance note (d, s)).2 =
        d.runTo note instant s := by
  unfold advance at hc ⊢
  split at hc
  · exact ⟨hc, rfl⟩
  all_goals
    rename_i hn
    obtain ⟨place, task, now, -, hd, hnext, -⟩ := step?_eq_moved hn
    have hle := (of_due? hd).2
    rw [← (moved_keeps d place task now).2.2.2, ← hnext] at hle
    exact ⟨Nat.lt_of_le_of_lt hle hc, (runTo_of_step? hn hc s).symm⟩

/-- The moves before an instant are as many as it takes until the next one is not before it. -/
theorem runTo_eq_repeat {n : Nat} {state halted : Dispatch × σ}
    (h : Nat.repeat (advance note) n state = halted) (hc : halted.1.clock < instant)
    (hn : ∀ next report, halted.1.step? = some (next, report) → instant ≤ next.clock) :
    state.1.runTo note instant state.2 = halted := by
  have hstop : halted.1.runTo note instant halted.2 = halted := by
    rw [runTo]
    split
    · rfl
    · rename_i next report hstep
      exact if_neg (Nat.not_lt.mpr (hn next report hstep))
  rw [← hstop, ← h]
  rw [← h] at hc
  clear hstop hn h
  induction n with
  | zero => rfl
  | succ n ih =>
    obtain ⟨hbefore, hsame⟩ := runTo_advance hc
    exact (ih hbefore).trans hsame.symm

theorem runTo_keeps (keeps : Dispatch × σ → Prop)
    (hstep : ∀ d s next report, d.step? = some (next, report) → keeps (d, s) →
      keeps (next, match report with | some r => note s next.clock r | none => s))
    (d : Dispatch) (s : σ) (h : keeps (d, s)) : keeps (d.runTo note instant s) := by
  fun_induction Dispatch.runTo note instant d s with
  | case1 => exact h
  | case2 d s next report hn hlt ih =>
    have hnext := hstep d s next report hn h
    cases report with
    | none => exact ih hnext
    | some r => exact ih hnext
  | case3 => exact h

/-- **At the instant nothing from before it is left to do.** -/
theorem Trail.runTo (note : σ → Nat → Report → σ) (instant : Nat) (h : Trail first acts d)
    (hq : d.clock < instant ∨ ∀ t ∈ d.tasks, ∀ s, t.progress ≠ .running s) (s : σ) :
    (∃ more, Trail first (acts ++ more) (d.runTo note instant s).1) ∧
      (d.runTo note instant s).1.Awaits instant := by
  fun_induction Dispatch.runTo note instant d s generalizing acts with
  | case1 d s hn =>
    refine ⟨⟨[], by rwa [List.append_nil]⟩, fun t ht due hd => ?_, fun t ht s hs due hd => ?_⟩
    · rw [due?_of_step?_eq_none hn ht] at hd
      cases hd
    · have hnone := due?_of_step?_eq_none hn ht
      rw [due?_running hs hd] at hnone
      cases hnone
  | case2 d s next report hn hlt ih =>
    obtain ⟨place, task, now, ht, hd, rfl, -⟩ := step?_eq_moved hn
    obtain ⟨⟨more, htrail⟩, hawaits⟩ := ih (h.move ht hd) (.inl hlt)
    exact ⟨⟨_, by rwa [← List.append_assoc]⟩, hawaits⟩
  | case3 d s next report hn hle =>
    have hmoves : ∀ t ∈ d.tasks, ∀ due, d.due? t = some due → instant ≤ due := fun t ht due hd =>
      Nat.le_trans (Nat.le_of_not_lt hle) (clock_le_of_step? hn ht hd)
    refine ⟨⟨[], by rwa [List.append_nil]⟩, hmoves, fun t ht s hs due hd => ?_⟩
    have hlate := hmoves t ht _ (due?_running hs hd)
    rcases hq with hclock | hnone
    · omega
    · exact absurd hs (hnone t ht s)

end

end Dispatch

end Harvest
