import Harvest.Proofs.Session.Accounts

/-! A session for a target that is not empty ends drained only after the relay has answered: it
takes the target as its first window, and with no reply to it the window stays in its hand. -/

namespace Harvest

/-- Whatever the session asks its relay, others ask theirs; nothing that was asked is forgotten. -/
theorem World.Moves.asked {relay : RelayId} {a b : World} (h : Moves relay a b) :
    ∃ more, b.network.asked = more ++ a.network.asked := by
  induction h with
  | refl => exact ⟨[], rfl⟩
  | tail _ hm ih =>
    obtain ⟨more, hmore⟩ := ih
    cases hm with
    | connect => exact ⟨more, by rw [World.asked_connect, hmore]⟩
    | opened => exact ⟨more, by rw [World.asked_opened, hmore]⟩
    | closed => exact ⟨more, by rw [World.asked_closed, hmore]⟩
    | query q timeout now =>
      exact ⟨⟨relay, now, q⟩ :: more, by rw [World.asked_query, hmore, List.cons_append]⟩
    | hand => exact ⟨more, hmore⟩
    | take => exact ⟨more, by rw [World.network_take, hmore]⟩

/-- The relay was asked for the window after the world was `old`. -/
def World.AskedSince (old world : World) (relay : RelayId) (w : Window) : Prop :=
  ∃ asked, world.network.asked = asked ++ old.network.asked ∧
    ∃ a ∈ asked, a.relay = relay ∧ a.query.window = w

theorem World.AskedSince.more {old world world' : World} {relay : RelayId} {w : Window}
    (h : old.AskedSince world relay w) (more : List Asked)
    (hm : world'.network.asked = more ++ world.network.asked) :
    old.AskedSince world' relay w := by
  obtain ⟨asked, ha, a, hmem, hq⟩ := h
  refine ⟨more ++ asked, ?_, a, List.mem_append_right _ hmem, hq⟩
  rw [hm, ha, List.append_assoc]

namespace Session

/-- The session has asked for its target since the world was `old`, and counts it. -/
def HasAsked (old world : World) (s : Session) : Prop :=
  1 ≤ s.stats.queries ∧ old.AskedSince world s.relay s.job.target

/-- The session has asked for its target, and has had a reply. -/
def Answered (old world : World) (s : Session) : Prop :=
  s.HasAsked old world ∧ 1 ≤ s.stats.resolved

/-- Where a session stands with its target. -/
def Engaged (old : World) : World × Session → Prop
  | (world, s) =>
    match s.stage with
    | .ready _ => s.splitter.stack.pending = [s.job.target] ∨ s.Answered old world
    | .connecting w .. | .pacing w .. | .resting w .. => w = s.job.target ∨ s.HasAsked old world
    | .querying .. => s.HasAsked old world
    | .storing _ _ after .. | .storeResting _ _ after _ =>
      s.HasAsked old world ∧ (after = .finish → 1 ≤ s.stats.resolved)
    | .ended .drained _ => s.Answered old world
    | _ => True

variable {old world : World} {s : Session} {w : Window}

theorem HasAsked.more (h : s.HasAsked old world) {world' : World} (more : List Asked)
    (hm : world'.network.asked = more ++ world.network.asked) : s.HasAsked old world' :=
  ⟨h.1, h.2.more more hm⟩

theorem HasAsked.disconnect (h : s.HasAsked old world) :
    (s.disconnect world).2.HasAsked old (s.disconnect world).1 := by
  unfold Session.disconnect
  split
  · exact ⟨h.1, h.2.more [] (World.asked_closed ..)⟩
  · exact h

/-- What the others ask in the meantime does no harm. -/
theorem Engaged.more (h : Engaged old (world, s)) {world' : World} (more : List Asked)
    (hm : world'.network.asked = more ++ world.network.asked) : Engaged old (world', s) := by
  simp only [Engaged] at h ⊢
  cases hs : s.stage with
  | ready => rw [hs] at h; exact h.imp_right fun ha => ⟨ha.1.more more hm, ha.2⟩
  | connecting => rw [hs] at h; exact h.imp_right fun ha => ha.more more hm
  | pacing => rw [hs] at h; exact h.imp_right fun ha => ha.more more hm
  | resting => rw [hs] at h; exact h.imp_right fun ha => ha.more more hm
  | querying => rw [hs] at h; exact HasAsked.more h more hm
  | storing => rw [hs] at h; exact ⟨h.1.more more hm, h.2⟩
  | storeResting => rw [hs] at h; exact ⟨h.1.more more hm, h.2⟩
  | salvaging => trivial
  | ended outcome =>
    rw [hs] at h
    cases outcome with
    | drained => exact ⟨h.1.more more hm, h.2⟩
    | abandoned => trivial
    | sinkFailed => trivial
  | crashed => trivial

/-- A session that reports to be drained has had a reply. -/
theorem Engaged.report (h : Engaged old (world, s)) {r : Report} (hr : s.report? = some r)
    (hd : r.outcome = .drained) :
    1 ≤ r.stats.queries ∧ 1 ≤ r.stats.resolved ∧ old.AskedSince world r.relay r.target := by
  unfold report? at hr
  split at hr
  · rename_i outcome at_ hs
    obtain rfl := Option.some.inj hr
    obtain rfl : outcome = .drained := hd
    simp only [Engaged, hs] at h
    obtain ⟨⟨hq, ha⟩, hn⟩ := h
    exact ⟨hq, hn, ha⟩
  · cases hr

/-! ## The parts of a move -/

theorem engaged_start {job : Job} (ht : job.target.since ≤ job.target.upto) (old world : World)
    (wall : UInt64) (now : Nat) : Engaged old (world, start job wall now) := by
  left
  exact (Splitter.pending_ofRange ..).trans (if_pos ht)

theorem engaged_close {outcome : Outcome} (now : Nat)
    (h : outcome = .drained → s.Answered old world) :
    Engaged old (s.close outcome now world) := by
  simp only [close]
  cases outcome with
  | drained =>
    obtain ⟨ha, hn⟩ := h rfl
    refine ⟨ha.disconnect, ?_⟩
    rw [Session.disconnect]
    split <;> exact hn
  | abandoned => trivial
  | sinkFailed => trivial

theorem engaged_abandon (reason : AbandonReason) (now : Nat) :
    Engaged old (s.abandon reason now world) := by
  simp only [abandon]
  split
  · exact engaged_close now (by simp)
  · trivial

theorem engaged_giveUp (reason : AbandonReason) (now : Nat) :
    Engaged old (s.giveUp reason now world) := engaged_abandon reason now

theorem engaged_attempt (h : w = s.job.target ∨ s.HasAsked old world) (retries now : Nat) :
    Engaged old (s.attempt w retries now world) := by
  rw [attempt]
  split
  · exact h
  · refine h.imp_right fun ha => ?_
    exact ⟨ha.1, ha.2.more [] (World.asked_connect ..)⟩

/-- After the first query the target was asked for. -/
theorem engaged_ask (h : w = s.job.target ∨ s.HasAsked old world)
    (hold : ∃ more, world.network.asked = more ++ old.network.asked) (retries now : Nat) :
    Engaged old (s.ask w retries now world) := by
  have hq := World.asked_query world s.relay (s.queryFor w) s.settings.queryTimeout now
  refine ⟨Nat.le_add_left 1 _, ?_⟩
  rcases h with rfl | ha
  · obtain ⟨more, hmore⟩ := hold
    refine ⟨⟨s.relay, now, s.queryFor s.job.target⟩ :: more, ?_, _, List.mem_cons_self .., rfl, rfl⟩
    rw [List.cons_append, ← hmore]
    exact hq
  · exact ha.2.more [_] hq

theorem engaged_fail (h : w = s.job.target ∨ s.HasAsked old world) (retries : Nat)
    (fault : LinkFault) (now : Nat) : Engaged old (s.fail w retries fault now world) := by
  have hj : (s.disconnect world).2.job = s.job := (leads_disconnect s world).2.1
  simp only [fail]
  split
  · refine h.imp (fun hw => ?_) fun ha => ha.disconnect
    rw [hw, ← hj]
  · exact engaged_giveUp _ now

theorem engaged_flush {after : After} (h : s.HasAsked old world)
    (hf : after = .finish → 1 ≤ s.stats.resolved) (now : Nat) :
    Engaged old (s.flush after now world) := ⟨h, hf⟩

theorem engaged_advance
    (h : s.splitter.stack.pending = [s.job.target] ∨ s.Answered old world) (shutdown : Bool)
    (now : Nat) : Engaged old (s.advance shutdown now world) := by
  unfold advance
  split
  · rename_i w rest hn
    dsimp only
    split
    · exact engaged_giveUp _ now
    · refine engaged_attempt ?_ 0 now
      rcases h with hp | ha
      · -- the first window is the target
        rw [(Splitter.next_eq_some hn).1] at hp
        exact .inl (List.cons.inj hp).1
      · exact .inr ha.1
  · rename_i hn
    have hn := Splitter.next_eq_none_iff.mp hn
    have ha : s.Answered old world := by
      refine h.resolve_left ?_
      rw [hn]
      exact (List.cons_ne_nil _ _).symm
    split
    · exact engaged_close now fun _ => ha
    · exact engaged_flush ha.1 (fun _ => ha.2) now

theorem engaged_absorb (h : s.HasAsked old world) (received : Nat) (oldest : Option Nat)
    (items : List Json) (shutdown : Bool) (now : Nat) :
    Engaged old (s.absorb w received oldest shutdown now world items) := by
  rcases absorb_cases w received shutdown now world s oldest items with ha | ⟨front, rest, -, ha⟩
  · rw [ha]
    apply engaged_advance
    refine .inr ⟨h, ?_⟩
    simp only [Session.resolve, Splitter.resolved_resolve]
    exact Nat.le_add_left 1 _
  · rw [ha]
    exact engaged_flush (s := s.look front) h (fun hf => by cases hf) now

theorem engaged_settle {after : After} (h : s.HasAsked old world)
    (hf : after = .finish → 1 ≤ s.stats.resolved) (b : Batch) (retries : Nat)
    (refusal : Option SinkFault) (shutdown : Bool) (now : Nat) :
    Engaged old (s.settle b retries after refusal shutdown now world) := by
  have ht : s.HasAsked old (world.take b refusal).1 :=
    h.more [] (by rw [World.network_take, List.nil_append])
  unfold settle
  split
  · rename_i taken count heq
    rw [heq] at ht
    cases after with
    | reply v received oldest rest =>
      exact engaged_absorb (s := s.noteStored b count) ht received oldest rest shutdown now
    | finish => exact engaged_close (s := s.noteStored b count) now fun _ => ⟨ht, hf rfl⟩
  · rename_i taken fault heq
    rw [heq] at ht
    split
    · exact ⟨ht, hf⟩
    · exact engaged_close now (by simp)

theorem engaged_settleSalvage (b : Batch) (reason : AbandonReason) (heeds : Bool) (now : Nat) :
    Engaged old (s.settleSalvage b reason heeds now world) := by
  unfold settleSalvage
  split
  · split <;> exact engaged_close now (by simp)
  · exact engaged_close now (by simp)

/-! ## Moves -/

theorem engaged_proceed (h : Engaged old (world, s))
    (hold : ∃ more, world.network.asked = more ++ old.network.asked) (shutdown : Bool) :
    Engaged old (s.proceed shutdown world) := by
  simp only [Engaged] at h
  rw [proceed]
  cases hs : s.stage with
  | ready now => rw [hs] at h; exact engaged_advance h shutdown now
  | connecting w retries now result =>
    rw [hs] at h
    cases result with
    | opened =>
      refine h.imp_right fun ha => ?_
      exact ⟨ha.1, ha.2.more [] (World.asked_opened ..)⟩
    | failed fault => exact engaged_fail h retries fault now
    | crashed => trivial
  | pacing w retries now => rw [hs] at h; exact engaged_ask h hold retries now
  | querying w retries now result =>
    rw [hs] at h
    cases result with
    | ok reply =>
      refine engaged_absorb (?_ : HasAsked old world _) _ none _ shutdown now
      exact h
    | error fault => exact engaged_fail (.inr h) retries fault now
  | resting w retries now => rw [hs] at h; exact engaged_attempt h retries now
  | storing b retries after now refusal =>
    rw [hs] at h
    exact engaged_settle h.1 h.2 b retries refusal shutdown now
  | storeResting b retries after now => rw [hs] at h; exact h
  | salvaging b reason now heeds => exact engaged_settleSalvage b reason heeds now
  | ended => simpa only [Engaged, hs] using h
  | crashed => simp only [Engaged, hs]

theorem engaged_interrupt (h : Engaged old (world, s)) (reason : AbandonReason) (now : Nat) :
    Engaged old (s.interrupt reason now world) := by
  rcases s.interrupt_cases reason now world with ⟨-, hi⟩ | ⟨_, _, _, _, -, hi⟩ | ⟨-, -, hi⟩
  · rw [hi]
    exact h
  · rw [hi]
    exact engaged_close now (by simp)
  · rw [hi]
    exact engaged_abandon reason now

/-- No move of a session makes it drained before the relay has answered. -/
theorem engaged_step (h : Engaged old (world, s))
    (hold : ∃ more, world.network.asked = more ++ old.network.asked) (c : Control) :
    Engaged old (s.step c world) := by
  rcases s.step_cases c world with hs | ⟨reason, now, hs⟩ | ⟨shutdown, hs⟩
  · rw [hs]
    exact h
  · rw [hs]
    exact engaged_interrupt h reason now
  · rw [hs]
    exact engaged_proceed h hold shutdown

end Session

end Harvest
