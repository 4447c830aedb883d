import Harvest.Proofs.World.Moves
import Harvest.Session

/-! What no move of a session changes: its job, its start and its wall clock. And what it does to
the world are calls to its own relay and to the sink. One lemma for each part of a move. -/

namespace Harvest.Session

/-! ## What a move can be -/

/-- A session that is cut off stays as it is if it is over, closes if it was abandoned before, and
else is abandoned. -/
theorem interrupt_cases (s : Session) (reason : AbandonReason) (now : Nat) (world : World) :
    s.isOver = true ∧ s.interrupt reason now world = (world, s) ∨
      (∃ b reason' due heeds, s.stage = .salvaging b reason' due heeds ∧
        s.interrupt reason now world = s.close (.abandoned reason') now world) ∨
      s.isOver = false ∧ (∀ b reason' due heeds, s.stage ≠ .salvaging b reason' due heeds) ∧
        s.interrupt reason now world = s.abandon reason now world := by
  rw [interrupt, isOver]
  cases s.stage with
  | ended => exact .inl ⟨rfl, rfl⟩
  | crashed => exact .inl ⟨rfl, rfl⟩
  | salvaging b reason' due heeds => exact .inr (.inl ⟨b, reason', due, heeds, rfl, rfl⟩)
  | _ => exact .inr (.inr ⟨rfl, fun _ _ _ _ hs => (by cases hs), rfl⟩)

/-- A move cuts the session off or lets it go on; one that is over makes none. -/
theorem step_cases (s : Session) (c : Control) (world : World) :
    s.step c world = (world, s) ∨
      (∃ reason now, s.step c world = s.interrupt reason now world) ∨
      ∃ shutdown, s.step c world = s.proceed shutdown world := by
  unfold step
  split
  · split
    · exact .inr (.inl ⟨_, _, rfl⟩)
    · exact .inr (.inr ⟨_, rfl⟩)
  · exact .inr (.inr ⟨_, rfl⟩)
  · exact .inl rfl

/-! ## What a move keeps -/

/-- The move from a session in a world leads to `next` through calls of this session, and keeps
what the session was begun with. -/
def Leads (world : World) (s : Session) (next : World × Session) : Prop :=
  World.Moves s.relay world next.1 ∧ next.2.job = s.job ∧ next.2.started = s.started ∧
    next.2.wall = s.wall

theorem Leads.refl (world : World) (s : Session) : Leads world s (world, s) :=
  ⟨.refl, rfl, rfl, rfl⟩

theorem Leads.single {world next : World} {s : Session} (h : World.Move s.relay world next) :
    Leads world s (next, s) := ⟨.single h, rfl, rfl, rfl⟩

theorem Leads.trans {world : World} {s : Session} {mid next : World × Session}
    (h : Leads world s mid) (h' : Leads mid.1 mid.2 next) : Leads world s next := by
  obtain ⟨hm, hj, hs, hw⟩ := h
  obtain ⟨hm', hj', hs', hw'⟩ := h'
  have hr : mid.2.relay = s.relay := by rw [relay, hj, relay]
  rw [hr] at hm'
  exact ⟨hm.trans hm', hj'.trans hj, hs'.trans hs, hw'.trans hw⟩

/-- What is counted or pending, and where the session stands, is not among it. -/
theorem Leads.of_same {world : World} {s s' : Session} {next : World × Session}
    (h : Leads world s' next) (hj : s'.job = s.job) (hs : s'.started = s.started)
    (hw : s'.wall = s.wall) : Leads world s next := by
  rw [Leads, relay, ← hj, ← hs, ← hw]
  exact h

variable (s : Session) (now : Nat) (world : World)

theorem leads_disconnect : Leads world s (s.disconnect world) := by
  unfold disconnect
  split
  · exact .single (.closed world)
  · exact .refl world s

theorem leads_close (outcome : Outcome) : Leads world s (s.close outcome now world) :=
  leads_disconnect s world

theorem leads_salvage (reason : AbandonReason) : Leads world s (s.salvage reason now world) :=
  .single (.hand world s.batch now)

theorem leads_abandon (reason : AbandonReason) : Leads world s (s.abandon reason now world) := by
  simp only [abandon]
  split
  · exact (leads_close _ now world _).of_same rfl rfl rfl
  · exact (leads_salvage _ now world _).of_same rfl rfl rfl

theorem leads_giveUp (reason : AbandonReason) : Leads world s (s.giveUp reason now world) :=
  (leads_abandon _ now world reason).of_same rfl rfl rfl

theorem leads_attempt (w : Window) (retries : Nat) :
    Leads world s (s.attempt w retries now world) := by
  unfold attempt
  split
  · exact .refl world s
  · exact .single (.connect world)

theorem leads_ask (w : Window) (retries : Nat) : Leads world s (s.ask w retries now world) :=
  .single (.query world (s.queryFor w) s.settings.queryTimeout now)

theorem leads_fail (w : Window) (retries : Nat) (fault : LinkFault) :
    Leads world s (s.fail w retries fault now world) := by
  have hd := leads_disconnect s world
  simp only [fail]
  split
  · exact hd
  · exact hd.trans ((leads_giveUp _ now _ _).of_same rfl rfl rfl)

theorem leads_store (b : Batch) (retries : Nat) (after : After) :
    Leads world s (s.store b retries after now world) := .single (.hand world b now)

theorem leads_flush (after : After) : Leads world s (s.flush after now world) :=
  leads_store s now world s.batch 0 after

theorem leads_advance (shutdown : Bool) : Leads world s (s.advance shutdown now world) := by
  unfold advance
  split
  · split
    · exact (leads_giveUp _ now world _).of_same rfl rfl rfl
    · exact (leads_attempt _ now world _ _).of_same rfl rfl rfl
  · split
    · exact leads_close s now world _
    · exact leads_flush s now world _

theorem leads_absorb (w : Window) (received : Nat) (oldest : Option Nat) (shutdown : Bool)
    (items : List Json) : Leads world s (s.absorb w received oldest shutdown now world items) := by
  induction items generalizing s oldest with
  | nil => exact (leads_advance _ now world shutdown).of_same rfl rfl rfl
  | cons item rest ih =>
    unfold absorb
    split
    · exact (ih _ _).of_same rfl rfl rfl
    · dsimp only
      split
      · exact (leads_flush _ now world _).of_same rfl rfl rfl
      · exact (ih _ _).of_same rfl rfl rfl

theorem leads_settle (b : Batch) (retries : Nat) (after : After) (refusal : Option SinkFault)
    (shutdown : Bool) : Leads world s (s.settle b retries after refusal shutdown now world) := by
  have ht : Leads world s ((world.take b refusal).1, s) := .single (.take world b refusal)
  unfold settle
  split
  · rename_i taken count h
    rw [h] at ht
    split
    · exact ht.trans ((leads_absorb _ now _ _ _ _ _ _).of_same rfl rfl rfl)
    · exact ht.trans ((leads_close _ now _ _).of_same rfl rfl rfl)
  · rename_i taken fault h
    rw [h] at ht
    split
    · exact ht
    · exact ht.trans (leads_close _ now _ _)

theorem leads_settleSalvage (b : Batch) (reason : AbandonReason) (heeds : Bool) :
    Leads world s (s.settleSalvage b reason heeds now world) := by
  have ht : Leads world s ((world.take b none).1, s) := .single (.take world b none)
  unfold settleSalvage
  split
  · split
    all_goals
      rename_i h
      rw [h] at ht
      exact ht.trans ((leads_close _ now _ _).of_same rfl rfl rfl)
  · exact leads_close s now world _

theorem leads_proceed (shutdown : Bool) : Leads world s (s.proceed shutdown world) := by
  unfold proceed
  split
  · exact leads_advance s _ world _
  · split
    · exact .single (.opened world)
    · exact leads_fail s _ world _ _ _
    · exact .refl world s
  · exact leads_ask s _ world _ _
  · split
    · exact (leads_absorb _ _ world _ _ _ _ _).of_same rfl rfl rfl
    · exact leads_fail s _ world _ _ _
  · exact leads_attempt s _ world _ _
  · exact leads_settle s _ world _ _ _ _ _
  · exact leads_store s _ world _ _ _
  · exact leads_settleSalvage s _ world _ _ _
  · exact .refl world s
  · exact .refl world s

theorem leads_interrupt (reason : AbandonReason) :
    Leads world s (s.interrupt reason now world) := by
  unfold interrupt
  split
  · exact .refl world s
  · exact .refl world s
  · exact leads_close s now world _
  · exact leads_abandon s now world reason

/-- Every move of a session consists of calls of its own, and keeps what it was begun with. -/
theorem leads_step (c : Control) : Leads world s (s.step c world) := by
  unfold step
  split
  · split
    · exact leads_interrupt s _ world _
    · exact leads_proceed s world _
  · exact leads_proceed s world _
  · exact .refl world s

end Harvest.Session
