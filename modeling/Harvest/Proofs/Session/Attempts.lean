import Harvest.Proofs.Session.Completeness
import Harvest.Proofs.Session.Stored
import Harvest.Proofs.Session.Yield

/-! Sessions for one job, one after the other, each ended in whatever way. Together they bring in
what one session that is not interrupted brings in, as soon as one of them is drained, and before
that a part of it. After that another session finds nothing new. -/

namespace Harvest

namespace Session

variable {answer : WindowQuery → Reply} {job : Job} {world : World}

/-- A session of the job since the world was `old`, whose relay always gives these answers. -/
structure Bound (answer : WindowQuery → Reply) (job : Job) (old : World)
    (state : World × Session) : Prop where
  same : state.2.job = job
  moves : World.Moves job.relay.id old state.1
  steady : Steady answer (old.Knows (job.yield answer)) state

/-- Such a session that has found nothing new. -/
def Barren (answer : WindowQuery → Reply) (job : Job) (old : World) (state : World × Session) :
    Prop :=
  Bound answer job old state ∧ state.2.stats.stored = 0

theorem bound_step {old : World} (hr : old.Replies answer job.relay.id) {s : Session}
    (h : Bound answer job old (world, s)) (c : Control) :
    Bound answer job old (s.step c world) := by
  obtain ⟨rfl, hm, hs⟩ := h
  obtain ⟨hmoves, hjob, -⟩ := leads_step s world c
  exact ⟨hjob, hm.trans hmoves, steady_step hs (hr.moves hm) c⟩

theorem bound_run (hr : world.Replies answer job.relay.id) (wall : UInt64) (now : Nat)
    (c : Control) : Bound answer job world ((start job wall now).run c world) :=
  run_keeps (fun _ _ h => bound_step hr h c) _ _ ⟨rfl, .refl, steady_start job wall now⟩

/-- A session adds nothing to the sink that is not to be brought in. -/
theorem run_spares (hr : world.Replies answer job.relay.id) (wall : UInt64) (now : Nat)
    (c : Control) {id : String} (h : ((start job wall now).run c world).1.holds id = true) :
    world.Knows (job.yield answer) id := (bound_run hr wall now c).steady.spares id (.inl h)

/-- After a drained session the sink holds what it held before, and all that was to be brought
in. -/
theorem run_drained (hr : world.Replies answer job.relay.id) {wall : UInt64} {now : Nat}
    {c : Control} {r : Report} (hreport : ((start job wall now).run c world).2.report? = some r)
    (hd : r.outcome = .drained) (id : String) :
    ((start job wall now).run c world).1.holds id = true ↔ world.Knows (job.yield answer) id :=
  ⟨run_spares hr wall now c, (bound_run hr wall now c).steady.report hreport hd⟩

/-- Where the sink holds all that a session is to bring in, the session stores nothing new. -/
theorem run_again (hr : world.Replies answer job.relay.id)
    (hall : ∀ e ∈ job.yield answer, world.holds e.id = true) (wall : UInt64) (now : Nat)
    (c : Control) :
    ((start job wall now).run c world).1.holds = world.holds ∧
      ((start job wall now).run c world).2.stats.stored = 0 := by
  have hknown {id : String} (h : world.Knows (job.yield answer) id) : world.holds id = true := by
    rcases h with h | ⟨e, he, rfl⟩
    · exact h
    · exact hall e he
  constructor
  · funext id
    rw [Bool.eq_iff_iff]
    exact ⟨fun h => hknown (run_spares hr wall now c h),
      (bound_run hr wall now c).moves.holds⟩
  · suffices h : Barren answer job world ((start job wall now).run c world) from h.2
    refine run_keeps ?_ _ _ ⟨⟨rfl, .refl, steady_start job wall now⟩, rfl⟩
    rintro later s ⟨hb, h0⟩
    refine ⟨bound_step hr hb c, ?_⟩
    rcases counts_step later c with h | ⟨b, refusal, count, hh, ht, h⟩
    · exact h.trans h0
    · -- all events of the batch are due, so the sink holds them already
      have hk : ∀ e ∈ b.events, later.holds e.id = true := fun e he =>
        hb.moves.holds (hknown (hb.steady.hands hh e he))
      rw [h, World.take_known ht hk]
      exact h0

end Session

/-- Sessions for one job, one after the other, and the world they come to. Between two of them
everything may change except what the sink holds and what the relay answers. -/
inductive Attempts (answer : WindowQuery → Reply) (job : Job) (old : World) :
    List Session → World → Prop
  | none : Attempts answer job old [] old
  | next {ended : List Session} {world between : World} (h : Attempts answer job old ended world)
      (hsink : between.holds = world.holds) (hr : between.Replies answer job.relay.id)
      (wall : UInt64) (now : Nat) (c : Control) :
      Attempts answer job old (((Session.start job wall now).run c between).2 :: ended)
        ((Session.start job wall now).run c between).1

/-- The session reports that it has drained its target. -/
def Session.Drains (s : Session) : Prop := ∃ r, s.report? = some r ∧ r.outcome = .drained

namespace Attempts

variable {answer : WindowQuery → Reply} {job : Job} {old world : World} {ended : List Session}

theorem spares (h : Attempts answer job old ended world) {id : String}
    (hk : world.holds id = true) : old.Knows (job.yield answer) id := by
  induction h generalizing id with
  | none => exact .inl hk
  | next _ hsink hr wall now c ih =>
    rcases Session.run_spares hr wall now c hk with hk | he
    · exact ih (hsink ▸ hk)
    · exact .inr he

theorem drained (h : Attempts answer job old ended world) (hd : ∃ s ∈ ended, s.Drains) {id : String}
    (hk : ∃ e ∈ job.yield answer, e.id = id) : world.holds id = true := by
  induction h with
  | none =>
    obtain ⟨s, hs, -⟩ := hd
    cases hs
  | next _ hsink hr wall now c ih =>
    obtain ⟨s, hs, hds⟩ := hd
    rcases List.mem_cons.mp hs with rfl | hs
    · obtain ⟨r, hreport, ho⟩ := hds
      exact (Session.run_drained hr hreport ho id).mpr (.inr hk)
    · exact (Session.bound_run hr wall now c).moves.holds (hsink ▸ ih ⟨s, hs, hds⟩)

/-- **Sessions that were cut short and tried again bring in what one that was not interrupted
brings in.** -/
theorem converge (h : Attempts answer job old ended world)
    (hold : ∀ id, old.holds id = false) {alone : World} (halone : ∀ id, alone.holds id = false)
    (hr : alone.Replies answer job.relay.id) {wall : UInt64} {now : Nat} {c : Control}
    (hd : ((Session.start job wall now).run c alone).2.Drains) :
    let whole := ((Session.start job wall now).run c alone).1
    (∀ id, whole.holds id = true ↔ ∃ e ∈ job.yield answer, e.id = id) ∧
      (∀ id, world.holds id = true → whole.holds id = true) ∧
      ((∃ s ∈ ended, s.Drains) → world.holds = whole.holds ∧
        ∀ (between : World), between.holds = world.holds → between.Replies answer job.relay.id →
          ∀ (wall : UInt64) (now : Nat) (c : Control),
            let (after, s) := (Session.start job wall now).run c between
            after.holds = world.holds ∧ s.stats.stored = 0) := by
  intro whole
  have hwhole (id : String) : whole.holds id = true ↔ ∃ e ∈ job.yield answer, e.id = id := by
    obtain ⟨r, hreport, ho⟩ := hd
    rw [Session.run_drained hr hreport ho id, World.Knows, halone]
    exact or_iff_right Bool.false_ne_true
  have hpart (id : String) (hk : world.holds id = true) : whole.holds id = true := by
    refine (hwhole id).mpr ((h.spares hk).resolve_left ?_)
    rw [hold]
    exact Bool.false_ne_true
  refine ⟨hwhole, hpart, fun hdrained => ⟨?_, ?_⟩⟩
  · funext id
    rw [Bool.eq_iff_iff]
    exact ⟨hpart id, fun hk => h.drained hdrained ((hwhole id).mp hk)⟩
  · intro between hsink hreplies wall now c
    have hall : ∀ e ∈ job.yield answer, between.holds e.id = true := fun e he => by
      rw [hsink]
      exact h.drained hdrained ⟨e, he, rfl⟩
    obtain ⟨hsame, hstored⟩ := Session.run_again hreplies hall wall now c
    exact ⟨hsame.trans hsink, hstored⟩

/-- The first session is cancelled while it waits for its reply, the second one is drained. -/
theorem converge_cancelled :
    let relay : Relay := { id := "relay", overrides := { resultCap := some 2 } }
    let held : List Event := [{ Event.build (Event.repeated "a1") 5 1 [] "x" with
      id := "7cb95dc45205407bb4c493f8ff38b0437cbfc4b817ab6533a08c1b36d33d4582" }]
    let peer : MemoryRelay := { events := held, cap := some 2, garbage := 1, latency := 10 }
    let world : World :=
      { network := { peers := [("relay", .memory peer)] }, sink := { depot := .memory {} } }
    let job : Job := { relay, target := ⟨5, 5⟩, settings := Config.settings {} relay }
    let (cut, first) := (Session.start job 100 0).run { cancelAt := some 5 } world
    let (after, second) := (Session.start job 100 0).run {} cut
    let whole := ((Session.start job 100 0).run {} world).1
    first.report?.map (·.outcome) = some (.abandoned .cancelled) ∧ second.Drains ∧
      (∀ e ∈ held, after.holds e.id = true) ∧ after.holds = whole.holds := by
  intro relay held peer world job
  have hr : world.Replies peer.answer job.relay.id := World.replies_of_memory rfl
  have hempty : ∀ id, world.holds id = false := fun _ => rfl
  have hends : ∃ cut after whole,
      Nat.repeat (fun state => state.2.step { cancelAt := some 5 } state.1) 4
          (world, Session.start job 100 0) = cut ∧
        (cut.2.isOver = true ∧
          cut.2.report?.map (·.outcome) = some (.abandoned .cancelled)) ∧
        Nat.repeat (fun state => state.2.step {} state.1) 6 (cut.1, Session.start job 100 0) =
          after ∧
        (after.2.isOver = true ∧ after.2.report?.map (·.outcome) = some .drained ∧
          ∀ e ∈ held, after.1.holds e.id = true) ∧
        Nat.repeat (fun state => state.2.step {} state.1) 6 (world, Session.start job 100 0) =
          whole ∧
        (whole.2.isOver = true ∧ whole.2.report?.map (·.outcome) = some .drained) := by
    clear hr hempty
    refine ⟨_, _, _, rfl, ?_, rfl, ?_, rfl, ?_⟩
    all_goals
      revert relay held peer world job
      decide +kernel
  obtain ⟨⟨cut, first⟩, ⟨after, second⟩, ⟨whole, alone⟩, hcut, ⟨hcutover, hcancelled⟩, hafter,
    ⟨hafterover, hdrained, hheld⟩, hwhole, hwholeover, hwholedrained⟩ := hends
  have hcut := Session.run_eq_repeat hcut hcutover
  have hafter := Session.run_eq_repeat hafter hafterover
  have hwhole := Session.run_eq_repeat hwhole hwholeover
  have drains {s : Session} (h : s.report?.map (·.outcome) = some .drained) : s.Drains :=
    Option.map_eq_some_iff.mp h
  have hreplies := hr.moves (Session.bound_run hr 100 0 { cancelAt := some 5 }).moves
  have hfirst := Attempts.none.next rfl hr 100 0 { cancelAt := some 5 }
  have hattempts := hfirst.next rfl hreplies 100 0 {}
  have hall := converge hattempts hempty hempty hr (hwhole ▸ drains hwholedrained)
  rw [hcut] at hall ⊢
  rw [hafter, hwhole] at hall
  dsimp only
  rw [hafter, hwhole]
  exact ⟨hcancelled, drains hdrained, hheld,
    (hall.2.2 ⟨_, List.mem_cons_self .., drains hdrained⟩).1⟩

end Attempts

end Harvest
