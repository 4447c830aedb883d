import Harvest.Proofs.Session.Accounts
import Harvest.Proofs.Session.Stored

/-! What a session is to bring in, where the replies of its relay depend on the queries alone. The
replies then settle which windows come up and which events come with them, one sequence for all
sessions of a job: wherever a session stands, what the sink holds and what is still to come are
together the same. A session that ends early leaves a part of it out and adds nothing else; one that
ends drained has left nothing out. -/

namespace Harvest

/-- Queries about a relay that succeed have these replies, now and after any calls of its
session. -/
def World.Replies (answer : WindowQuery → Reply) (relay : RelayId) (world : World) : Prop :=
  ∀ later, World.Moves relay world later → ∀ (q : WindowQuery) (timeout now : Nat) (reply : Reply),
    (later.query relay q timeout now).2.value = .ok reply → reply = answer q

theorem World.Replies.moves {answer : WindowQuery → Reply} {relay : RelayId} {world later : World}
    (h : world.Replies answer relay) (hm : World.Moves relay world later) :
    later.Replies answer relay := fun last hl => h last (hm.trans hl)

/-- What a relay in memory answers depends on its events, its cap and its garbage alone. -/
theorem MemoryRelay.answer_congr {r r' : MemoryRelay} (he : r'.events = r.events)
    (hc : r'.cap = r.cap) (hg : r'.garbage = r.garbage) : r'.answer = r.answer := by
  funext q
  simp only [answer, limit, matching, he, hc, hg]

namespace Peer

theorem connect_memory (addr : RelayId) (r : MemoryRelay) :
    ∃ r', (connect addr (.memory r)).1 = .memory r' ∧ r'.answer = r.answer := by
  rw [connect]
  split
  · exact ⟨_, rfl, MemoryRelay.answer_congr rfl rfl rfl⟩
  · exact ⟨r, rfl, rfl⟩

theorem query_memory (q : WindowQuery) (timeout : Nat) (r : MemoryRelay) :
    (∃ r', (query q timeout (.memory r)).1 = .memory r' ∧ r'.answer = r.answer) ∧
      ∀ reply, (query q timeout (.memory r)).2.value = .ok reply → reply = r.answer q := by
  rw [query]
  split
  · exact ⟨⟨_, rfl, MemoryRelay.answer_congr rfl rfl rfl⟩, fun _ h => by cases h⟩
  · split
    · exact ⟨⟨r, rfl, rfl⟩, fun _ h => by cases h⟩
    · exact ⟨⟨r, rfl, rfl⟩, fun reply h => (Except.ok.inj (eq_ok_of_within h)).symm⟩

end Peer

/-- A relay in memory is such a relay, however slow it is and however often it fails. -/
theorem World.replies_of_memory {relay : RelayId} {world : World} {r : MemoryRelay}
    (h : world.network.peer? relay = some (.memory r)) : world.Replies r.answer relay := by
  intro later hm
  have hpeer : ∃ r', later.network.peer? relay = some (.memory r') ∧ r'.answer = r.answer := by
    induction hm with
    | refl => exact ⟨r, h, rfl⟩
    | tail _ hm ih =>
      obtain ⟨r', hp, ha⟩ := ih
      cases hm with
      | connect =>
        obtain ⟨r'', hc, ha'⟩ := Peer.connect_memory relay r'
        refine ⟨r'', ?_, ha'.trans ha⟩
        rw [World.connect, Network.peer?_connect, if_pos rfl, hp, Option.map_some, hc]
      | opened => exact ⟨r', (Network.peer?_opened ..).trans hp, ha⟩
      | closed => exact ⟨r', (Network.peer?_closed ..).trans hp, ha⟩
      | query q timeout now =>
        obtain ⟨⟨r'', hq, ha'⟩, -⟩ := Peer.query_memory q timeout r'
        refine ⟨r'', ?_, ha'.trans ha⟩
        rw [World.query, Network.peer?_query, if_pos rfl, hp, Option.map_some, hq]
      | hand b now => exact ⟨r', hp, ha⟩
      | take b refusal => exact ⟨r', by rw [network_take]; exact hp, ha⟩
  obtain ⟨r', hp, ha⟩ := hpeer
  intro q timeout now reply hr
  obtain ⟨p, hp', hv⟩ := World.query_value hr
  obtain rfl := Option.some.inj (hp.symm.trans hp')
  rw [← ha]
  exact (Peer.query_memory q timeout r').2 reply hv

/-! ## What is to come -/

namespace Splitter

/-- All events that come up where each window has its reply, in their order. -/
def yield (answer : Window → Reply) (s : Splitter) : List Event :=
  match _h : s.next with
  | none => []
  | some (w, rest) =>
    Event.among (answer w).items ++
      yield answer (rest.resolve w (answer w).received
        (Session.oldestAfter w none (answer w).items)).2
termination_by s.potential
decreasing_by
  rw [potential_next _h]
  exact potential_resolve_lt ..

/-- The events that come up from the rest of a reply on. -/
def yieldFrom (answer : Window → Reply) (s : Splitter) (w : Window) (received : Nat)
    (oldest : Option Nat) (items : List Json) : List Event :=
  Event.among items ++ (s.resolve w received (Session.oldestAfter w oldest items)).2.yield answer

variable (answer : Window → Reply)

theorem yield_of_next_eq_none {s : Splitter} (h : s.next = none) : s.yield answer = [] := by
  rw [yield]
  split
  · rfl
  · rename_i hn
    rw [h] at hn
    cases hn

theorem yield_of_next {s rest : Splitter} {w : Window} (h : s.next = some (w, rest)) :
    s.yield answer = rest.yieldFrom answer w (answer w).received none (answer w).items := by
  rw [yield]
  split
  · rename_i hn
    rw [h] at hn
    cases hn
  · rename_i hn
    rw [h] at hn
    obtain ⟨rfl, rfl⟩ := Prod.mk.inj (Option.some.inj hn)
    rfl

theorem yieldFrom_append (s : Splitter) (w : Window) (received : Nat) (oldest : Option Nat)
    (front rest : List Json) :
    s.yieldFrom answer w received oldest (front ++ rest) =
      Event.among front ++
        s.yieldFrom answer w received (Session.oldestAfter w oldest front) rest := by
  rw [yieldFrom, yieldFrom, Session.oldestAfter_append, ← List.append_assoc]
  congr 1
  exact List.filterMap_append ..

end Splitter

/-- All events that a session for the job comes to see if nothing cuts it short. -/
def Job.yield (answer : WindowQuery → Reply) (job : Job) : List Event :=
  (Splitter.ofRange job.target job.settings.resultCap job.settings.minWindow).yield fun w =>
    answer { window := w, limit := job.settings.resultCap }

namespace Session

/-- What comes up with the windows that are owed. -/
def owed (answer : WindowQuery → Reply) (s : Session) : List Event :=
  s.splitter.yield fun w => answer (s.queryFor w)

/-- What comes up with the window in hand and those that are owed. -/
def owedWith (answer : WindowQuery → Reply) (s : Session) (w : Window) : List Event :=
  s.splitter.yieldFrom (fun w => answer (s.queryFor w)) w (answer (s.queryFor w)).received none
    (answer (s.queryFor w)).items

/-- What comes up once a batch was taken. -/
def owedAfter (answer : WindowQuery → Reply) (s : Session) : After → List Event
  | .reply w received oldest rest =>
    s.splitter.yieldFrom (fun w => answer (s.queryFor w)) w received oldest rest
  | .finish => []

end Session

/-- The event is with the sink, or it is among these. -/
def World.Knows (world : World) (events : List Event) (id : String) : Prop :=
  world.holds id = true ∨ ∃ e ∈ events, e.id = id

namespace World

variable {world world' : World} {events events' : List Event} {id : String}

theorem Knows.imp (h : world.Knows events id) (hw : world'.holds = world.holds)
    (he : events ⊆ events') : world'.Knows events' id := by
  refine Or.imp (fun hk => by rw [hw]; exact hk) ?_ h
  rintro ⟨e, hm, rfl⟩
  exact ⟨e, he hm, rfl⟩

theorem knows_take_iff {b : Batch} {refusal : Option SinkFault} {count : Nat}
    (h : (world.take b refusal).2 = .ok count) :
    (world.take b refusal).1.Knows events id ↔ world.Knows (b.events ++ events) id := by
  simp only [Knows, holds_take_iff h, List.mem_append, or_and_right, exists_or, or_assoc]

end World

/-- What is to be brought in is just what the sink holds and these events. -/
def World.Owes (due : String → Prop) (world : World) (events : List Event) : Prop :=
  ∀ id, due id ↔ world.Knows events id

/-- What the sink holds and these events are among what is to be brought in. -/
def World.Spares (due : String → Prop) (world : World) (events : List Event) : Prop :=
  ∀ id, world.Knows events id → due id

namespace World

variable {due : String → Prop} {world world' : World} {events events' : List Event}

theorem Owes.spares (h : world.Owes due events) (hs : events' ⊆ events) :
    world.Spares due events' := fun id hk => (h id).mpr (hk.imp rfl hs)

theorem Spares.imp (h : world.Spares due events) (hw : world'.holds = world.holds)
    (hs : events' ⊆ events) : world'.Spares due events' := fun id hk => h id (hk.imp hw.symm hs)

theorem Owes.congr (h : world.Owes due events) (hw : world'.holds = world.holds) :
    world'.Owes due events := fun id =>
  (h id).trans ⟨fun hk => hk.imp hw fun _ he => he, fun hk => hk.imp hw.symm fun _ he => he⟩

theorem Owes.take {b : Batch} {refusal : Option SinkFault} {count : Nat}
    (h : world.Owes due (b.events ++ events)) (ht : (world.take b refusal).2 = .ok count) :
    (world.take b refusal).1.Owes due events := fun id => (h id).trans (knows_take_iff ht).symm

theorem Spares.take {b : Batch} {refusal : Option SinkFault} {count : Nat}
    (h : world.Spares due (b.events ++ events)) (ht : (world.take b refusal).2 = .ok count) :
    (world.take b refusal).1.Spares due events := fun id hk => h id ((knows_take_iff ht).mp hk)

end World

namespace Session

/-- Where a session stands with what is due. While it is at work, what the sink holds and what is
still to come are together all that is due. -/
def Steady (answer : WindowQuery → Reply) (due : String → Prop) : World × Session → Prop
  | (world, s) =>
    match s.stage with
    | .ready _ => world.Owes due (s.pending ++ s.owed answer)
    | .connecting w .. | .pacing w .. | .resting w .. =>
      world.Owes due (s.pending ++ s.owedWith answer w)
    | .querying w _ _ result =>
      world.Owes due (s.pending ++ s.owedWith answer w) ∧
        ∀ reply, result = .ok reply → reply = answer (s.queryFor w)
    | .storing b _ after _ _ | .storeResting b _ after _ =>
      world.Owes due (b.events ++ s.owedAfter answer after) ∧ s.pending = []
    | .salvaging b .. => world.Spares due b.events
    | .ended .drained _ => world.Owes due []
    | .ended .. | .crashed _ => world.Spares due []

variable {answer : WindowQuery → Reply} {due : String → Prop} {world : World} {s : Session}
  {w : Window}

/-- A session never brings in what is not due. -/
theorem Steady.spares (h : Steady answer due (world, s)) : world.Spares due [] := by
  simp only [Steady] at h
  have hnil (events : List Event) : [] ⊆ events := List.nil_subset events
  cases hs : s.stage with
  | ready => rw [hs] at h; exact h.spares (hnil _)
  | connecting => rw [hs] at h; exact World.Owes.spares h (hnil _)
  | pacing => rw [hs] at h; exact World.Owes.spares h (hnil _)
  | resting => rw [hs] at h; exact World.Owes.spares h (hnil _)
  | querying => rw [hs] at h; exact h.1.spares (hnil _)
  | storing => rw [hs] at h; exact h.1.spares (hnil _)
  | storeResting => rw [hs] at h; exact h.1.spares (hnil _)
  | salvaging => rw [hs] at h; exact h.imp rfl (hnil _)
  | ended outcome =>
    rw [hs] at h
    cases outcome with
    | drained => exact h.spares (hnil _)
    | abandoned => exact h
    | sinkFailed => exact h
  | crashed => rw [hs] at h; exact h

/-- When a session reports to be drained, the sink holds all that is due. -/
theorem Steady.report (h : Steady answer due (world, s)) {r : Report} (hr : s.report? = some r)
    (hd : r.outcome = .drained) {id : String} (hdue : due id) : world.holds id = true := by
  obtain ⟨⟨at_, hs⟩, -⟩ := of_report? hr
  rw [hd] at hs
  simp only [Steady, hs] at h
  refine ((h id).mp hdue).resolve_right ?_
  rintro ⟨e, he, -⟩
  cases he

/-- The events of a batch that the sink has before it are due. -/
theorem Steady.hands (h : Steady answer due (world, s)) {b : Batch} (hb : s.Hands b) :
    ∀ e ∈ b.events, due e.id := by
  simp only [Steady] at h
  rw [Hands] at hb
  intro e he
  cases hs : s.stage with
  | storing =>
    rw [hs] at h hb
    obtain rfl := hb
    exact (h.1 e.id).mpr (.inr ⟨e, List.mem_append_left _ he, rfl⟩)
  | salvaging =>
    rw [hs] at h hb
    obtain rfl := hb
    exact h e.id (.inr ⟨e, he, rfl⟩)
  | _ => rw [hs] at hb; exact hb.elim

/-! ## The parts of a move -/

theorem steady_start (job : Job) (wall : UInt64) (now : Nat) :
    Steady answer (world.Knows (job.yield answer)) (world, start job wall now) :=
  fun _ => Iff.rfl

theorem steady_close {outcome : Outcome} (now : Nat) (h : world.Spares due [])
    (hd : outcome = .drained → world.Owes due []) :
    Steady answer due (s.close outcome now world) := by
  have hw : (s.disconnect world).1.holds = world.holds := by
    rw [disconnect]
    split <;> rfl
  simp only [close]
  cases outcome with
  | drained => exact (hd rfl).congr hw
  | abandoned => exact h.imp hw fun _ he => he
  | sinkFailed => exact h.imp hw fun _ he => he

theorem steady_abandon (h : world.Spares due s.pending) (reason : AbandonReason) (now : Nat) :
    Steady answer due (s.abandon reason now world) := by
  simp only [abandon]
  split
  · exact steady_close now (h.imp rfl (List.nil_subset _)) (by simp)
  · exact h.imp (World.holds_hand ..) fun _ he => he

theorem steady_giveUp (h : world.Spares due s.pending) (reason : AbandonReason) (now : Nat) :
    Steady answer due (s.giveUp reason now world) := by
  apply steady_abandon
  exact h

theorem steady_attempt (h : world.Owes due (s.pending ++ s.owedWith answer w)) (retries now : Nat) :
    Steady answer due (s.attempt w retries now world) := by
  rw [attempt]
  split <;> exact h

theorem steady_ask (h : world.Owes due (s.pending ++ s.owedWith answer w))
    (hr : world.Replies answer s.relay) (retries now : Nat) :
    Steady answer due (s.ask w retries now world) :=
  ⟨h, fun _ ho => hr world .refl _ _ _ _ ho⟩

theorem steady_fail (h : world.Owes due (s.pending ++ s.owedWith answer w)) (retries : Nat)
    (fault : LinkFault) (now : Nat) : Steady answer due (s.fail w retries fault now world) := by
  have hd : (s.disconnect world).1.Owes due
      ((s.disconnect world).2.pending ++ (s.disconnect world).2.owedWith answer w) := by
    rw [disconnect]
    split <;> exact h
  simp only [fail]
  split
  · exact hd
  · apply steady_giveUp
    exact hd.spares (List.subset_append_left ..)

theorem steady_flush {after : After} (h : world.Owes due (s.pending ++ s.owedAfter answer after))
    (now : Nat) : Steady answer due (s.flush after now world) :=
  ⟨h.congr (World.holds_hand ..), rfl⟩

theorem steady_advance (h : world.Owes due (s.pending ++ s.owed answer)) (shutdown : Bool)
    (now : Nat) : Steady answer due (s.advance shutdown now world) := by
  unfold advance
  split
  · rename_i w rest hn
    rw [owed, Splitter.yield_of_next _ hn] at h
    dsimp only
    split
    · apply steady_giveUp
      exact h.spares (List.subset_append_left ..)
    · exact steady_attempt h 0 now
  · rename_i hn
    rw [owed, Splitter.yield_of_next_eq_none _ hn] at h
    split
    · rename_i hp
      rw [hp] at h
      exact steady_close now (h.spares fun _ he => he) fun _ => h
    · exact steady_flush h now

theorem steady_absorb {received : Nat} {oldest : Option Nat} {items : List Json}
    (h : world.Owes due (s.pending ++ s.owedAfter answer (.reply w received oldest items)))
    (shutdown : Bool) (now : Nat) :
    Steady answer due (s.absorb w received oldest shutdown now world items) := by
  rcases absorb_cases w received shutdown now world s oldest items with ha | ⟨front, rest, rfl, ha⟩
  · rw [ha]
    apply steady_advance
    rw [owedAfter, Splitter.yieldFrom, ← List.append_assoc] at h
    exact h
  · rw [ha]
    apply steady_flush
    rw [owedAfter, Splitter.yieldFrom_append, ← List.append_assoc] at h
    exact h

theorem steady_receive (h : world.Owes due (s.pending ++ s.owedWith answer w)) (retries : Nat)
    (shutdown : Bool) (now : Nat) :
    Steady answer due (s.receive w retries (answer (s.queryFor w)) shutdown now world) := by
  apply steady_absorb
  exact h

theorem steady_settle {b : Batch} {after : After}
    (h : world.Owes due (b.events ++ s.owedAfter answer after)) (hp : s.pending = [])
    (retries : Nat) (refusal : Option SinkFault) (shutdown : Bool) (now : Nat) :
    Steady answer due (s.settle b retries after refusal shutdown now world) := by
  unfold settle
  split
  · rename_i taken count ht
    have htaken := h.take (congrArg Prod.snd ht)
    rw [ht] at htaken
    cases after with
    | reply v received oldest rest =>
      refine steady_absorb (s := s.noteStored b count) ?_ shutdown now
      rw [noteStored, hp]
      exact htaken
    | finish => exact steady_close now (htaken.spares fun _ he => he) fun _ => htaken
  · rename_i taken fault ht
    have hw := World.holds_take_of_error (congrArg Prod.snd ht)
    rw [ht] at hw
    split
    · exact ⟨h.congr hw, hp⟩
    · exact steady_close now ((h.congr hw).spares (List.nil_subset _)) (by simp)

theorem steady_settleSalvage {b : Batch} (h : world.Spares due b.events) (reason : AbandonReason)
    (heeds : Bool) (now : Nat) : Steady answer due (s.settleSalvage b reason heeds now world) := by
  unfold settleSalvage
  split
  · split
    · rename_i taken count ht
      have htaken : (world.take b none).1.Spares due [] :=
        World.Spares.take (by rw [List.append_nil]; exact h) (congrArg Prod.snd ht)
      rw [ht] at htaken
      exact steady_close now htaken (by simp)
    · rename_i taken fault ht
      have hw := World.holds_take_of_error (congrArg Prod.snd ht)
      rw [ht] at hw
      exact steady_close now (h.imp hw (List.nil_subset _)) (by simp)
  · exact steady_close now (h.imp rfl (List.nil_subset _)) (by simp)

/-! ## Moves and runs -/

theorem steady_proceed (h : Steady answer due (world, s)) (hr : world.Replies answer s.relay)
    (shutdown : Bool) : Steady answer due (s.proceed shutdown world) := by
  simp only [Steady] at h
  rw [proceed]
  cases hs : s.stage with
  | ready now => rw [hs] at h; exact steady_advance h shutdown now
  | connecting w retries now result =>
    rw [hs] at h
    cases result with
    | opened => exact World.Owes.congr h rfl
    | failed fault => exact steady_fail h retries fault now
    | crashed => exact World.Owes.spares h (List.nil_subset _)
  | pacing w retries now => rw [hs] at h; exact steady_ask h hr retries now
  | querying w retries now result =>
    rw [hs] at h
    cases result with
    | ok reply =>
      obtain rfl := h.2 reply rfl
      exact steady_receive h.1 retries shutdown now
    | error fault => exact steady_fail h.1 retries fault now
  | resting w retries now => rw [hs] at h; exact steady_attempt h retries now
  | storing b retries after now refusal =>
    rw [hs] at h
    exact steady_settle h.1 h.2 retries refusal shutdown now
  | storeResting b retries after now =>
    rw [hs] at h
    exact ⟨h.1.congr (World.holds_hand ..), h.2⟩
  | salvaging b reason now heeds => rw [hs] at h; exact steady_settleSalvage h reason heeds now
  | ended => simpa only [Steady, hs] using h
  | crashed => simpa only [Steady, hs] using h

/-- Wherever a session at work is cut off, what it has not handed over yet is due. -/
theorem Steady.pending (h : Steady answer due (world, s)) (hl : s.isOver = false)
    (hn : ∀ b reason now heeds, s.stage ≠ .salvaging b reason now heeds) :
    world.Spares due s.pending := by
  have hleft (events : List Event) : s.pending ⊆ s.pending ++ events :=
    List.subset_append_left ..
  simp only [Steady] at h
  cases hs : s.stage with
  | ready => rw [hs] at h; exact h.spares (hleft _)
  | connecting => rw [hs] at h; exact World.Owes.spares h (hleft _)
  | pacing => rw [hs] at h; exact World.Owes.spares h (hleft _)
  | resting => rw [hs] at h; exact World.Owes.spares h (hleft _)
  | querying => rw [hs] at h; exact h.1.spares (hleft _)
  | storing => rw [hs] at h; exact h.1.spares (h.2 ▸ List.nil_subset _)
  | storeResting => rw [hs] at h; exact h.1.spares (h.2 ▸ List.nil_subset _)
  | salvaging b reason now heeds => exact absurd hs (hn b reason now heeds)
  | ended => rw [isOver, hs] at hl; cases hl
  | crashed => rw [isOver, hs] at hl; cases hl

theorem steady_interrupt (h : Steady answer due (world, s)) (reason : AbandonReason) (now : Nat) :
    Steady answer due (s.interrupt reason now world) := by
  rcases s.interrupt_cases reason now world with ⟨-, hi⟩ | ⟨_, _, _, _, -, hi⟩ | ⟨hl, hn, hi⟩
  · rw [hi]
    exact h
  · rw [hi]
    exact steady_close now h.spares (by simp)
  · rw [hi]
    exact steady_abandon (h.pending hl hn) reason now

theorem steady_step (h : Steady answer due (world, s)) (hr : world.Replies answer s.relay)
    (c : Control) : Steady answer due (s.step c world) := by
  rcases s.step_cases c world with hs | ⟨reason, now, hs⟩ | ⟨shutdown, hs⟩
  · rw [hs]
    exact h
  · rw [hs]
    exact steady_interrupt h reason now
  · rw [hs]
    exact steady_proceed h hr shutdown

end Session

end Harvest
