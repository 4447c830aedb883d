import Harvest.Proofs.Session.Frame
import Harvest.Proofs.Session.Reading

/-! What a session does to its relay and to the sink, move by move, and in which order it may do so.
It opens a connection when it has none, asks on it until a query fails, and releases it once. The
order is told by an automaton that reads the deeds, and what the world observes of a move is told by
the same deeds. One lemma for each part of a move. -/

namespace Harvest

inductive Deed
  /-- Begins an attempt to ask for a window, after so many retries. -/
  | tried (w : Window) (retries : Nat)
  /-- Calls the relay, to ask for a window. -/
  | dialled (w : Window)
  | opened
  /-- Sends a query, which comes to an answer. -/
  | asked (w : Window) (answer : Except LinkFault Reply)
  | released
  | handed (b : Batch)

/-- What a move has done, as it can be told from whether the session was connected before and from
where it stands afterwards. -/
def Session.deeds (s next : Session) : List Deed :=
  (if s.connected && !next.connected then [.released] else []) ++
    match next.stage with
    | .connecting w retries .. => [.tried w retries, .dialled w]
    | .pacing w retries _ => if s.connected then [.tried w retries] else [.opened]
    | .querying w _ _ answer => [.asked w answer]
    | .storing b .. | .salvaging b .. => [.handed b]
    | _ => []

/-- The connection of a session: there is none, it can be used, or a query on it has failed. -/
inductive Wire
  | down
  | up
  | spent
deriving DecidableEq, Repr

namespace Wire

def isOpen : Wire → Bool
  | down => false
  | up | spent => true

/-- What a deed makes of the connection; none where it may not be done. A connection is opened only
where there is none, so that there is never more than one; it is asked only while it can be used;
and only one that is open is released. -/
def after : Wire → Deed → Option Wire
  | wire, .tried .. | wire, .handed _ => some wire
  | down, .dialled _ => some down
  | down, .opened => some up
  | up, .asked _ (.ok _) => some up
  | up, .asked _ (.error _) => some spent
  | up, .released | spent, .released => some down
  | _, _ => none

def follow (wire : Wire) (deeds : List Deed) : Option Wire := deeds.foldlM after wire

@[simp] theorem follow_nil (wire : Wire) : wire.follow [] = some wire := rfl

theorem follow_cons (wire : Wire) (deed : Deed) (deeds : List Deed) :
    wire.follow (deed :: deeds) = (wire.after deed).bind (·.follow deeds) := rfl

theorem follow_append (wire : Wire) (deeds more : List Deed) :
    wire.follow (deeds ++ more) = (wire.follow deeds).bind (·.follow more) := by
  rw [follow, List.foldlM_append]
  rfl

/-- An open connection that is closed leaves none. -/
theorem follow_released {wire : Wire} {connected : Bool} (h : wire.isOpen = connected) :
    wire.follow (if connected then [.released] else []) = some down := by
  subst h
  cases wire <;> rfl

end Wire

/-! ## What is observed -/

/-- What the world shows of sessions: queries and batches, the latest first, and how many
connections are and were open at relays that count them. -/
structure Observed where
  asked : List (RelayId × WindowQuery)
  handed : List Batch
  live : Nat
  peak : Nat

def World.observed (world : World) : Observed where
  asked := world.network.asked.map fun a => (a.relay, a.query)
  handed := world.sink.handed.map Handed.batch
  live := world.network.live
  peak := world.network.peak

/-- What is observed after a deed of a session, whose relay counts its connections or does not. -/
def Observed.after (s : Session) (counted : Bool) (o : Observed) : Deed → Observed
  | .tried .. | .dialled _ => o
  | .opened => if counted then { o with live := o.live + 1, peak := max o.peak (o.live + 1) } else o
  | .asked w _ => { o with asked := (s.relay, s.queryFor w) :: o.asked }
  | .released => if counted then { o with live := o.live - 1 } else o
  | .handed b => { o with handed := b :: o.handed }

namespace World

theorem isCounted_add {n : Network} {addr : RelayId} {p p' : Peer} (hp : n.peer? addr = some p)
    (h : p'.isCounted = p.isCounted) (relay : RelayId) :
    (n.add addr p').isCounted relay = n.isCounted relay := by
  rw [Network.isCounted, Network.peer?, Network.add, Network.lookup_putPeer]
  split
  · rename_i he
    rw [he, Network.isCounted, hp, Option.any_some, Option.any_some, h]
  · rfl

theorem isCounted_connect (addr : RelayId) (p : Peer) :
    (p.connect addr).1.isCounted = p.isCounted := by
  unfold Peer.connect
  repeat' split
  all_goals rfl

theorem isCounted_query (q : WindowQuery) (timeout : Nat) (p : Peer) :
    (p.query q timeout).1.isCounted = p.isCounted := by
  unfold Peer.query
  repeat' split
  all_goals rfl

/-- No call makes a relay begin or cease to count its connections. -/
theorem Moves.isCounted {addr : RelayId} {a b : World} (h : Moves addr a b) (relay : RelayId) :
    b.network.isCounted relay = a.network.isCounted relay := by
  induction h with
  | refl => rfl
  | tail _ hm ih =>
    rw [← ih]
    cases hm with
    | connect =>
      simp only [connect, Network.connect]
      split
      · rfl
      · rename_i p hp
        exact isCounted_add hp (isCounted_connect addr p) relay
    | query q timeout now =>
      simp only [query, Network.query]
      split
      · rfl
      · rename_i p hp
        exact isCounted_add (by exact hp) (isCounted_query q timeout p) relay
    | opened =>
      simp only [opened, Network.opened]
      split <;> rfl
    | closed =>
      simp only [closed, Network.closed]
      split <;> rfl
    | hand | take => simp only [hand, network_take]

end World

namespace Session

/-- Where the connection of a session may be at a stage. What is left of an abandoned session is
handed over before its connection is released. -/
def On (s : Session) (wire : Wire) : Prop :=
  wire.isOpen = s.connected ∧
    match s.stage with
    | .ready _ | .connecting .. | .resting .. | .ended .. | .crashed _ => wire = .down
    | .pacing .. | .querying _ _ _ (.ok _) => wire = .up
    | .querying _ _ _ (.error _) => wire = .spent
    | .storing .. | .storeResting .. => wire ≠ .spent
    | .salvaging .. => True

/-- Between two moments the world shows these deeds of a session and no others. Where the relay was
not called no attempt to connect is counted. -/
structure Shows (s : Session) (deeds : List Deed) (world world' : World) : Prop where
  observed : world'.observed =
    deeds.foldl (Observed.after s (world.network.isCounted s.relay)) world.observed
  attempts : (∀ w, .dialled w ∉ deeds) → world'.network.attempts = world.network.attempts

/-- The move from a session in a world to `next`: its connection allows for its deeds, and the world
shows them. -/
def Does (wire : Wire) (world : World) (s : Session) (next : World × Session) : Prop :=
  (∃ wire', wire.follow (s.deeds next.2) = some wire' ∧ next.2.On wire') ∧
    s.Shows (s.deeds next.2) world next.1

variable (s : Session) (now : Nat) (world : World)

theorem shows_nil : s.Shows [] world world := ⟨rfl, fun _ => rfl⟩

theorem shows_take (b : Batch) (refusal : Option SinkFault) :
    s.Shows [] world (world.take b refusal).1 := by
  refine ⟨?_, fun _ => by rw [World.network_take]⟩
  simp only [World.observed, World.network_take, World.handed_take, List.foldl_nil]

theorem shows_tried (w : Window) (retries : Nat) : s.Shows [.tried w retries] world world :=
  ⟨rfl, fun _ => rfl⟩

theorem shows_dialled (w : Window) (retries : Nat) :
    s.Shows [.tried w retries, .dialled w] world (world.connect s.relay).1 := by
  refine ⟨?_, fun h => absurd (List.mem_cons_of_mem _ (List.mem_singleton_self _)) (h w)⟩
  simp only [World.observed, World.asked_connect, List.foldl_cons, List.foldl_nil, Observed.after]
  simp only [World.connect, Network.connect]
  split <;> rfl

theorem shows_opened : s.Shows [.opened] world (world.opened s.relay) := by
  simp only [World.opened, Network.opened]
  constructor
  · simp only [World.observed, List.foldl_cons, List.foldl_nil, Observed.after]
    split <;> rfl
  · intro _
    dsimp only
    split <;> rfl

theorem shows_asked (w : Window) (answer : Except LinkFault Reply) :
    s.Shows [.asked w answer] world
      (world.query s.relay (s.queryFor w) s.settings.queryTimeout now).1 := by
  constructor
  · simp only [World.observed, World.asked_query, List.foldl_cons, List.foldl_nil, Observed.after,
      List.map_cons]
    simp only [World.query, Network.query]
    split <;> rfl
  · intro _
    simp only [World.query, Network.query]
    split <;> rfl

theorem shows_released : s.Shows [.released] world (world.closed s.relay) := by
  simp only [World.closed, Network.closed]
  constructor
  · simp only [World.observed, List.foldl_cons, List.foldl_nil, Observed.after]
    split <;> rfl
  · intro _
    dsimp only
    split <;> rfl

theorem shows_handed (b : Batch) : s.Shows [.handed b] world (world.hand b now).1 := by
  constructor
  · simp only [World.observed, World.handed_hand, List.foldl_cons, List.foldl_nil, Observed.after,
      List.map_cons]
    rfl
  · exact fun _ => rfl

variable {s world}

theorem Shows.trans {deeds more : List Deed} {mid next : World} (h : s.Shows deeds world mid)
    (h' : s.Shows more mid next)
    (hc : mid.network.isCounted s.relay = world.network.isCounted s.relay) :
    s.Shows (deeds ++ more) world next := by
  constructor
  · rw [h'.observed, h.observed, hc, List.foldl_append]
  · intro hn
    exact (h'.attempts fun w hw => hn w (List.mem_append_right _ hw)).trans
      (h.attempts fun w hw => hn w (List.mem_append_left _ hw))

/-- What is counted or pending, and what is owed, makes no difference to a move. -/
theorem Does.of_same {wire : Wire} {s' : Session} {next : World × Session}
    (h : Does wire world s' next) (hc : s'.connected = s.connected) (hj : s'.job = s.job) :
    Does wire world s next := by
  obtain ⟨⟨wire', hw, hon⟩, ho, ha⟩ := h
  have hd : s'.deeds next.2 = s.deeds next.2 := by rw [deeds, deeds, hc]
  have hafter : Observed.after s' (world.network.isCounted s'.relay) =
      Observed.after s (world.network.isCounted s.relay) := by
    rw [relay, hj, ← relay]
    funext o deed
    cases deed <;> simp only [Observed.after, relay, queryFor, settings, hj]
  rw [hd] at hw ho ha
  rw [hafter] at ho
  exact ⟨⟨wire', hw, hon⟩, ho, ha⟩

/-! ## The parts of a move -/

variable {wire : Wire}

theorem does_close (h : wire.isOpen = s.connected) (outcome : Outcome) :
    Does wire world s (s.close outcome now world) := by
  have hd : s.deeds (s.close outcome now world).2 = if s.connected then [.released] else [] := by
    cases hc : s.connected <;> simp [deeds, close, disconnect, hc]
  refine ⟨⟨.down, ?_, ?_⟩, ?_⟩
  · rw [hd]
    exact Wire.follow_released h
  · cases hc : s.connected <;> simp [On, close, disconnect, hc, Wire.isOpen]
  · rw [hd]
    cases hc : s.connected
    · simpa [close, disconnect, hc] using shows_nil s world
    · simpa [close, disconnect, hc] using shows_released s world

theorem does_salvage (h : wire.isOpen = s.connected) (reason : AbandonReason) :
    Does wire world s (s.salvage reason now world) := by
  have hd : s.deeds (s.salvage reason now world).2 = [.handed s.batch] := by
    cases hc : s.connected <;> simp [deeds, salvage, hc]
  rw [Does, hd]
  exact ⟨⟨wire, rfl, h, trivial⟩, shows_handed s now world s.batch⟩

theorem does_abandon (h : wire.isOpen = s.connected) (reason : AbandonReason) :
    Does wire world s (s.abandon reason now world) := by
  simp only [abandon]
  split
  · exact (does_close now (by exact h) _).of_same rfl rfl
  · exact (does_salvage now (by exact h) _).of_same rfl rfl

theorem does_giveUp (h : wire.isOpen = s.connected) (reason : AbandonReason) :
    Does wire world s (s.giveUp reason now world) :=
  (does_abandon now (by exact h) reason).of_same rfl rfl

theorem does_attempt (h : wire.isOpen = s.connected) (hu : wire ≠ .spent) (w : Window)
    (retries : Nat) : Does wire world s (s.attempt w retries now world) := by
  unfold attempt
  cases hc : s.connected with
  | true =>
    rw [hc] at h
    obtain rfl : wire = .up := by cases wire <;> simp_all [Wire.isOpen]
    have hd : s.deeds (s.pace w retries now) = [.tried w retries] := by simp [deeds, pace, hc]
    rw [if_pos rfl, Does, hd]
    exact ⟨⟨.up, rfl, by simp [On, pace, hc, Wire.isOpen]⟩, shows_tried s world w retries⟩
  | false =>
    rw [hc] at h
    obtain rfl : wire = .down := by cases wire <;> simp_all [Wire.isOpen]
    rw [if_neg Bool.false_ne_true]
    refine ⟨⟨.down, ?_, ?_⟩, ?_⟩
    · simp [deeds, hc, Wire.follow, Wire.after]
    · simp [On, Wire.isOpen]
    · simpa [deeds, hc] using shows_dialled s world w retries

theorem does_ask (hc : s.connected = true) (w : Window) (retries : Nat) :
    Does .up world s (s.ask w retries now world) := by
  generalize hq : (world.query s.relay (s.queryFor w) s.settings.queryTimeout now).2.value = answer
  have hd : s.deeds (s.ask w retries now world).2 = [.asked w answer] := by
    simp [deeds, ask, hq, hc]
  rw [Does, hd]
  refine ⟨?_, shows_asked s now world w answer⟩
  cases answer with
  | ok reply => exact ⟨.up, rfl, by simp [On, ask, hq, hc, Wire.isOpen]⟩
  | error fault => exact ⟨.spent, rfl, by simp [On, ask, hq, hc, Wire.isOpen]⟩

/-- After the connection is released all that follows is done without one. -/
theorem Does.disconnected {next : World × Session} (h : wire.isOpen = s.connected)
    (hn : Does .down (s.disconnect world).1 (s.disconnect world).2 next)
    (hc : next.2.connected = false) : Does wire world s next := by
  unfold disconnect at hn
  cases hs : s.connected with
  | false =>
    rw [hs] at h hn
    obtain rfl : wire = .down := by cases wire <;> simp_all [Wire.isOpen]
    exact hn
  | true =>
    rw [hs, if_pos rfl] at hn
    obtain ⟨⟨wire', hw, hon⟩, hshows⟩ := hn
    have hd : s.deeds next.2 = [.released] ++ deeds { s with connected := false } next.2 := by
      have hp (w : Window) (retries due : Nat) : next.2.stage ≠ .pacing w retries due := by
        intro hp
        have hup : wire' = .up := by simpa [On, hp] using hon.2
        rw [On, hc, hup] at hon
        exact absurd hon.1 (by decide)
      simp only [deeds, hs, hc]
      cases hstage : next.2.stage <;> simp
      exact absurd hstage (hp _ _ _)
    have hmoves : World.Moves s.relay world (world.closed s.relay) := .single (.closed world)
    rw [Does, hd]
    refine ⟨⟨wire', ?_, hon⟩, ?_⟩
    · rw [Wire.follow_append]
      have := Wire.follow_released (h.trans hs)
      simp only [if_pos] at this
      rw [this]
      exact hw
    · refine (shows_released s world).trans ?_ (hmoves.isCounted _)
      exact ⟨hshows.observed, hshows.attempts⟩

theorem connected_disconnect (s : Session) (world : World) :
    (s.disconnect world).2.connected = false := by
  unfold disconnect
  split
  · rfl
  · simp_all

theorem connected_close (s : Session) (now : Nat) (world : World) (outcome : Outcome) :
    (s.close outcome now world).2.connected = false := connected_disconnect s world

/-- Who gives up without a connection does not get one. -/
theorem connected_giveUp (hc : s.connected = false) (reason : AbandonReason) :
    (s.giveUp reason now world).2.connected = false := by
  simp only [giveUp, abandon]
  split
  · exact connected_close _ now world _
  · exact hc

theorem does_fail (h : wire.isOpen = s.connected) (w : Window) (retries : Nat)
    (fault : LinkFault) : Does wire world s (s.fail w retries fault now world) := by
  have hc := connected_disconnect s world
  simp only [fail]
  split
  · refine .disconnected h ⟨⟨.down, ?_, ?_⟩, ?_⟩ hc
    · simp [deeds, hc]
    · simp [On, hc, Wire.isOpen]
    · simpa [deeds, hc] using shows_nil _ _
  · have hdown : Wire.down.isOpen = (s.disconnect world).2.connected := hc.symm
    exact .disconnected h ((does_giveUp now (by exact hdown) _).of_same rfl rfl)
      (connected_giveUp now (by exact hc) _)

theorem does_store (h : wire.isOpen = s.connected) (hu : wire ≠ .spent) (b : Batch)
    (retries : Nat) (after : After) : Does wire world s (s.store b retries after now world) := by
  have hd : s.deeds (s.store b retries after now world).2 = [.handed b] := by
    cases hc : s.connected <;> simp [deeds, store, hc]
  rw [Does, hd]
  exact ⟨⟨wire, rfl, h, hu⟩, shows_handed s now world b⟩

theorem does_flush (h : wire.isOpen = s.connected) (hu : wire ≠ .spent) (after : After) :
    Does wire world s (s.flush after now world) :=
  (does_store now (by exact h) hu s.batch 0 after).of_same rfl rfl

theorem does_advance (h : wire.isOpen = s.connected) (hu : wire ≠ .spent) (shutdown : Bool) :
    Does wire world s (s.advance shutdown now world) := by
  unfold advance
  split
  · dsimp only
    split
    · exact (does_giveUp now (by exact h) _).of_same rfl rfl
    · exact (does_attempt now (by exact h) hu _ _).of_same rfl rfl
  · split
    · exact does_close now h _
    · exact does_flush now h hu _

theorem does_absorb (h : wire.isOpen = s.connected) (hu : wire ≠ .spent) (w : Window)
    (received : Nat) (oldest : Option Nat) (shutdown : Bool) (items : List Json) :
    Does wire world s (s.absorb w received oldest shutdown now world items) := by
  rcases absorb_cases w received shutdown now world s oldest items with ha | ⟨front, rest, -, ha⟩
  · rw [ha]
    exact (does_advance now (by exact h) hu shutdown).of_same rfl rfl
  · rw [ha]
    exact (does_flush now (by exact h) hu _).of_same rfl rfl

/-- What follows after the sink has decided on a batch. -/
theorem Does.taken {next : World × Session} (b : Batch) (refusal : Option SinkFault)
    (h : Does wire (world.take b refusal).1 s next) : Does wire world s next := by
  obtain ⟨hw, hshows⟩ := h
  have hmoves : World.Moves s.relay world (world.take b refusal).1 :=
    .single (.take world b refusal)
  exact ⟨hw, (shows_take s world b refusal).trans hshows (hmoves.isCounted _)⟩

theorem does_settle (h : wire.isOpen = s.connected) (hu : wire ≠ .spent)
    (b : Batch) (retries : Nat) (after : After) (refusal : Option SinkFault) (shutdown : Bool) :
    Does wire world s (s.settle b retries after refusal shutdown now world) := by
  refine .taken b refusal ?_
  unfold settle
  generalize world.take b refusal = taken
  obtain ⟨world, result⟩ := taken
  cases result with
  | ok count =>
    dsimp only
    split
    · exact (does_absorb now (by exact h) hu _ _ _ _ _).of_same rfl rfl
    · exact (does_close now (by exact h) _).of_same rfl rfl
  | error fault =>
    dsimp only
    split
    · refine ⟨⟨wire, ?_, h, hu⟩, ?_⟩
      · cases hc : s.connected <;> simp [deeds, hc]
      · cases hc : s.connected <;> simpa [deeds, hc] using shows_nil s world
    · exact does_close now h _

theorem does_settleSalvage (h : wire.isOpen = s.connected) (b : Batch) (reason : AbandonReason)
    (heeds : Bool) : Does wire world s (s.settleSalvage b reason heeds now world) := by
  unfold settleSalvage
  split
  · refine .taken b none ?_
    generalize world.take b none = taken
    obtain ⟨world, result⟩ := taken
    cases result with
    | ok count => exact (does_close now (by exact h) _).of_same rfl rfl
    | error fault => exact does_close now h _
  · exact does_close now h _

/-! ## Moves -/

theorem does_proceed (h : s.On wire) (ho : s.isOver = false) (shutdown : Bool) :
    Does wire world s (s.proceed shutdown world) := by
  obtain ⟨hc, hon⟩ := h
  unfold proceed
  cases hs : s.stage with
  | ready due =>
    simp only [hs] at hon ⊢
    exact does_advance due hc (by simp [hon]) shutdown
  | connecting w retries due result =>
    simp only [hs] at hon ⊢
    subst hon
    have hc' : s.connected = false := hc.symm
    cases result with
    | opened =>
      dsimp only
      refine ⟨⟨.up, ?_, ?_⟩, ?_⟩
      · simp [deeds, pace, hc', Wire.follow, Wire.after]
      · simp [On, pace, Wire.isOpen]
      · simpa [deeds, pace, hc'] using shows_opened s world
    | failed fault => exact does_fail due hc w retries fault
    | crashed =>
      dsimp only
      refine ⟨⟨.down, ?_, hc, rfl⟩, ?_⟩
      · simp [deeds, hc']
      · simpa [deeds, hc'] using shows_nil s world
  | pacing w retries due =>
    simp only [hs] at hon ⊢
    subst hon
    exact does_ask due hc.symm w retries
  | querying w retries due result =>
    simp only [hs] at hon ⊢
    cases result with
    | ok reply =>
      simp only at hon ⊢
      exact (does_absorb due (by exact hc) (by simp [hon]) _ _ _ _ _).of_same rfl rfl
    | error fault => exact does_fail due hc w retries fault
  | resting w retries due =>
    simp only [hs] at hon ⊢
    exact does_attempt due hc (by simp [hon]) w retries
  | storing b retries after due refusal =>
    simp only [hs] at hon ⊢
    exact does_settle due hc hon b retries after refusal shutdown
  | storeResting b retries after due =>
    simp only [hs] at hon ⊢
    exact does_store due hc hon b retries after
  | salvaging b reason due heeds => exact does_settleSalvage due hc b reason heeds
  | ended | crashed => simp [isOver, Stage.due?, hs] at ho

theorem does_interrupt (h : s.On wire) (ho : s.isOver = false) (reason : AbandonReason) :
    Does wire world s (s.interrupt reason now world) := by
  rcases s.interrupt_cases reason now world with ⟨hover, -⟩ | ⟨b, reason', due, heeds, -, hi⟩ |
    ⟨-, -, hi⟩
  · rw [ho] at hover
    cases hover
  · rw [hi]
    exact does_close now h.1 _
  · rw [hi]
    exact does_abandon now h.1 reason

/-- **Every move respects the connection, and the world shows what it does.** -/
theorem does_step (h : s.On wire) (ho : s.isOver = false) (c : Control) (world : World) :
    Does wire world s (s.step c world) := by
  unfold step
  split
  · split
    · exact does_interrupt _ h ho _
    · exact does_proceed h ho _
  · exact does_proceed h ho _
  · rename_i hd
    rw [isOver, hd] at ho
    cases ho

theorem on_start (job : Job) (wall : UInt64) (now : Nat) : (start job wall now).On .down :=
  ⟨rfl, rfl⟩

/-- A session that is over holds no connection. -/
theorem On.of_isOver (h : s.On wire) (ho : s.isOver = true) : wire = .down := by
  obtain ⟨-, hon⟩ := h
  rw [isOver] at ho
  cases hs : s.stage <;> simp_all [Stage.due?]

/-- What a session does from a moment on, in whatever worlds the others leave for its moves. -/
inductive Path (c : Control) (first : Session) : List Deed → Session → Prop
  | start : Path c first [] first
  | step {deeds : List Deed} {s : Session} (h : Path c first deeds s) (ho : s.isOver = false)
      (world : World) : Path c first (deeds ++ s.deeds (s.step c world).2) (s.step c world).2

namespace Path

variable {c : Control} {first : Session} {deeds : List Deed}

theorem job (h : Path c first deeds s) : s.job = first.job := by
  induction h with
  | start => rfl
  | step _ _ world ih => exact (leads_step _ world c).2.1.trans ih

/-- **However the moves of others come between, a session has at most one connection, does not ask
on one that has failed it, and releases each once.** -/
theorem on (h : Path c first deeds s) (hf : first.On wire) :
    ∃ wire', wire.follow deeds = some wire' ∧ s.On wire' := by
  induction h with
  | start => exact ⟨wire, rfl, hf⟩
  | step _ ho world ih =>
    obtain ⟨mid, hmid, hon⟩ := ih
    obtain ⟨⟨wire', hw, hon'⟩, -⟩ := does_step hon ho c world
    exact ⟨wire', by rw [Wire.follow_append, hmid]; exact hw, hon'⟩

end Path

end Session

end Harvest
