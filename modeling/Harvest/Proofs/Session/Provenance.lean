import Harvest.Proofs.Session.Frame
import Harvest.Proofs.Session.Reading

/-! Where everything that a session reports or hands over comes from. Each event that it hands to
the sink is one that its relay holds, stamped within the target. Each window that it flags was
asked of the relay by the session itself, and lies under the floor. -/

namespace Harvest

/-- No second of the window lies outside the range. -/
def Window.Within (w range : Window) : Prop := ∀ t ∈ w, t ∈ range

namespace Job

/-- The event is one that the relay holds, and it lies in the target. -/
def Wants (job : Job) (held : List Event) (e : Event) : Prop := e ∈ held ∧ e.stamp ∈ job.target

/-- What can be read of the items is wanted. -/
def Reads (job : Job) (held : List Event) (items : List Json) : Prop :=
  ∀ item ∈ items, ∀ e, Event.parse item = .ok e → job.Wants held e

/-- A window of the target that is among those that were asked of the relay. -/
def Asks (job : Job) (asked : List Asked) (w : Window) : Prop :=
  w.Within job.target ∧ ∃ a ∈ asked, a.relay = job.relay.id ∧
    a.query = { window := w, limit := job.settings.resultCap }

theorem Asks.cons {job : Job} {asked : List Asked} {w : Window} (h : job.Asks asked w)
    (a : Asked) : job.Asks (a :: asked) w := by
  obtain ⟨hw, b, hb, hq⟩ := h
  exact ⟨hw, b, List.mem_cons_of_mem _ hb, hq⟩

end Job

/-! ## The windows -/

/-- What the splitter of a session owes lies in the target, and what it flags was asked for. -/
structure Splitter.Sound (job : Job) (asked : List Asked) (s : Splitter) : Prop where
  floor : s.floor = max 1 job.settings.minWindow
  pending : ∀ w ∈ s.stack.pending, w.Within job.target
  flagged : ∀ w ∈ s.flagged, job.Asks asked w ∧ w.width < s.floor

theorem Window.within_of_mem_narrow {floor : Nat} {w v : Window} (hf : 1 ≤ floor)
    (hw : floor ≤ w.width) {oldest : Option Nat} (hv : v ∈ w.narrow floor oldest) :
    v.Within w := by
  intro t ht
  have hc := cover_narrow hf hw oldest t
  have hp : 0 < cover t (w.narrow floor oldest) := cover_pos_iff.mpr ⟨v, hv, ht⟩
  split at hc
  · assumption
  · omega

namespace Splitter.Sound

variable {job : Job} {asked : List Asked} {s : Splitter}

theorem ofRange (job : Job) (asked : List Asked) :
    (Splitter.ofRange job.target job.settings.resultCap job.settings.minWindow).Sound job asked := by
  refine ⟨rfl, ?_, nofun⟩
  intro w hw
  rw [pending_ofRange] at hw
  split at hw
  · obtain rfl := List.mem_singleton.mp hw
    exact fun _ ht => ht
  · cases hw

theorem cons (h : s.Sound job asked) (a : Asked) : s.Sound job (a :: asked) :=
  ⟨h.floor, h.pending, fun w hw => ⟨(h.flagged w hw).1.cons a, (h.flagged w hw).2⟩⟩

theorem next (h : s.Sound job asked) {w : Window} {rest : Splitter}
    (hn : s.next = some (w, rest)) : w.Within job.target ∧ rest.Sound job asked := by
  obtain ⟨hp, hr⟩ := next_eq_some hn
  refine ⟨h.pending w (by rw [hp]; exact List.mem_cons_self ..), ?_⟩
  rw [hr]
  exact ⟨h.floor, fun v hv => h.pending v (by rw [hp]; exact List.mem_cons_of_mem _ hv), h.flagged⟩

theorem abandon (h : s.Sound job asked) : s.abandon.2.Sound job asked :=
  ⟨h.floor, nofun, h.flagged⟩

/-- A window that is flagged now is the one that was asked for. -/
theorem resolve (h : s.Sound job asked) {w : Window} (hw : job.Asks asked w) (count : Nat)
    (oldest : Option Nat) : (s.resolve w count oldest).2.Sound job asked := by
  refine ⟨(floor_resolve ..).trans h.floor, ?_, ?_⟩
  · intro v hv
    rw [pending_resolve] at hv
    rcases List.mem_append.mp hv with hv | hv
    · have hv := (List.mem_filter.mp hv).1
      unfold judge at hv
      split at hv
      · cases hv
      · split at hv
        · cases hv
        · intro t ht
          exact hw.1 t (Window.within_of_mem_narrow s.floor_pos (by omega) hv t ht)
    · exact h.pending v hv
  · intro v hv
    rw [floor_resolve]
    rw [flagged_resolve] at hv
    rcases List.mem_append.mp hv with hv | hv
    · exact h.flagged v hv
    · cases hj : s.judge w count oldest with
      | incomplete u =>
        obtain ⟨rfl, -, hwidth⟩ := full_of_judge hj
        rw [hj] at hv
        obtain rfl := List.mem_singleton.mp hv
        exact ⟨hw, hwidth⟩
      | covered => rw [hj] at hv; cases hv
      | narrowed => rw [hj] at hv; cases hv

end Splitter.Sound

/-! ## The session -/

/-- What is left of a reply is sound. -/
def After.Sound (held : List Event) (job : Job) (asked : List Asked) : After → Prop
  | reply w _ _ rest => job.Asks asked w ∧ job.Reads held rest
  | finish => True

/-- What a stage has in hand is sound: windows of the target, replies to windows that were asked
for, batches of wanted events. -/
def Stage.Sound (held : List Event) (job : Job) (asked : List Asked) : Stage → Prop
  | connecting w .. | pacing w .. | resting w .. => w.Within job.target
  | querying w _ _ result =>
    job.Asks asked w ∧ ∀ reply, result = .ok reply → job.Reads held reply.items
  | storing b _ after .. | storeResting b _ after _ =>
    (∀ e ∈ b.events, job.Wants held e) ∧ after.Sound held job asked
  | _ => True

namespace Session

/-- What the session has asked and handed over since the world was `old`, with what it keeps. -/
def Trail (held : List Event) (old : World) (asked : List Asked) (world : World) (s : Session) :
    Prop :=
  world.network.asked = asked ++ old.network.asked ∧
    (∃ handed, world.sink.handed = handed ++ old.sink.handed ∧
      ∀ h ∈ handed, ∀ e ∈ h.batch.events, s.job.Wants held e) ∧
    s.splitter.Sound s.job asked ∧ ∀ e ∈ s.pending, s.job.Wants held e

/-- All that a session has asked, handed over and kept is sound. -/
def Traced (held : List Event) (old : World) : World × Session → Prop
  | (world, s) => ∃ asked, s.Trail held old asked world ∧ s.stage.Sound held s.job asked

variable {held : List Event} {old world : World} {asked : List Asked} {s : Session} {w : Window}

theorem Trail.hand (h : s.Trail held old asked world) {b : Batch}
    (hb : ∀ e ∈ b.events, s.job.Wants held e) (now : Nat) :
    s.Trail held old asked (world.hand b now).1 := by
  obtain ⟨ha, ⟨handed, hh, hw⟩, hs⟩ := h
  refine ⟨ha, ⟨⟨now, b⟩ :: handed, ?_, ?_⟩, hs⟩
  · rw [World.handed_hand, hh, List.cons_append]
  · intro entry he
    rcases List.mem_cons.mp he with rfl | he
    · exact hb
    · exact hw entry he

theorem Trail.take (h : s.Trail held old asked world) (b : Batch) (refusal : Option SinkFault) :
    s.Trail held old asked (world.take b refusal).1 := by
  rw [Trail, World.network_take, World.handed_take]
  exact h

theorem Trail.disconnect (h : s.Trail held old asked world) :
    (s.disconnect world).2.Trail held old asked (s.disconnect world).1 := by
  unfold Session.disconnect
  split
  · rw [Trail, World.asked_closed]
    exact h
  · exact h

theorem traced_start (held : List Event) (world : World) (job : Job) (wall : UInt64) (now : Nat) :
    Traced held world (world, start job wall now) :=
  ⟨[], ⟨rfl, ⟨[], rfl, nofun⟩, .ofRange job [], nofun⟩, trivial⟩

theorem traced_close (h : s.Trail held old asked world) (outcome : Outcome) (now : Nat) :
    Traced held old (s.close outcome now world) := ⟨asked, h.disconnect, trivial⟩

theorem traced_abandon (h : s.Trail held old asked world) (reason : AbandonReason) (now : Nat) :
    Traced held old (s.abandon reason now world) := by
  obtain ⟨ha, hh, hs, hp⟩ := h
  have hd : Trail held old asked world { s with splitter := s.splitter.abandon.2 } :=
    ⟨ha, hh, hs.abandon, hp⟩
  simp only [abandon]
  split
  · refine traced_close (?_ : Trail held old asked world _) _ now
    exact hd
  · obtain ⟨ha, hh, hs, -⟩ := hd.hand (b := s.batch) hp now
    exact ⟨asked, ⟨ha, hh, hs, fun e he => absurd he List.not_mem_nil⟩, trivial⟩

theorem traced_giveUp (h : s.Trail held old asked world) (reason : AbandonReason) (now : Nat) :
    Traced held old (s.giveUp reason now world) := by
  refine traced_abandon (?_ : Trail held old asked world _) reason now
  exact h

theorem traced_attempt (h : s.Trail held old asked world) (hw : w.Within s.job.target)
    (retries now : Nat) : Traced held old (s.attempt w retries now world) := by
  unfold attempt
  split
  · exact ⟨asked, h, hw⟩
  · have hc : s.Trail held old asked (world.connect s.relay).1 := by
      rw [Trail, World.asked_connect]
      exact h
    exact ⟨asked, hc, hw⟩

theorem traced_ask (h : s.Trail held old asked world) (hw : w.Within s.job.target)
    (hg : ∀ timeout now reply,
      (world.query s.relay (s.queryFor w) timeout now).2.value = .ok reply →
        reply.Genuine held (s.queryFor w))
    (retries now : Nat) : Traced held old (s.ask w retries now world) := by
  obtain ⟨ha, hh, hs, hp⟩ := h
  have hq := World.asked_query world s.relay (s.queryFor w) s.settings.queryTimeout now
  rw [ha] at hq
  refine ⟨⟨s.relay, now, s.queryFor w⟩ :: asked, ⟨hq, hh, hs.cons _, hp⟩, ⟨hw, ?_⟩, ?_⟩
  · exact ⟨_, List.mem_cons_self .., rfl, rfl⟩
  · intro reply hr item hi e he
    obtain ⟨hheld, ht⟩ := hg _ _ _ hr item hi e he
    exact ⟨hheld, hw _ ht⟩

theorem traced_fail (h : s.Trail held old asked world) (hw : w.Within s.job.target)
    (retries : Nat) (fault : LinkFault) (now : Nat) :
    Traced held old (s.fail w retries fault now world) := by
  have hj : (s.disconnect world).2.job = s.job := (leads_disconnect s world).2.1
  have hd := h.disconnect
  simp only [fail]
  split
  · refine ⟨asked, hd, ?_⟩
    rw [hj]
    exact hw
  · refine traced_giveUp (?_ : Trail held old asked _ _) _ now
    exact hd

theorem traced_store (h : s.Trail held old asked world) {b : Batch}
    (hb : ∀ e ∈ b.events, s.job.Wants held e) {after : After}
    (ha : after.Sound held s.job asked) (retries now : Nat) :
    Traced held old (s.store b retries after now world) := ⟨asked, h.hand hb now, hb, ha⟩

theorem traced_flush (after : After) (h : s.Trail held old asked world)
    (ha : after.Sound held s.job asked) (now : Nat) :
    Traced held old (s.flush after now world) := by
  obtain ⟨hasked, hh, hs, hp⟩ := h
  have he : Trail held old asked world { s with pending := [] } :=
    ⟨hasked, hh, hs, fun e he => absurd he List.not_mem_nil⟩
  exact traced_store he hp (b := s.batch) ha 0 now

theorem traced_advance (h : s.Trail held old asked world) (shutdown : Bool) (now : Nat) :
    Traced held old (s.advance shutdown now world) := by
  unfold advance
  split
  · rename_i w rest hn
    obtain ⟨ha, hh, hs, hp⟩ := h
    obtain ⟨hw, hs⟩ := hs.next hn
    have ht : Trail held old asked world { s with splitter := rest } := ⟨ha, hh, hs, hp⟩
    dsimp only
    split
    · exact traced_giveUp ht _ now
    · exact traced_attempt ht hw 0 now
  · split
    · exact traced_close h _ now
    · exact traced_flush .finish h trivial now

theorem traced_absorb (h : s.Trail held old asked world) (hw : s.job.Asks asked w)
    {items : List Json} (hi : s.job.Reads held items) (received : Nat) (oldest : Option Nat)
    (shutdown : Bool) (now : Nat) :
    Traced held old (s.absorb w received oldest shutdown now world items) := by
  have hlook {front : List Json} (hf : s.job.Reads held front) :
      (s.look front).Trail held old asked world := by
    obtain ⟨ha, hh, hs, hp⟩ := h
    refine ⟨ha, hh, hs, fun e he => ?_⟩
    rcases List.mem_append.mp he with he | he
    · exact hp e he
    · obtain ⟨item, hitem, hparse⟩ := Event.mem_among.mp he
      exact hf item hitem e hparse
  rcases absorb_cases w received shutdown now world s oldest items with ha | ⟨front, rest, rfl, ha⟩
  · rw [ha]
    apply traced_advance
    obtain ⟨ha, hh, hs, hp⟩ := hlook hi
    exact ⟨ha, hh, hs.resolve hw .., hp⟩
  · rw [ha]
    refine traced_flush _ (hlook fun item hf => hi item (List.mem_append_left _ hf)) ?_ now
    exact ⟨hw, fun item hf => hi item (List.mem_append_right _ hf)⟩

theorem traced_receive (h : s.Trail held old asked world) (hw : s.job.Asks asked w)
    {reply : Reply} (hr : s.job.Reads held reply.items) (retries : Nat) (shutdown : Bool)
    (now : Nat) : Traced held old (s.receive w retries reply shutdown now world) := by
  refine traced_absorb (?_ : Trail held old asked world _) ?_ ?_ _ none shutdown now
  · exact h
  · exact hw
  · exact hr

theorem traced_settle (h : s.Trail held old asked world) {b : Batch}
    (hb : ∀ e ∈ b.events, s.job.Wants held e) {after : After}
    (ha : after.Sound held s.job asked) (retries : Nat) (refusal : Option SinkFault)
    (shutdown : Bool) (now : Nat) :
    Traced held old (s.settle b retries after refusal shutdown now world) := by
  have ht := h.take b refusal
  unfold settle
  split
  · rename_i taken count heq
    rw [heq] at ht
    cases after with
    | reply v received oldest rest =>
      exact traced_absorb (s := s.noteStored b count) ht ha.1 ha.2 received oldest shutdown now
    | finish => exact traced_close (s := s.noteStored b count) ht _ now
  · rename_i taken fault heq
    rw [heq] at ht
    split
    · exact ⟨asked, ht, hb, ha⟩
    · exact traced_close ht _ now

theorem traced_settleSalvage (h : s.Trail held old asked world) (b : Batch)
    (reason : AbandonReason) (heeds : Bool) (now : Nat) :
    Traced held old (s.settleSalvage b reason heeds now world) := by
  have ht := h.take b none
  unfold settleSalvage
  split
  · split
    · rename_i taken count heq
      rw [heq] at ht
      exact traced_close (s := s.noteStored b count) ht _ now
    · rename_i taken fault heq
      rw [heq] at ht
      exact traced_close ht _ now
  · exact traced_close h _ now

theorem traced_proceed (h : Traced held old (world, s))
    (hg : ∀ w timeout now reply,
      (world.query s.relay (s.queryFor w) timeout now).2.value = .ok reply →
        reply.Genuine held (s.queryFor w)) (shutdown : Bool) :
    Traced held old (s.proceed shutdown world) := by
  obtain ⟨asked, h, hst⟩ := h
  rw [proceed]
  cases hs : s.stage with
  | ready now => exact traced_advance h shutdown now
  | connecting w retries now result =>
    rw [hs] at hst
    cases result with
    | opened =>
      have ho : s.Trail held old asked (world.opened s.relay) := by
        rw [Trail, World.asked_opened]
        exact h
      exact ⟨asked, ho, hst⟩
    | failed fault => exact traced_fail h hst retries fault now
    | crashed => exact ⟨asked, h, trivial⟩
  | pacing w retries now => rw [hs] at hst; exact traced_ask h hst (hg w) retries now
  | querying w retries now result =>
    rw [hs] at hst
    cases result with
    | ok reply =>
      exact traced_receive h hst.1 (hst.2 reply rfl) retries shutdown now
    | error fault => exact traced_fail h hst.1.1 retries fault now
  | resting w retries now => rw [hs] at hst; exact traced_attempt h hst retries now
  | storing b retries after now refusal =>
    rw [hs] at hst
    exact traced_settle h hst.1 hst.2 retries refusal shutdown now
  | storeResting b retries after now =>
    rw [hs] at hst
    exact traced_store h hst.1 hst.2 retries now
  | salvaging b reason now heeds => exact traced_settleSalvage h b reason heeds now
  | ended => exact ⟨asked, h, hst⟩
  | crashed => exact ⟨asked, h, hst⟩

theorem traced_interrupt (h : Traced held old (world, s)) (reason : AbandonReason) (now : Nat) :
    Traced held old (s.interrupt reason now world) := by
  unfold interrupt
  split
  · exact h
  · exact h
  · obtain ⟨asked, h, -⟩ := h
    exact traced_close h _ now
  · obtain ⟨asked, h, -⟩ := h
    exact traced_abandon h reason now

/-- No move of a session hands over or flags anything without a source. -/
theorem traced_step (h : Traced held old (world, s))
    (hg : ∀ w timeout now reply,
      (world.query s.relay (s.queryFor w) timeout now).2.value = .ok reply →
        reply.Genuine held (s.queryFor w)) (c : Control) :
    Traced held old (s.step c world) := by
  unfold step
  split
  · split
    · exact traced_interrupt h _ _
    · exact traced_proceed h hg _
  · exact traced_proceed h hg _
  · exact h

end Session

end Harvest
