import Harvest.Event.Sample
import Harvest.Proofs.Session.Deeds
import Mathlib.Algebra.Ring.Nat

/-! What goes through a session: replies come in, batches of their events go to the sink, and the
sink takes some of them. Whatever cuts in, the sink has taken just the events that came first, in
their order; what it has not taken is with the sink, waits to be handed over, or was not looked at
yet. Only the end of a session loses what is on its way. -/

namespace Harvest

inductive Transfer
  /-- A query was answered. -/
  | answered (reply : Reply)
  | handed (b : Batch)
  /-- The sink took a batch, `count` of its events being new. -/
  | taken (b : Batch) (count : Nat)

namespace Transfer

def reply? : Transfer → Option Reply
  | answered reply => some reply
  | _ => none

def batch? : Transfer → Option Batch
  | handed b => some b
  | _ => none

def taken? : Transfer → Option (Batch × Nat)
  | taken b count => some (b, count)
  | _ => none

end Transfer

/-- What went through a session, in the order in which it did. -/
abbrev Traffic := List Transfer

namespace Traffic

variable (log more : Traffic)

def replies : List Reply := log.filterMap Transfer.reply?

def handed : List Batch := log.filterMap Transfer.batch?

def taken : List (Batch × Nat) := log.filterMap Transfer.taken?

/-- The valid events of the replies, in their order. -/
def arrived : List Event := (replies log).flatMap fun reply => Event.among reply.items

/-- The events of the batches that the sink took, in their order. -/
def accepted : List Event := (taken log).flatMap fun t => t.1.events

def received : Nat := ((replies log).map Reply.received).sum

def delivered : Nat := ((taken log).map fun t => t.1.size).sum

def stored : Nat := ((taken log).map Prod.snd).sum

@[simp] theorem handed_append : handed (log ++ more) = handed log ++ handed more :=
  List.filterMap_append ..

@[simp] theorem arrived_append : arrived (log ++ more) = arrived log ++ arrived more := by
  simp [arrived, replies]

@[simp] theorem accepted_append : accepted (log ++ more) = accepted log ++ accepted more := by
  simp [accepted, taken]

@[simp] theorem received_append : received (log ++ more) = received log + received more := by
  simp [received, replies]

@[simp] theorem delivered_append : delivered (log ++ more) = delivered log + delivered more := by
  simp [delivered, taken]

@[simp] theorem stored_append : stored (log ++ more) = stored log + stored more := by
  simp [stored, taken]

end Traffic

def Deed.batch? : Deed → Option Batch
  | handed b => some b
  | _ => none

namespace Session

/-! ## What a move lets through -/

/-- What comes of a call to the sink for a batch. -/
def took (b : Batch) : Except SinkFault Nat → Traffic
  | .ok count => [.taken b count]
  | .error _ => []

/-- What a session that goes on is told by the relay or the sink. -/
def told (s : Session) (world : World) : Traffic :=
  match s.stage with
  | .querying _ _ _ (.ok reply) => [.answered reply]
  | .storing b _ _ _ refusal => took b (world.take b refusal).2
  | .salvaging b _ _ true => took b (world.take b none).2
  | _ => []

/-- What a session is told at its next move; nothing where it is cut off before. -/
def receipts (s : Session) (c : Control) (world : World) : Traffic :=
  match s.stage.due?, s.cutOff? c with
  | some due, some (t, _) => if t ≤ due then [] else s.told world
  | some _, none => s.told world
  | none, _ => []

/-- The batch that a session has handed over in the move that led to its stage. -/
def hands (s : Session) : Traffic :=
  match s.stage with
  | .storing b .. | .salvaging b .. => [.handed b]
  | _ => []

/-- What goes through a session in its next move. -/
def transfers (s : Session) (c : Control) (world : World) : Traffic :=
  s.receipts c world ++ (s.step c world).2.hands

/-- What goes through a session, in whatever worlds the others leave for its moves. -/
inductive Conveys (c : Control) (first : Session) : Traffic → Session → Prop
  | start : Conveys c first [] first
  | step {log : Traffic} {s : Session} (h : Conveys c first log s) (ho : s.isOver = false)
      (world : World) : Conveys c first (log ++ s.transfers c world) (s.step c world).2

/-! ## The books -/

/-- What is counted of a session, and what it has not handed over. -/
structure Account where
  batchSize : Nat
  pending : List Event
  received : Nat
  malformed : Nat
  delivered : Nat
  stored : Nat

def account (s : Session) : Account where
  batchSize := s.settings.batchSize
  pending := s.pending
  received := s.stats.received
  malformed := s.stats.malformed
  delivered := s.stats.delivered
  stored := s.stats.stored

/-- What is so of a session at any moment, its end included. -/
structure Kept (log : Traffic) (t : Account) : Prop where
  /-- Batches are neither empty nor too big. -/
  sizes : ∀ b ∈ log.handed, b.events ≠ [] ∧ b.events.length ≤ t.batchSize
  /-- What the sink took is what came first. -/
  accepted : log.accepted <+: log.arrived
  received : t.received = log.received
  delivered : t.delivered = log.delivered
  stored : t.stored = log.stored
  counted : t.delivered + t.malformed ≤ t.received

/-- While nothing is lost: what has come in was taken by the sink, is with the sink, waits to be
handed over or was not looked at yet. -/
structure Books (log : Traffic) (t : Account) (inHand : List Event) (unread : List Json) :
    Prop where
  sizes : ∀ b ∈ log.handed, b.events ≠ [] ∧ b.events.length ≤ t.batchSize
  arrived : log.arrived = log.accepted ++ (inHand ++ (t.pending ++ Event.among unread))
  received : t.received = log.received
  delivered : t.delivered = log.delivered
  stored : t.stored = log.stored
  counted : t.received =
    t.delivered + t.malformed + inHand.length + t.pending.length + unread.length

end Session

/-- The items of a reply that wait behind a batch. -/
def After.unread : After → List Json
  | reply _ _ _ rest => rest
  | finish => []

namespace Session

/-- The books of a session at its stage. -/
def Balances (log : Traffic) (s : Session) : Prop :=
  match s.stage with
  | .storing b _ after _ _ | .storeResting b _ after _ =>
    Books log s.account b.events after.unread ∧ s.pending = [] ∧ b.events ≠ [] ∧
      b.events.length ≤ s.settings.batchSize
  | .salvaging b .. => Books log s.account b.events []
  | .ended .drained _ => Books log s.account [] [] ∧ s.pending = []
  | .ended .. | .crashed _ => Kept log s.account
  | _ => Books log s.account [] [] ∧ s.pending.length < s.settings.batchSize

variable {log : Traffic} {t : Account} {s : Session} {inHand : List Event} {unread : List Json}

theorem Books.kept (h : Books log t inHand unread) : Kept log t where
  sizes := h.sizes
  accepted := ⟨_, h.arrived.symm⟩
  received := h.received
  delivered := h.delivered
  stored := h.stored
  counted := by
    have := h.counted
    omega

theorem account_disconnect (s : Session) (world : World) :
    (s.disconnect world).2.account = s.account := by
  unfold disconnect
  split <;> rfl

/-! ## The parts of a move -/

variable (now : Nat) (world : World)

theorem Kept.close (h : Kept log s.account) {outcome : Outcome} (ho : outcome ≠ .drained) :
    Balances (log ++ (s.close outcome now world).2.hands) (s.close outcome now world).2 := by
  rw [← account_disconnect s world] at h
  have hb : Kept (log ++ []) (s.close outcome now world).2.account := by
    rw [List.append_nil]
    exact h
  cases outcome with
  | drained => exact absurd rfl ho
  | abandoned reason => exact hb
  | sinkFailed fault => exact hb

theorem Books.drain (h : Books log s.account [] []) (hp : s.pending = []) :
    Balances (log ++ (s.close .drained now world).2.hands) (s.close .drained now world).2 := by
  rw [← account_disconnect s world] at h
  have hb : Books (log ++ []) (s.close .drained now world).2.account [] [] := by
    rw [List.append_nil]
    exact h
  have hpending : (s.disconnect world).2.pending = s.pending :=
    congrArg Account.pending (account_disconnect s world)
  exact ⟨hb, hpending.trans hp⟩

/-- To hand a batch over moves nothing in the books. -/
theorem Books.hand {b : Batch} (h : Books log t inHand unread) (hne : b.events ≠ [])
    (hle : b.events.length ≤ t.batchSize) : Books (log ++ [.handed b]) t inHand unread where
  sizes c hc := by
    rw [Traffic.handed_append, List.mem_append] at hc
    rcases hc with hc | hc
    · exact h.sizes c hc
    · obtain rfl := List.mem_singleton.mp hc
      exact ⟨hne, hle⟩
  arrived := by
    rw [Traffic.arrived_append, Traffic.accepted_append, List.append_assoc]
    exact (List.append_nil _).trans h.arrived
  received := by
    rw [Traffic.received_append]
    exact h.received
  delivered := by
    rw [Traffic.delivered_append]
    exact h.delivered
  stored := by
    rw [Traffic.stored_append]
    exact h.stored
  counted := h.counted

/-- The pending events are handed over as a batch. -/
theorem Books.handPending (h : Books log s.account [] unread) (hne : s.pending ≠ [])
    (hle : s.pending.length ≤ s.settings.batchSize) :
    Books (log ++ [.handed s.batch]) { s.account with pending := [] } s.batch.events unread := by
  have hbooks : Books log { s.account with pending := [] } s.batch.events unread := by
    refine ⟨h.sizes, h.arrived, h.received, h.delivered, h.stored, ?_⟩
    have hcounted := h.counted
    simp only [account, batch, List.length_nil] at hcounted ⊢
    omega
  exact hbooks.hand hne hle

theorem Books.salvage (h : Books log s.account [] []) (hne : s.pending ≠ [])
    (hle : s.pending.length ≤ s.settings.batchSize) (reason : AbandonReason) :
    Balances (log ++ (s.salvage reason now world).2.hands) (s.salvage reason now world).2 :=
  h.handPending hne hle

theorem Kept.abandon (h : Kept log s.account)
    (hp : s.pending ≠ [] → Books log s.account [] [] ∧ s.pending.length ≤ s.settings.batchSize)
    (reason : AbandonReason) :
    Balances (log ++ (s.abandon reason now world).2.hands) (s.abandon reason now world).2 := by
  unfold Session.abandon
  dsimp only
  split
  · exact Kept.close now world (by exact h) (by intro he; cases he)
  · rename_i hr
    obtain ⟨hbooks, hle⟩ := hp fun he => hr (.inr he)
    exact Books.salvage now world (by exact hbooks) (fun he => hr (.inr he)) (by exact hle) reason

theorem Books.giveUp (h : Books log s.account [] []) (hr : s.pending.length < s.settings.batchSize)
    (reason : AbandonReason) :
    Balances (log ++ (s.giveUp reason now world).2.hands) (s.giveUp reason now world).2 := by
  refine Kept.abandon now world ?_ (fun _ => ⟨?_, ?_⟩) reason
  · exact h.kept
  · exact h
  · exact Nat.le_of_lt hr

theorem Books.attempt (h : Books log s.account [] []) (hr : s.pending.length < s.settings.batchSize)
    (w : Window) (retries : Nat) :
    Balances (log ++ (s.attempt w retries now world).2.hands)
      (s.attempt w retries now world).2 := by
  rw [← List.append_nil log] at h
  unfold Session.attempt
  split
  · exact ⟨h, hr⟩
  · exact ⟨h, hr⟩

theorem Books.ask (h : Books log s.account [] []) (hr : s.pending.length < s.settings.batchSize)
    (w : Window) (retries : Nat) :
    Balances (log ++ (s.ask w retries now world).2.hands) (s.ask w retries now world).2 := by
  rw [← List.append_nil log] at h
  exact ⟨h, hr⟩

theorem Books.fail (h : Books log s.account [] []) (hr : s.pending.length < s.settings.batchSize)
    (w : Window) (retries : Nat) (fault : LinkFault) :
    Balances (log ++ (s.fail w retries fault now world).2.hands)
      (s.fail w retries fault now world).2 := by
  have ht := account_disconnect s world
  have hroom : (s.disconnect world).2.account.pending.length <
      (s.disconnect world).2.account.batchSize := ht ▸ hr
  rw [← ht] at h
  unfold Session.fail
  dsimp only
  split
  · rw [← List.append_nil log] at h
    exact ⟨h, hroom⟩
  · exact Books.giveUp now _ (by exact h) (by exact hroom) _

theorem Books.flush (h : Books log s.account [] unread) (hne : s.pending ≠ [])
    (hle : s.pending.length ≤ s.settings.batchSize) {after : After} (ha : after.unread = unread) :
    Balances (log ++ (s.flush after now world).2.hands) (s.flush after now world).2 := by
  subst ha
  exact ⟨h.handPending hne hle, rfl, hne, hle⟩

theorem Books.advance (h : Books log s.account [] []) (hr : s.pending.length < s.settings.batchSize)
    (shutdown : Bool) :
    Balances (log ++ (s.advance shutdown now world).2.hands)
      (s.advance shutdown now world).2 := by
  unfold Session.advance
  split
  · dsimp only
    split
    · exact Books.giveUp now world (by exact h) (by exact hr) _
    · exact Books.attempt now world (by exact h) (by exact hr) _ _
  · split
    · rename_i hp
      exact h.drain now world hp
    · rename_i hp
      exact h.flush now world hp (Nat.le_of_lt hr) rfl

/-! ## Replies and the sink -/

/-- What hands no batch over adds none. -/
theorem forall_handed_append {keeps : Batch → Prop} (h : ∀ b ∈ log.handed, keeps b) {more : Traffic}
    (hn : more.handed = []) : ∀ b ∈ Traffic.handed (log ++ more), keeps b := by
  rwa [Traffic.handed_append, hn, List.append_nil]

/-- To look at an item is to count it, as an event or as none. -/
theorem Books.look {front rest : List Json} (h : Books log s.account [] (front ++ rest)) :
    Books log (s.look front).account [] rest where
  sizes := h.sizes
  arrived := by
    have harrived := h.arrived
    rw [Event.among_append] at harrived
    simpa [Session.look, account] using harrived
  received := h.received
  delivered := h.delivered
  stored := h.stored
  counted := by
    have hcounted := h.counted
    have hle := length_among_le front
    simp only [account, Session.look, List.length_append, List.length_nil] at hcounted ⊢
    omega

theorem Books.absorb {items : List Json} (h : Books log s.account [] items)
    (hr : s.pending.length < s.settings.batchSize) (w : Window) (received : Nat)
    (oldest : Option Nat) (shutdown : Bool) :
    Balances (log ++ (s.absorb w received oldest shutdown now world items).2.hands)
      (s.absorb w received oldest shutdown now world items).2 := by
  rcases absorb_fills w received shutdown now world s oldest items with
    ⟨ha, hroom⟩ | ⟨front, rest, rfl, ha, hfull⟩
  · rw [ha]
    have hlook := Books.look (by rwa [List.append_nil] : Books log s.account [] (items ++ []))
    refine Books.advance now world ?_ ?_ shutdown
    · exact hlook
    · exact hroom hr
  · rw [ha]
    have hfull := hfull hr
    have hne : (s.look front).pending ≠ [] := by
      intro he
      rw [he, List.length_nil] at hfull
      omega
    exact h.look.flush now world hne (Nat.le_of_eq hfull) rfl

theorem Books.answer (h : Books log s.account [] []) (reply : Reply) :
    Books (log ++ [.answered reply]) { s.account with
      received := s.stats.received + reply.received
      malformed := s.stats.malformed + reply.garbled } [] reply.items where
  sizes := forall_handed_append h.sizes rfl
  arrived := by
    have harrived := h.arrived
    have hanswer : Traffic.arrived [.answered reply] = Event.among reply.items := List.append_nil _
    have hnone : Traffic.accepted [.answered reply] = [] := rfl
    rw [Traffic.arrived_append, Traffic.accepted_append, harrived, hanswer, hnone]
    simp [Event.among, account]
  received := by
    rw [Traffic.received_append, ← h.received]
    rfl
  delivered := by
    rw [Traffic.delivered_append]
    exact h.delivered
  stored := by
    rw [Traffic.stored_append]
    exact h.stored
  counted := by
    have hcounted := h.counted
    simp only [account, List.length_nil, Reply.received] at hcounted ⊢
    omega

theorem Books.take {b : Batch} (h : Books log s.account b.events unread) (count : Nat) :
    Books (log ++ [.taken b count]) (s.noteStored b count).account [] unread where
  sizes := forall_handed_append h.sizes rfl
  arrived := by
    have htaken : Traffic.accepted [.taken b count] = b.events := List.append_nil _
    have hnone : Traffic.arrived [.taken b count] = [] := rfl
    rw [Traffic.arrived_append, Traffic.accepted_append, htaken, hnone, List.append_nil,
      List.append_assoc]
    exact h.arrived
  received := by
    rw [Traffic.received_append]
    exact h.received
  delivered := by
    rw [Traffic.delivered_append, ← h.delivered]
    rfl
  stored := by
    rw [Traffic.stored_append, ← h.stored]
    rfl
  counted := by
    have hcounted := h.counted
    simp only [account, noteStored, Batch.size, List.length_nil] at hcounted ⊢
    omega

theorem Books.receive (h : Books log s.account [] []) (hr : s.pending.length < s.settings.batchSize)
    (w : Window) (retries : Nat) (reply : Reply) (shutdown : Bool) :
    Balances ((log ++ [.answered reply]) ++
        (s.receive w retries reply shutdown now world).2.hands)
      (s.receive w retries reply shutdown now world).2 := by
  refine Books.absorb now world ?_ ?_ w reply.received none shutdown
  · exact h.answer reply
  · exact hr

theorem Books.settle {b : Batch} {after : After} (h : Books log s.account b.events after.unread)
    (hp : s.pending = []) (hne : b.events ≠ []) (hle : b.events.length ≤ s.settings.batchSize)
    (retries : Nat) (refusal : Option SinkFault) (shutdown : Bool) :
    Balances ((log ++ took b (world.take b refusal).2) ++
        (s.settle b retries after refusal shutdown now world).2.hands)
      (s.settle b retries after refusal shutdown now world).2 := by
  unfold Session.settle
  generalize world.take b refusal = taken
  obtain ⟨world, result⟩ := taken
  cases result with
  | ok count =>
    have htake := h.take count
    cases after with
    | reply w received oldest rest =>
      refine Books.absorb now world ?_ ?_ w received oldest shutdown
      · exact htake
      · show s.pending.length < s.settings.batchSize
        have hpos := List.length_pos_iff.mpr hne
        rw [hp, List.length_nil]
        omega
    | finish => exact htake.drain now world hp
  | error fault =>
    have hlog : log ++ took b (.error fault) = log := List.append_nil log
    dsimp only
    rw [hlog]
    split
    · rw [← List.append_nil log] at h
      exact ⟨h, hp, hne, hle⟩
    · exact h.kept.close now world (by intro he; cases he)

theorem Books.settleSalvage {b : Batch} (h : Books log s.account b.events [])
    (reason : AbandonReason) (heeds : Bool) :
    Balances ((log ++ if heeds then took b (world.take b none).2 else []) ++
        (s.settleSalvage b reason heeds now world).2.hands)
      (s.settleSalvage b reason heeds now world).2 := by
  have hreason : Outcome.abandoned reason ≠ .drained := by
    intro he
    cases he
  unfold Session.settleSalvage
  cases heeds with
  | false =>
    rw [← List.append_nil log] at h
    exact h.kept.close now world hreason
  | true =>
    rw [if_pos rfl, if_pos rfl]
    generalize world.take b none = taken
    obtain ⟨world, result⟩ := taken
    cases result with
    | ok count => exact (h.take count).kept.close now world hreason
    | error fault =>
      rw [← List.append_nil log] at h
      exact h.kept.close now world hreason

/-! ## Moves -/

theorem Balances.proceed (h : Balances log s) (ho : s.isOver = false) (shutdown : Bool) :
    Balances ((log ++ s.told world) ++ (s.proceed shutdown world).2.hands)
      (s.proceed shutdown world).2 := by
  unfold Session.proceed told
  unfold Balances at h
  cases hs : s.stage with
  | ready due =>
    simp only [hs] at h ⊢
    rw [List.append_nil]
    exact h.1.advance due world h.2 shutdown
  | connecting w retries due result =>
    simp only [hs] at h ⊢
    rw [List.append_nil]
    cases result with
    | opened =>
      rw [← List.append_nil log] at h
      exact h
    | failed fault => exact h.1.fail due world h.2 w retries fault
    | crashed =>
      rw [← List.append_nil log] at h
      exact h.1.kept
  | pacing w retries due =>
    simp only [hs] at h ⊢
    rw [List.append_nil]
    exact h.1.ask due world h.2 w retries
  | querying w retries due result =>
    simp only [hs] at h ⊢
    cases result with
    | ok reply => exact h.1.receive due world h.2 w retries reply shutdown
    | error fault =>
      rw [List.append_nil]
      exact h.1.fail due world h.2 w retries fault
  | resting w retries due =>
    simp only [hs] at h ⊢
    rw [List.append_nil]
    exact h.1.attempt due world h.2 w retries
  | storing b retries after due refusal =>
    simp only [hs] at h ⊢
    obtain ⟨hbooks, hp, hne, hle⟩ := h
    exact hbooks.settle due world hp hne hle retries refusal shutdown
  | storeResting b retries after due =>
    simp only [hs] at h ⊢
    obtain ⟨hbooks, hp, hne, hle⟩ := h
    rw [List.append_nil]
    exact ⟨hbooks.hand hne hle, hp, hne, hle⟩
  | salvaging b reason due heeds =>
    simp only [hs] at h ⊢
    have hsettle := Books.settleSalvage due world h reason heeds
    cases heeds with
    | false => exact hsettle
    | true => exact hsettle
  | ended | crashed => simp [isOver, Stage.due?, hs] at ho

theorem Balances.kept (h : Balances log s) : Kept log s.account := by
  unfold Balances at h
  split at h
  · exact h.1.kept
  · exact h.1.kept
  · exact h.kept
  · exact h.1.kept
  · exact h
  · exact h
  · exact h.1.kept

theorem Balances.interrupt (h : Balances log s) (ho : s.isOver = false) (reason : AbandonReason) :
    Balances (log ++ (s.interrupt reason now world).2.hands) (s.interrupt reason now world).2 := by
  rcases s.interrupt_cases reason now world with ⟨hover, -⟩ | ⟨b, reason', due, heeds, -, hi⟩ |
    ⟨-, hs, hi⟩
  · rw [ho] at hover
    cases hover
  · rw [hi]
    exact h.kept.close now world (by intro he; cases he)
  · rw [hi]
    refine h.kept.abandon now world (fun hne => ?_) reason
    -- While a batch is with the sink nothing else is pending.
    unfold Balances at h
    split at h
    · exact absurd h.2.1 hne
    · exact absurd h.2.1 hne
    · rename_i hsalvaging
      exact absurd hsalvaging (hs _ _ _ _)
    · exact absurd h.2 hne
    · rename_i hended
      simp [isOver, Stage.due?, hended] at ho
    · rename_i hcrashed
      simp [isOver, Stage.due?, hcrashed] at ho
    · exact ⟨h.1, Nat.le_of_lt h.2⟩

/-- A session is told nothing where it is cut off. -/
theorem receipts_cases (ho : s.isOver = false) (c : Control) :
    (∃ reason now, s.receipts c world = [] ∧ s.step c world = s.interrupt reason now world) ∨
      ∃ shutdown, s.receipts c world = s.told world ∧
        s.step c world = s.proceed shutdown world := by
  rw [isOver] at ho
  unfold receipts Session.step
  cases hdue : s.stage.due? with
  | none =>
    rw [hdue] at ho
    cases ho
  | some due =>
    cases s.cutOff? c with
    | none => exact .inr ⟨_, rfl, rfl⟩
    | some cut =>
      dsimp only
      by_cases hle : cut.1 ≤ due
      · rw [if_pos hle, if_pos hle]
        exact .inl ⟨_, _, rfl, rfl⟩
      · rw [if_neg hle, if_neg hle]
        exact .inr ⟨_, rfl, rfl⟩

/-- **Every move keeps the books.** -/
theorem Balances.step (h : Balances log s) (ho : s.isOver = false) (c : Control) :
    Balances (log ++ s.transfers c world) (s.step c world).2 := by
  rw [transfers, ← List.append_assoc]
  rcases receipts_cases world ho c with ⟨reason, now, hr, hstep⟩ | ⟨shutdown, hr, hstep⟩
  · rw [hr, hstep, List.append_nil]
    exact h.interrupt now world ho reason
  · rw [hr, hstep]
    exact h.proceed world ho shutdown

/-! ## What the sink is shown -/

theorem handed_foldl (counted : Bool) (deeds : List Deed) (o : Observed) :
    (deeds.foldl (Observed.after s counted) o).handed =
      (deeds.filterMap Deed.batch?).reverse ++ o.handed := by
  induction deeds generalizing o with
  | nil => rfl
  | cons deed rest ih =>
    rw [List.foldl_cons, ih]
    cases deed with
    | handed b => simp [Observed.after, Deed.batch?]
    | opened | released =>
      simp only [Observed.after]
      split <;> rfl
    | _ => rfl

theorem handed_receipts (c : Control) : (s.receipts c world).handed = [] := by
  have htook (b : Batch) (result : Except SinkFault Nat) : (took b result).handed = [] := by
    cases result <;> rfl
  have htold : (s.told world).handed = [] := by
    unfold told
    split
    · rfl
    · exact htook ..
    · exact htook ..
    · rfl
  unfold receipts
  split
  · split
    · rfl
    · exact htold
  · exact htold
  · rfl

theorem handed_hands (next : Session) :
    (s.deeds next).filterMap Deed.batch? = next.hands.handed := by
  have hreleased : (if s.connected && !next.connected then [Deed.released] else []).filterMap
      Deed.batch? = [] := by
    split <;> rfl
  unfold deeds hands
  rw [List.filterMap_append, hreleased, List.nil_append]
  cases next.stage with
  | pacing =>
    dsimp only
    split <;> rfl
  | _ => rfl

/-- The batches that a session hands over in a move are those that the sink is shown. -/
theorem handed_transfers {wire : Wire} (hon : s.On wire) (ho : s.isOver = false) (c : Control) :
    (s.step c world).1.sink.handed.map Handed.batch =
      (s.transfers c world).handed.reverse ++ world.sink.handed.map Handed.batch := by
  obtain ⟨-, hshows⟩ := does_step hon ho c world
  have hobserved := congrArg Observed.handed hshows.observed
  rw [handed_foldl, handed_hands] at hobserved
  rw [transfers, Traffic.handed_append, handed_receipts, List.nil_append]
  exact hobserved

/-! ## Whole sessions -/

variable {c : Control} {first : Session}

theorem balances_start {job : Job} (hsize : 1 ≤ job.settings.batchSize) (wall : UInt64) :
    Balances [] (start job wall now) := by
  refine ⟨⟨fun b hb => (by cases hb), rfl, rfl, rfl, rfl, rfl⟩, ?_⟩
  exact hsize

theorem Conveys.balances (h : Conveys c first log s) (hf : Balances [] first) : Balances log s := by
  induction h with
  | start => exact hf
  | step _ ho world ih => exact ih.step world ho c

theorem Conveys.path (h : Conveys c first log s) : ∃ deeds, Path c first deeds s := by
  induction h with
  | start => exact ⟨_, .start⟩
  | step _ ho world ih =>
    obtain ⟨deeds, hpath⟩ := ih
    exact ⟨_, hpath.step ho world⟩

/-- **Batches are delivered exactly.** However the moves of others come between, and wherever a
session is cut off: it hands over no empty batch and none that is too big, the sink has taken the
first events that came in and, if the session is drained, all of them, and the counts are right. -/
theorem delivery_exact {job : Job} {wall : UInt64} {now : Nat}
    (hsize : 1 ≤ job.settings.batchSize) (h : Conveys c (start job wall now) log s) :
    (∀ b ∈ log.handed, b.events ≠ [] ∧ b.events.length ≤ job.settings.batchSize) ∧
    (∀ world, s.isOver = false → (s.step c world).1.sink.handed.map Handed.batch =
      (s.transfers c world).handed.reverse ++ world.sink.handed.map Handed.batch) ∧
    log.accepted <+: log.arrived ∧
    s.stats.delivered = log.delivered ∧ s.stats.stored = log.stored ∧
    s.stats.received = log.received ∧ s.stats.delivered + s.stats.malformed ≤ s.stats.received ∧
    ∀ report, s.report? = some report →
      report.stats = { s.stats with flagged := s.splitter.flagged } ∧
      (report.outcome = .drained → log.accepted = log.arrived ∧
        report.stats.delivered + report.stats.malformed = report.stats.received) := by
  have hbalances := h.balances (balances_start now hsize wall)
  obtain ⟨deeds, hpath⟩ := h.path
  obtain ⟨wire, -, hon⟩ := hpath.on (on_start job wall now)
  have hkept := hbalances.kept
  refine ⟨?_, fun world ho => handed_transfers world hon ho c, hkept.accepted, hkept.delivered,
    hkept.stored, hkept.received, hkept.counted, fun report hreport => ?_⟩
  · have hjob : s.settings.batchSize = job.settings.batchSize := by
      rw [settings, hpath.job]
      rfl
    rw [← hjob]
    exact hkept.sizes
  · unfold report? at hreport
    split at hreport
    · rename_i outcome at_ hs
      obtain rfl := Option.some.inj hreport
      refine ⟨rfl, ?_⟩
      rintro rfl
      unfold Balances at hbalances
      simp only [hs] at hbalances
      obtain ⟨hbooks, hp⟩ := hbalances
      have harrived := hbooks.arrived
      have hcounted := hbooks.counted
      simp only [account, hp, List.length_nil] at harrived hcounted
      exact ⟨by simpa [Event.among] using harrived.symm, hcounted.symm⟩
    · cases hreport

/-- A session by itself conveys something in any number of moves. -/
theorem exists_conveys_repeat (c : Control) (world : World) (first : Session) (n : Nat) :
    ∃ log, Conveys c first log
      (Nat.repeat (fun state => state.2.step c state.1) n (world, first)).2 := by
  induction n with
  | zero => exact ⟨_, .start⟩
  | succ n ih =>
    obtain ⟨log, h⟩ := ih
    rw [Nat.repeat]
    generalize Nat.repeat (fun state => state.2.step c state.1) n (world, first) = state at h
    cases ho : state.2.isOver with
    | false => exact ⟨_, h.step ho state.1⟩
    | true =>
      have hd : state.2.stage.due? = none := by simpa [isOver] using ho
      have hstep : state.2.step c state.1 = state := by simp [step, hd]
      rw [hstep]
      exact ⟨log, h⟩

/-- A reply with one event, an item that is none and a frame that cannot be read; the sink refuses
the batch once. -/
theorem delivery_exact_refused :
    let relay : Relay := { id := "relay" }
    let event : Event := { Event.build (Event.repeated "a1") 5 1 [] "x" with
      id := "7cb95dc45205407bb4c493f8ff38b0437cbfc4b817ab6533a08c1b36d33d4582" }
    let reply : Reply := { items := [.null, event.toJson], garbled := 1, exhausted := true }
    let world : World :=
      { network := { peers := [("relay", .scripted { queries := [{ value := .ok reply }] })] }
        sink := { script := [{ refusal := some (.write "busy") }], depot := .memory {} } }
    let job : Job :=
      { relay, target := ⟨5, 5⟩, settings := { Config.settings {} relay with batchSize := 1 } }
    let s := (Nat.repeat (fun state => state.2.step {} state.1) 7 (world, start job 100 0)).2
    ∃ log report, Conveys {} (start job 100 0) log s ∧ s.report? = some report ∧
      log.accepted = log.arrived ∧ log.delivered = 1 ∧ report.stats.malformed = 2 ∧
      report.stats.received = 3 := by
  intro relay event reply world job s
  obtain ⟨log, h⟩ : ∃ log, Conveys {} (start job 100 0) log s :=
    exists_conveys_repeat {} world (start job 100 0) 7
  have hends : ∃ ended, s = ended ∧ (ended.report?.map fun r =>
      (r.outcome, r.stats.delivered, r.stats.malformed, r.stats.received)) =
        some (.drained, 1, 2, 3) := by
    clear h
    refine ⟨_, rfl, ?_⟩
    revert relay event reply world job s
    decide +kernel
  obtain ⟨ended, hs, hreport⟩ := hends
  rw [hs] at h ⊢
  obtain ⟨report, hr, hvalues⟩ := Option.map_eq_some_iff.mp hreport
  simp only [Prod.mk.injEq] at hvalues
  obtain ⟨hdrained, hdelivered, hmalformed, hreceived⟩ := hvalues
  obtain ⟨-, -, -, hsum, -, -, -, hreports⟩ := delivery_exact (Nat.le_refl 1) h
  obtain ⟨hstats, hall⟩ := hreports report hr
  refine ⟨log, report, h, hr, (hall hdrained).1, ?_, hmalformed, hreceived⟩
  rw [← hsum, ← hdelivered, hstats]

end Session

end Harvest
