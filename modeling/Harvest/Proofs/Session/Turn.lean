import Harvest.Proofs.Session.Frame
import Harvest.Proofs.Session.Reading

/-! The moves of a session, each with the instant that it falls on and with all that the session
owes, holds and has counted before and after it. What is known of single moves is read off here. -/

namespace Harvest

namespace Session

/-- It is about to look at items of the reply to a window: at those of a reply that is there, or at
the rest after a batch was taken. -/
inductive Digests (s : Session) : Window → Nat → Option Nat → List Json → Nat → Prop
  | reply {w : Window} {retries due : Nat} {reply : Reply}
      (hs : s.stage = .querying w retries due (.ok reply)) :
      Digests s w reply.received none reply.items s.stats.delivered
  | stored {b : Batch} {retries : Nat} {w : Window} {received : Nat} {oldest : Option Nat}
      {rest : List Json} {due : Nat} {refusal : Option SinkFault}
      (hs : s.stage = .storing b retries (.reply w received oldest rest) due refusal) :
      Digests s w received oldest rest (s.stats.delivered + b.size)

/-- It has begun an attempt to ask for a window, over the connection that there was or a new one. -/
inductive Tries (s : Session) (now : Nat) (next : Session) (w : Window) (retries : Nat) : Prop
  | paced {due : Nat} (hn : next.stage = .pacing w retries due) (hd : now ≤ due)
      (hc : s.connected = true)
  | dialled {due : Nat} {result : Connected} (hn : next.stage = .connecting w retries due result)
      (hd : now ≤ due)

/-- It has handed a batch over. -/
structure Stores (now : Nat) (next : Session) (after : After) (events : List Event) : Prop where
  stage : ∃ b due refusal, next.stage = .storing b 0 after due refusal ∧ b.events = events ∧
    now ≤ due

/-- It works to cover its range: it has not ended, and is not left with a last batch. -/
def AtWork (s : Session) : Prop :=
  s.isOver = false ∧ ∀ b reason due heeds, s.stage ≠ .salvaging b reason due heeds

/-- It was abandoned for a reason, even if the last batch is still with the sink. -/
def AbandonedFor (reason : AbandonReason) (s : Session) : Prop :=
  match s.stage with
  | .salvaging _ why _ _ => why = reason
  | .ended outcome _ => outcome = .abandoned reason
  | _ => False

/-- The attempt to ask for a window comes to a fault. -/
def Faults (s : Session) (w : Window) (retries due : Nat) (fault : LinkFault) : Prop :=
  s.stage = .connecting w retries due (.failed fault) ∨
    s.stage = .querying w retries due (.error fault)

end Session

/-- What a session owes and has not handed over, and what it has counted. -/
structure Standing where
  splitter : Splitter
  pending : List Event
  resolved : Nat
  abandoned : Nat
  delivered : Nat
  retries : Nat

namespace Standing

/-- The attempts for a window are over, so many retries among them. -/
def retried (g : Standing) (n : Nat) : Standing := { g with retries := g.retries + n }

def look (g : Standing) (items : List Json) : Standing :=
  { g with pending := g.pending ++ Event.among items }

def resolve (g : Standing) (w : Window) (received : Nat) (oldest : Option Nat) : Standing :=
  let splitter := (g.splitter.resolve w received oldest).2
  { g with splitter, resolved := splitter.resolved }

/-- Gives up what is owed, which counts as abandoned together with `more` windows. -/
def abandon (g : Standing) (more : Nat) : Standing :=
  { g with
    splitter := g.splitter.abandon.2
    abandoned := g.abandoned + more + g.splitter.pending }

end Standing

namespace Session

def standing (s : Session) : Standing where
  splitter := s.splitter
  pending := s.pending
  resolved := s.stats.resolved
  abandoned := s.stats.abandoned
  delivered := s.stats.delivered
  retries := s.stats.retries

/-- Where it stands once a reply is there, or a batch was taken. -/
def advised (s : Session) : Standing :=
  match s.stage with
  | .querying _ retries _ (.ok _) => s.standing.retried retries
  | .storing b .. => { s.standing with delivered := s.stats.delivered + b.size }
  | _ => s.standing

/-- It is about to take a window, and will stand like this. -/
inductive Resumes (s : Session) : Standing → Prop
  | ready {due : Nat} (hs : s.stage = .ready due) : Resumes s s.standing
  | resolved {w : Window} {received : Nat} {oldest : Option Nat} {items : List Json}
      {delivered : Nat} (h : s.Digests w received oldest items delivered) :
      Resumes s ((s.advised.look items).resolve w received (oldestAfter w oldest items))

/-- It has given up at an instant, and stands like this but for what was pending: it is over, or
hands over what is left, for which the sink has the time of a query. -/
inductive Stops (s : Session) (now : Nat) (reason : AbandonReason) (g : Standing)
    (next : Session) : Prop
  | ended (hn : next.stage = .ended (.abandoned reason) now)
      (hg : next.standing = { g with pending := next.pending })
  | salvaging {b : Batch} {due : Nat} {heeds : Bool}
      (hn : next.stage = .salvaging b reason due heeds) (hr : reason ≠ .cancelled)
      (hb : b.events = g.pending ∧ g.pending ≠ []) (hd : now ≤ due)
      (hlate : due ≤ now + s.settings.queryTimeout)
      (hg : next.standing = { g with pending := next.pending })

/-- What a session at work can come to when it goes on at an instant. -/
inductive Goes (s : Session) (shutdown : Bool) (now : Nat) (next : Session) : Prop
  | asks {w : Window} {retries due : Nat} {answer : Except LinkFault Reply}
      (hs : s.stage = .pacing w retries now) (hn : next.stage = .querying w retries due answer)
      (hd : now ≤ due) (hg : next.standing = s.standing)
  | opens {w : Window} {retries due : Nat} (hs : s.stage = .connecting w retries now .opened)
      (hn : next.stage = .pacing w retries due) (hd : now ≤ due)
      (hg : next.standing = s.standing)
  | crashes {w : Window} {retries : Nat} (hs : s.stage = .connecting w retries now .crashed)
      (hn : next.stage = .crashed now) (hg : next.standing = s.standing)
  /-- An attempt has failed, and there will be another one. -/
  | rests {w : Window} {retries due : Nat} {fault : LinkFault} (hf : s.Faults w retries now fault)
      (ht : fault.isTransient = true) (hr : retries + 1 < max 1 s.settings.queryRetry.maxAttempts)
      (hn : next.stage = .resting w (retries + 1) due) (hd : now ≤ due)
      (hg : next.standing = s.standing)
  | retries {w : Window} {retries : Nat} (hs : s.stage = .resting w retries now)
      (hn : s.Tries now next w retries) (hg : next.standing = s.standing)
  /-- An attempt has failed, and it was the last one. -/
  | fails {w : Window} {retries : Nat} {fault : LinkFault} (hf : s.Faults w retries now fault)
      (hn : s.Stops now (.transport fault) ((s.standing.retried retries).abandon 1) next)
  /-- It does not take a window because it is to stop. -/
  | heeds {g : Standing} {w : Window} {rest : Splitter} (hf : s.Resumes g)
      (hw : g.splitter.next = some (w, rest)) (hc : shutdown = true)
      (hn : s.Stops now .shutdown ({ g with splitter := rest }.abandon 1) next)
  | takes {g : Standing} {w : Window} {rest : Splitter} (hf : s.Resumes g)
      (hw : g.splitter.next = some (w, rest)) (hc : shutdown = false) (hn : s.Tries now next w 0)
      (hg : next.standing = { g with splitter := rest })
  /-- A batch is full before the end of a reply. -/
  | fills {w : Window} {received : Nat} {oldest : Option Nat} {front rest : List Json}
      {delivered : Nat} (hf : s.Digests w received oldest (front ++ rest) delivered)
      (hn : next.Stores now (.reply w received (oldestAfter w oldest front) rest)
        (s.pending ++ Event.among front))
      (hg : next.standing = { s.advised with pending := [] })
  /-- No window is owed, so the last batch is handed over. -/
  | flushes {g : Standing} (hf : s.Resumes g) (hw : g.splitter.next = none)
      (hn : next.Stores now .finish g.pending) (hg : next.standing = { g with pending := [] })
  /-- No window is owed, and there is nothing to hand over. -/
  | drains {g : Standing} (hf : s.Resumes g) (hw : g.splitter.next = none) (hp : g.pending = [])
      (hn : next.stage = .ended .drained now) (hg : next.standing = g)
  /-- The last batch was taken. -/
  | finishes {b : Batch} {retries : Nat} {refusal : Option SinkFault}
      (hs : s.stage = .storing b retries .finish now refusal)
      (hn : next.stage = .ended .drained now) (hg : next.standing = s.advised)
  /-- The sink has refused a batch, and will be handed it again. -/
  | waits {b : Batch} {retries due : Nat} {after : After} {refusal : Option SinkFault}
      (hs : s.stage = .storing b retries after now refusal) (hc : refusal ≠ some .closed)
      (hn : next.stage = .storeResting b (retries + 1) after due) (hd : now ≤ due)
      (hg : next.standing = s.standing)
  | hands {b : Batch} {retries due : Nat} {after : After} {refusal : Option SinkFault}
      (hs : s.stage = .storeResting b retries after now)
      (hn : next.stage = .storing b retries after due refusal) (hd : now ≤ due)
      (hg : next.standing = s.standing)
  | refused {b : Batch} {retries : Nat} {after : After} {refusal : Option SinkFault}
      {fault : SinkFault} (hs : s.stage = .storing b retries after now refusal)
      (hn : next.stage = .ended (.sinkFailed fault) now) (hg : next.standing = s.standing)

/-- What a move at an instant can come to, with all that the session has counted. -/
inductive Turn (c : Control) (s : Session) (now : Nat) (next : Session) : Prop
  /-- It was cut off. -/
  | cut {reason : AbandonReason} (hs : s.AtWork) (hc : s.cutOff? c = some (now, reason))
      (hn : s.Stops now reason (s.standing.abandon 0) next)
  /-- What was left of it is with the sink, or not. -/
  | left {b : Batch} {reason : AbandonReason} {due delivered : Nat} {heeds : Bool}
      (hs : s.stage = .salvaging b reason due heeds) (hd : now ≤ due)
      (hn : next.stage = .ended (.abandoned reason) now)
      (hg : next.standing = { s.standing with delivered })
  | goes (hs : s.AtWork) (hc : ∀ cut reason, s.cutOff? c = some (cut, reason) → now < cut)
      (h : s.Goes (c.isShutDown now) now next)

/-- A session that is neither over nor at work is left with a last batch. -/
theorem salvaging_of_not_atWork {s : Session} (ho : s.isOver = false) (hn : ¬s.AtWork) :
    ∃ b reason due heeds, s.stage = .salvaging b reason due heeds := by
  cases hs : s.stage with
  | salvaging b reason due heeds => exact ⟨b, reason, due, heeds, rfl⟩
  | _ => exact absurd ⟨ho, fun _ _ _ _ he => by rw [hs] at he; cases he⟩ hn

theorem atWork_of_stage {s : Session} {stage : Stage} (hs : s.stage = stage)
    (hw : match stage with
      | .salvaging .. | .ended .. | .crashed _ => False
      | _ => True) : s.AtWork := by
  rw [AtWork, isOver, hs]
  cases stage with
  | salvaging | ended | crashed => exact hw.elim
  | _ => exact ⟨rfl, fun _ _ _ _ he => by cases he⟩

theorem AtWork.not_ended {s : Session} (h : s.AtWork) {outcome : Outcome} {at_ : Nat} :
    s.stage ≠ .ended outcome at_ := fun hs => by
  have ho := h.1
  rw [isOver, hs] at ho
  cases ho

theorem AtWork.not_crashed {s : Session} (h : s.AtWork) {at_ : Nat} :
    s.stage ≠ .crashed at_ := fun hs => by
  have ho := h.1
  rw [isOver, hs] at ho
  cases ho

theorem Tries.atWork {s next : Session} {now retries : Nat} {w : Window}
    (h : s.Tries now next w retries) : next.AtWork := by
  cases h with
  | paced hn | dialled hn => exact atWork_of_stage hn trivial

theorem Stores.atWork {next : Session} {now : Nat} {after : After} {events : List Event}
    (h : next.Stores now after events) : next.AtWork := by
  obtain ⟨_, _, _, hn, -⟩ := h
  exact atWork_of_stage hn trivial

theorem AbandonedFor.unique {s : Session} {reason reason' : AbandonReason}
    (h : s.AbandonedFor reason) (h' : s.AbandonedFor reason') : reason = reason' := by
  rw [AbandonedFor] at h h'
  cases hs : s.stage with
  | salvaging =>
    rw [hs] at h h'
    exact h.symm.trans h'
  | ended =>
    rw [hs] at h h'
    exact Outcome.abandoned.inj (h.symm.trans h')
  | _ => simp [hs] at h

theorem AbandonedFor.not_atWork {s : Session} {reason : AbandonReason}
    (h : s.AbandonedFor reason) : ¬s.AtWork := by
  intro ha
  rw [AbandonedFor] at h
  cases hs : s.stage with
  | salvaging => exact ha.2 _ _ _ _ hs
  | ended => exact ha.not_ended hs
  | _ => simp [hs] at h

theorem Stops.abandonedFor {s next : Session} {now : Nat} {reason : AbandonReason} {g : Standing}
    (h : s.Stops now reason g next) : next.AbandonedFor reason := by
  rw [AbandonedFor]
  cases h with
  | ended hn | salvaging hn => rw [hn]

/-! ## The parts of a move -/

variable {c : Control} {s : Session} (now : Nat) (world : World)

theorem disconnect_standing (s : Session) (world : World) :
    (s.disconnect world).2.standing = s.standing ∧ (s.disconnect world).2.job = s.job := by
  unfold disconnect
  split <;> exact ⟨rfl, rfl⟩

theorem close_standing (s : Session) (outcome : Outcome) :
    (s.close outcome now world).2.standing = s.standing := (disconnect_standing s world).1

theorem close_stops {g : Standing} {a : Session} (ha : a.standing = { g with pending := a.pending })
    (reason : AbandonReason) : s.Stops now reason g (a.close (.abandoned reason) now world).2 := by
  have hg := close_standing now world a (.abandoned reason)
  have hp : (a.close (.abandoned reason) now world).2.pending = a.pending :=
    congrArg Standing.pending hg
  refine .ended rfl ?_
  rw [hg, hp]
  exact ha

theorem abandon_stops {a : Session} (hj : a.job = s.job) (reason : AbandonReason) :
    s.Stops now reason (a.standing.abandon 0) (a.abandon reason now world).2 := by
  simp only [abandon]
  split
  · exact close_stops now world rfl reason
  · rename_i hr
    have hsettings : a.settings = s.settings := by rw [settings, hj, settings]
    refine .salvaging rfl (fun he => hr (.inl he)) ⟨rfl, fun he => hr (.inr he)⟩
      (Nat.le_add_right ..) ?_ rfl
    rw [← hsettings]
    exact Nat.add_le_add_left (Nat.min_le_right ..) _

theorem giveUp_stops {a : Session} (hj : a.job = s.job) (reason : AbandonReason) :
    s.Stops now reason (a.standing.abandon 1) (a.giveUp reason now world).2 :=
  abandon_stops now world
    (a := { a with stats := { a.stats with abandoned := a.stats.abandoned + 1 } }) hj reason

theorem attempt_tries (s : Session) (w : Window) (retries : Nat) :
    s.Tries now (s.attempt w retries now world).2 w retries ∧
      (s.attempt w retries now world).2.standing = s.standing := by
  unfold attempt
  split
  · rename_i hc
    exact ⟨.paced rfl (Nat.le_max_left ..) hc, rfl⟩
  · exact ⟨.dialled rfl (Nat.le_add_right ..), rfl⟩

theorem fail_goes {w : Window} {retries : Nat} {fault : LinkFault}
    (hf : s.Faults w retries now fault) (shutdown : Bool) :
    s.Goes shutdown now (s.fail w retries fault now world).2 := by
  obtain ⟨hg, hj⟩ := disconnect_standing s world
  simp only [fail]
  split
  · rename_i n hn
    obtain ⟨rfl, hlt⟩ := RetryPolicy.lt_maxAttempts_of_next? hn
    have ht : fault.isTransient = true := by
      rw [RetryPolicy.next?] at hn
      split at hn
      · rename_i hand
        exact hand.1
      · cases hn
    rw [settings, hj] at hlt
    exact .rests hf ht hlt rfl (Nat.le_add_right ..) hg
  · have hstops := giveUp_stops now (s.disconnect world).1 (s := s)
      (a := { (s.disconnect world).2 with
        stats := { (s.disconnect world).2.stats with
          retries := (s.disconnect world).2.stats.retries + retries } }) hj (.transport fault)
    refine .fails hf ?_
    rw [← hg]
    exact hstops

theorem advance_goes (a : Session) (hf : s.Resumes a.standing) (hj : a.job = s.job)
    (hc : a.connected = s.connected) (shutdown : Bool) :
    s.Goes shutdown now (a.advance shutdown now world).2 := by
  unfold advance
  split
  · rename_i w rest hw
    dsimp only
    split
    · rename_i hsd
      exact .heeds hf hw hsd (giveUp_stops now world (a := { a with splitter := rest }) hj _)
    · rename_i hsd
      obtain ⟨ht, hg⟩ := attempt_tries now world { a with splitter := rest } w 0
      refine .takes hf hw (by simpa using hsd) ?_ hg
      cases ht with
      | paced hn hd hc' => exact .paced hn hd (hc ▸ hc')
      | dialled hn hd => exact .dialled hn hd
  · rename_i hw
    split
    · rename_i hp
      exact .drains hf hw hp rfl (close_standing now world a .drained)
    · exact .flushes hf hw ⟨_, _, _, rfl, rfl, Nat.le_add_right ..⟩ rfl

theorem absorb_goes (a : Session) {w : Window} {received : Nat} {oldest : Option Nat}
    {items : List Json} {delivered : Nat} (hf : s.Digests w received oldest items delivered)
    (ha : a.standing = s.advised) (hj : a.job = s.job) (hc : a.connected = s.connected)
    (shutdown : Bool) :
    s.Goes shutdown now (a.absorb w received oldest shutdown now world items).2 := by
  have hp : a.pending = s.pending := by
    have hpending : a.pending = s.advised.pending := congrArg Standing.pending ha
    rw [hpending, advised]
    cases hf with
    | reply hs | stored hs =>
      rw [hs]
      rfl
  rcases absorb_cases w received shutdown now world a oldest items with
    h | ⟨front, rest, rfl, h⟩
  · rw [h]
    refine advance_goes now world _ ?_ (by exact hj) (by exact hc) shutdown
    have hr := Resumes.resolved hf
    rw [← ha] at hr
    exact hr
  · rw [h]
    refine .fills hf ⟨_, _, _, rfl, ?_, Nat.le_add_right ..⟩ ?_
    · rw [← hp]
      rfl
    · rw [← ha]
      rfl

theorem settle_goes {b : Batch} {retries : Nat} {after : After} {refusal : Option SinkFault}
    (hs : s.stage = .storing b retries after now refusal) (shutdown : Bool) :
    s.Goes shutdown now (s.settle b retries after refusal shutdown now world).2 := by
  have ha (count : Nat) : (s.noteStored b count).standing = s.advised := by
    rw [advised, hs]
    rfl
  unfold settle
  split
  · split
    · exact absorb_goes now _ _ (.stored hs) (ha _) rfl rfl shutdown
    · exact .finishes hs rfl ((close_standing now _ _ _).trans (ha _))
  · rename_i taken fault ht
    split
    · rename_i n hn
      obtain ⟨rfl, -⟩ := RetryPolicy.lt_maxAttempts_of_next? hn
      refine .waits hs ?_ rfl (Nat.le_add_right ..) rfl
      rintro rfl
      obtain rfl : SinkFault.closed = fault := Except.error.inj (congrArg Prod.snd ht)
      simp [RetryPolicy.next?, SinkFault.isTransient] at hn
    · exact .refused hs rfl (close_standing now taken s _)

theorem proceed_goes {due : Nat} (ha : s.AtWork) (hd : s.stage.due? = some due) (shutdown : Bool) :
    s.Goes shutdown due (s.proceed shutdown world).2 := by
  unfold proceed
  cases hs : s.stage with
  | ready now =>
    obtain rfl : now = due := by simpa [Stage.due?, hs] using hd
    exact advance_goes now world s (.ready hs) rfl rfl shutdown
  | connecting w retries now result =>
    obtain rfl : now = due := by simpa [Stage.due?, hs] using hd
    cases result with
    | opened => exact .opens hs rfl (Nat.le_max_left ..) rfl
    | failed fault => exact fail_goes now world (.inl hs) shutdown
    | crashed => exact .crashes hs rfl rfl
  | pacing w retries now =>
    obtain rfl : now = due := by simpa [Stage.due?, hs] using hd
    exact .asks hs rfl (Nat.le_add_right ..) rfl
  | querying w retries now result =>
    obtain rfl : now = due := by simpa [Stage.due?, hs] using hd
    cases result with
    | ok reply =>
      refine absorb_goes now world _ (.reply hs) ?_ (by exact rfl) (by exact rfl) shutdown
      rw [advised, hs]
      rfl
    | error fault => exact fail_goes now world (.inr hs) shutdown
  | resting w retries now =>
    obtain rfl : now = due := by simpa [Stage.due?, hs] using hd
    obtain ⟨ht, hg⟩ := attempt_tries now world s w retries
    exact .retries hs ht hg
  | storing b retries after now refusal =>
    obtain rfl : now = due := by simpa [Stage.due?, hs] using hd
    exact settle_goes now world hs shutdown
  | storeResting b retries after now =>
    obtain rfl : now = due := by simpa [Stage.due?, hs] using hd
    exact .hands hs rfl (Nat.le_add_right ..) rfl
  | salvaging b reason now heeds => exact absurd hs (ha.2 _ _ _ _)
  | ended | crashed => simp [Stage.due?, hs] at hd

/-- What was left of an abandoned session makes no difference but to what the sink has taken. -/
theorem settleSalvage_ends (b : Batch) (reason : AbandonReason) (heeds : Bool) :
    (s.settleSalvage b reason heeds now world).2.stage = .ended (.abandoned reason) now ∧
      ∃ delivered, (s.settleSalvage b reason heeds now world).2.standing =
        { s.standing with delivered } := by
  have hclose (world : World) : ∃ delivered,
      (s.close (.abandoned reason) now world).2.standing = { s.standing with delivered } :=
    ⟨_, close_standing now world s _⟩
  unfold settleSalvage
  split
  · split
    · exact ⟨rfl, _, close_standing now _ (s.noteStored b _) _⟩
    · exact ⟨rfl, hclose _⟩
  · exact ⟨rfl, hclose _⟩

/-- **Every move of a session that is not over is one of these**, at the instant that it waits
for. -/
theorem turn_step (ho : s.isOver = false) (c : Control) (world : World) :
    ∃ now, s.due? c = some now ∧ s.Turn c now (s.step c world).2 := by
  obtain ⟨due, hd⟩ : ∃ due, s.stage.due? = some due :=
    Option.isSome_iff_exists.mp (by simpa [isOver] using ho)
  by_cases ha : s.AtWork
  · unfold due? step
    rw [hd]
    cases hc : s.cutOff? c with
    | none => exact ⟨due, rfl, .goes ha (by simp [hc]) (proceed_goes world ha hd _)⟩
    | some cut =>
      obtain ⟨t, reason⟩ := cut
      dsimp only
      by_cases hle : t ≤ due
      · rw [if_pos hle, Nat.min_eq_right hle]
        rcases s.interrupt_cases reason t world with ⟨hover, -⟩ | ⟨b, reason', at_, heeds, hs, -⟩ |
          ⟨-, -, hi⟩
        · rw [ho] at hover
          cases hover
        · exact absurd hs (ha.2 _ _ _ _)
        · rw [hi]
          exact ⟨t, rfl, .cut ha hc (abandon_stops t world rfl reason)⟩
      · rw [if_neg hle, Nat.min_eq_left (by omega)]
        refine ⟨due, rfl, .goes ha (fun cut reason he => ?_) (proceed_goes world ha hd _)⟩
        obtain ⟨rfl, -⟩ := Prod.mk.inj (Option.some.inj (hc.symm.trans he))
        omega
  · obtain ⟨b, reason, at_, heeds, hs⟩ := salvaging_of_not_atWork ho ha
    obtain rfl : at_ = due := by simpa [Stage.due?, hs] using hd
    have hgoes : s.Turn c at_ (s.proceed (c.isShutDown at_) world).2 := by
      obtain ⟨hn, delivered, hg⟩ := settleSalvage_ends at_ world b reason heeds (s := s)
      rw [proceed, hs]
      exact .left hs (Nat.le_refl _) hn hg
    unfold due? step
    rw [hd]
    cases hc : s.cutOff? c with
    | none => exact ⟨at_, rfl, hgoes⟩
    | some cut =>
      obtain ⟨t, reason'⟩ := cut
      dsimp only
      by_cases hle : t ≤ at_
      · rw [if_pos hle, Nat.min_eq_right hle, interrupt, hs]
        exact ⟨t, rfl, .left hs hle rfl (close_standing t world s _)⟩
      · rw [if_neg hle, Nat.min_eq_left (by omega)]
        exact ⟨at_, rfl, hgoes⟩


/-! ## Reports -/

theorem abandonedFor_of_report {s : Session} {r : Report} {reason : AbandonReason} (hr : s.report? = some r)
    (ho : r.outcome = .abandoned reason) : s.AbandonedFor reason := by
  unfold report? at hr
  split at hr
  · rename_i outcome at_ hs
    obtain rfl := Option.some.inj hr
    rw [AbandonedFor, hs]
    exact ho
  · cases hr

theorem stats_of_report {s : Session} {r : Report} (hr : s.report? = some r) :
    r.stats = { s.stats with flagged := s.splitter.flagged } := by
  unfold report? at hr
  split at hr
  · obtain rfl := Option.some.inj hr
    rfl
  · cases hr

end Session

end Harvest
