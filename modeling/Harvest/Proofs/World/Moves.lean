import Harvest.Proofs.Relay.Newest
import Harvest.Proofs.Sink.Holds
import Harvest.World
import Mathlib.Logic.Relation

/-! All that a session can do to the world: it calls the peer of its own relay, and it hands
batches to the sink. Whatever such moves keep, a whole run of a session keeps. -/

namespace Harvest.World

/-- Whether the event of this id is kept. -/
def holds (world : World) (id : String) : Bool := world.sink.depot.holds id

/-- One call to the peer of a relay, or to the sink. -/
inductive Move (relay : RelayId) : World → World → Prop
  | connect (world : World) : Move relay world (world.connect relay).1
  | opened (world : World) : Move relay world (world.opened relay)
  | closed (world : World) : Move relay world (world.closed relay)
  | query (world : World) (q : WindowQuery) (timeout now : Nat) :
      Move relay world (world.query relay q timeout now).1
  | hand (world : World) (b : Batch) (now : Nat) : Move relay world (world.hand b now).1
  | take (world : World) (b : Batch) (refusal : Option SinkFault) :
      Move relay world (world.take b refusal).1

/-- Any number of calls. -/
abbrev Moves (relay : RelayId) : World → World → Prop := Relation.ReflTransGen (Move relay)

/-! ## The sink -/

@[simp] theorem holds_hand (world : World) (b : Batch) (now : Nat) :
    (world.hand b now).1.holds = world.holds := by
  funext id
  simp only [holds, hand, Sink.hand]
  split <;> rfl

theorem holds_take {world : World} {id : String} (h : world.holds id = true) (b : Batch)
    (refusal : Option SinkFault) : (world.take b refusal).1.holds id = true := by
  cases refusal with
  | none => exact Depot.holds_insert_of_holds h b
  | some fault => exact h

/-- The sink holds what it has taken. -/
theorem holds_of_take {world : World} {b : Batch} {refusal : Option SinkFault} {count : Nat}
    (h : (world.take b refusal).2 = .ok count) {e : Event} (he : e ∈ b.events) :
    (world.take b refusal).1.holds e.id = true := by
  cases refusal with
  | none => exact Depot.holds_insert_of_mem h he
  | some fault => cases h

theorem holds_take_iff {world : World} {b : Batch} {refusal : Option SinkFault} {count : Nat}
    (h : (world.take b refusal).2 = .ok count) (id : String) :
    (world.take b refusal).1.holds id = true ↔
      world.holds id = true ∨ ∃ e ∈ b.events, e.id = id := by
  cases refusal with
  | none => exact Depot.holds_insert_iff h id
  | some fault => cases h

theorem holds_take_of_error {world : World} {b : Batch} {refusal : Option SinkFault}
    {fault : SinkFault} (h : (world.take b refusal).2 = .error fault) :
    (world.take b refusal).1.holds = world.holds := by
  cases refusal with
  | none => exact Depot.holds_insert_of_error h
  | some fault => rfl

theorem take_known {world : World} {b : Batch} {refusal : Option SinkFault} {count : Nat}
    (h : (world.take b refusal).2 = .ok count)
    (hk : ∀ e ∈ b.events, world.holds e.id = true) : count = 0 := by
  cases refusal with
  | none => exact Depot.insert_known h hk
  | some fault => cases h

/-- The sink never forgets an event. -/
theorem Moves.holds {relay : RelayId} {a b : World} (h : Moves relay a b) {id : String}
    (ha : a.holds id = true) : b.holds id = true := by
  induction h with
  | refl => exact ha
  | tail _ hm ih =>
    cases hm with
    | hand b now => rw [holds_hand]; exact ih
    | take b refusal => exact holds_take ih b refusal
    | _ => exact ih

/-! ## What is observed -/

@[simp] theorem asked_connect (world : World) (relay : RelayId) :
    (world.connect relay).1.network.asked = world.network.asked := by
  simp only [connect, Network.connect]
  split <;> rfl

@[simp] theorem asked_opened (world : World) (relay : RelayId) :
    (world.opened relay).network.asked = world.network.asked := by
  simp only [opened, Network.opened]
  split <;> rfl

@[simp] theorem asked_closed (world : World) (relay : RelayId) :
    (world.closed relay).network.asked = world.network.asked := by
  simp only [closed, Network.closed]
  split <;> rfl

@[simp] theorem asked_query (world : World) (relay : RelayId) (q : WindowQuery)
    (timeout now : Nat) :
    (world.query relay q timeout now).1.network.asked =
      ⟨relay, now, q⟩ :: world.network.asked := by
  simp only [query, Network.query]
  split <;> rfl

@[simp] theorem handed_hand (world : World) (b : Batch) (now : Nat) :
    (world.hand b now).1.sink.handed = ⟨now, b⟩ :: world.sink.handed := by
  simp only [hand, Sink.hand]
  split <;> rfl

@[simp] theorem handed_take (world : World) (b : Batch) (refusal : Option SinkFault) :
    (world.take b refusal).1.sink.handed = world.sink.handed := by
  cases refusal <;> rfl

@[simp] theorem network_take (world : World) (b : Batch) (refusal : Option SinkFault) :
    (world.take b refusal).1.network = world.network := by
  cases refusal <;> rfl

/-! ## The peers -/

/-- The peer of a relay, if there is one, holds these events and does not cut below `limit`. -/
def Serves (held : List Event) (limit : Nat) (relay : RelayId) (world : World) : Prop :=
  ∀ p, world.network.peer? relay = some p → p.Serves held limit

/-- Replies of a relay to queries up to a limit bring the newest of the events it holds. -/
def Honest (held : List Event) (limit : Nat) (relay : RelayId) (world : World) : Prop :=
  ∀ (q : WindowQuery) (timeout now : Nat) (reply : Reply), q.limit ≤ limit →
    (world.query relay q timeout now).2.value = .ok reply → reply.Newest held q

end World

theorem Network.lookup_putPeer (addr relay : RelayId) (p : Peer) (peers : List (RelayId × Peer)) :
    (putPeer addr p peers).lookup relay =
      if relay = addr then some p else peers.lookup relay := by
  induction peers with
  | nil =>
    simp only [putPeer, List.lookup_cons, List.lookup_nil]
    split <;> simp_all
  | cons entry rest ih =>
    obtain ⟨a, q⟩ := entry
    simp only [putPeer]
    split
    · subst a
      simp only [List.lookup_cons]
      split <;> simp_all
    · rename_i hne
      simp only [List.lookup_cons, ih]
      split
      · simp_all
      · rfl

theorem Network.peer?_connect (n : Network) (addr relay : RelayId) :
    (n.connect addr).1.peer? relay =
      if relay = addr then (n.peer? addr).map fun p => (p.connect addr).1 else n.peer? relay := by
  rw [connect]
  split
  · rename_i hp
    rw [hp]
    split
    · rename_i he
      rw [he]
      exact hp
    · rfl
  · rename_i p hp
    rw [hp]
    exact lookup_putPeer ..

theorem Network.peer?_query (n : Network) (addr : RelayId) (q : WindowQuery) (timeout now : Nat)
    (relay : RelayId) :
    (n.query addr q timeout now).1.peer? relay =
      if relay = addr then (n.peer? addr).map fun p => (p.query q timeout).1
      else n.peer? relay := by
  rw [query]
  split
  · rename_i hp
    have hp : n.peer? addr = none := hp
    rw [hp]
    split
    · rename_i he
      rw [he]
      exact hp
    · rfl
  · rename_i p hp
    have hp : n.peer? addr = some p := hp
    rw [hp]
    exact lookup_putPeer ..

theorem Network.peer?_opened (n : Network) (addr relay : RelayId) :
    (n.opened addr).peer? relay = n.peer? relay := by
  rw [opened]
  split <;> rfl

theorem Network.peer?_closed (n : Network) (addr relay : RelayId) :
    (n.closed addr).peer? relay = n.peer? relay := by
  rw [closed]
  split <;> rfl

namespace World

variable {held : List Event} {limit : Nat} {relay : RelayId}

theorem query_value {world : World} {q : WindowQuery} {timeout now : Nat} {reply : Reply}
    (h : (world.query relay q timeout now).2.value = .ok reply) :
    ∃ p, world.network.peer? relay = some p ∧ (p.query q timeout).2.value = .ok reply := by
  simp only [query, Network.query, Network.peer?] at h
  split at h
  · cases h
  · rename_i p hp
    exact ⟨p, hp, h⟩

theorem Serves.reply {world : World} (h : world.Serves held limit relay) {q : WindowQuery}
    {timeout now : Nat} {reply : Reply} (hq : q.limit ≤ limit)
    (hr : (world.query relay q timeout now).2.value = .ok reply) :
    reply.Newest held q ∧ reply.Genuine held q := by
  obtain ⟨p, hp, hv⟩ := query_value hr
  exact (h p hp).reply hq hv

theorem Serves.honest {world : World} (h : world.Serves held limit relay) :
    world.Honest held limit relay := fun _ _ _ _ hq hr => (h.reply hq hr).1

theorem Honest.mono {world : World} (h : world.Honest held limit relay) {limit' : Nat}
    (hl : limit' ≤ limit) : world.Honest held limit' relay :=
  fun q timeout now reply hq => h q timeout now reply (Nat.le_trans hq hl)

theorem Serves.add {world : World} (h : world.Serves held limit relay) {addr : RelayId}
    {p : Peer} (hp : addr = relay → p.Serves held limit) :
    ∀ p', (world.network.add addr p).peer? relay = some p' → p'.Serves held limit := by
  intro p' hp'
  rw [Network.peer?, Network.add, Network.lookup_putPeer] at hp'
  split at hp'
  · rename_i he
    obtain rfl := Option.some.inj hp'
    exact hp he.symm
  · exact h p' hp'

/-- No call makes a peer serve worse. -/
theorem Moves.serves {addr : RelayId} {a b : World} (h : Moves addr a b)
    (ha : a.Serves held limit relay) : b.Serves held limit relay := by
  induction h with
  | refl => exact ha
  | tail _ hm ih =>
    cases hm with
    | connect =>
      simp only [connect, Network.connect]
      split
      · exact ih
      · rename_i p hp
        exact ih.add fun he => (ih p (he ▸ hp)).connect addr
    | query q timeout now =>
      simp only [query, Network.query]
      split
      · exact ih
      · rename_i p hp
        exact ih.add fun he => (ih p (he ▸ hp)).query q timeout
    | opened =>
      simp only [opened, Network.opened]
      split <;> exact ih
    | closed =>
      simp only [closed, Network.closed]
      split <;> exact ih
    | hand | take => exact ih

end World

end Harvest
