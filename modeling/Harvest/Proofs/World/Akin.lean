import Harvest.Proofs.World.Moves

/-! Two worlds that a session cannot tell apart: the same peer stands at the address of its relay,
and both sinks accept every batch at once. A call that is made in both comes to the same, and they
stay akin. So they do while others make calls to other relays. -/

namespace Harvest

/-- The depot takes every batch. -/
def Depot.Accepts : Depot → Prop
  | memory m => m.failAlways = false ∧ m.failuresLeft = 0
  | store _ => True

/-- The sink takes every batch, and without delay. -/
structure Sink.Accepts (s : Sink) : Prop where
  script : s.script = []
  depot : s.depot.Accepts

theorem Depot.Accepts.insert {d : Depot} (h : d.Accepts) (b : Batch) :
    (d.insert b).1.Accepts ∧ ∃ count, (d.insert b).2 = .ok count := by
  cases d with
  | memory m =>
    obtain ⟨halways, hleft⟩ := h
    simp only [Depot.insert, MemorySink.insert, halways, hleft]
    exact ⟨⟨rfl, rfl⟩, _, rfl⟩
  | store s => exact ⟨trivial, _, rfl⟩

namespace Sink

theorem Accepts.hand {s : Sink} (h : s.Accepts) (b : Batch) (now : Nat) :
    (s.hand b now).1.Accepts ∧ (s.hand b now).2 = {} := by
  rw [Sink.hand, h.script]
  exact ⟨⟨rfl, h.depot⟩, rfl⟩

theorem Accepts.take {s : Sink} (h : s.Accepts) (b : Batch) (refusal : Option SinkFault) :
    (s.take b refusal).1.Accepts := by
  cases refusal with
  | none => exact ⟨h.script, (h.depot.insert b).1⟩
  | some fault => exact h

theorem Accepts.close {s : Sink} (h : s.Accepts) : s.close.Accepts := by
  obtain ⟨hscript, hdepot⟩ := h
  refine ⟨hscript, ?_⟩
  unfold Sink.close
  cases hd : s.depot with
  | memory m => rw [hd] at hdepot; exact hdepot
  | store events => trivial

end Sink

namespace World

variable {relay : RelayId}

/-- No call makes a sink refuse. -/
theorem Moves.accepts {a b : World} (h : Moves relay a b) (ha : a.sink.Accepts) :
    b.sink.Accepts := by
  induction h with
  | refl => exact ha
  | tail _ hm ih =>
    cases hm with
    | hand b now => exact (ih.hand b now).1
    | take b refusal => exact ih.take b refusal
    | _ => exact ih

/-- Calls of the sessions of other relays leave the peer of a relay alone. -/
theorem Moves.peer_of_ne {addr : RelayId} {a b : World} (h : Moves addr a b) (hne : relay ≠ addr) :
    b.network.peer? relay = a.network.peer? relay := by
  induction h with
  | refl => rfl
  | tail _ hm ih =>
    cases hm with
    | connect => rw [connect, Network.peer?_connect, if_neg hne, ih]
    | opened => exact (Network.peer?_opened ..).trans ih
    | closed => exact (Network.peer?_closed ..).trans ih
    | query => rw [query, Network.peer?_query, if_neg hne, ih]
    | hand => exact ih
    | take => rw [network_take, ih]

/-- A session of the relay cannot tell the worlds apart. -/
structure Akin (relay : RelayId) (a b : World) : Prop where
  peer : a.network.peer? relay = b.network.peer? relay
  left : a.sink.Accepts
  right : b.sink.Accepts

theorem connect_eq (world : World) (relay : RelayId) :
    (world.connect relay).2 =
      match world.network.peer? relay with
      | none => { value := .failed (.connect relay "connection refused") }
      | some p => (p.connect relay).2 := by
  simp only [connect, Network.connect]
  cases world.network.peer? relay <;> rfl

theorem query_eq (world : World) (relay : RelayId) (q : WindowQuery) (timeout now : Nat) :
    (world.query relay q timeout now).2 =
      match world.network.peer? relay with
      | none => { value := .error (.reset "relay vanished") }
      | some p => (p.query q timeout).2 := by
  simp only [query, Network.query, Network.peer?]
  cases world.network.peers.lookup relay <;> rfl

namespace Akin

variable {a b : World}

theorem connect (h : Akin relay a b) :
    Akin relay (a.connect relay).1 (b.connect relay).1 ∧
      (a.connect relay).2 = (b.connect relay).2 := by
  refine ⟨⟨?_, h.left, h.right⟩, ?_⟩
  · rw [World.connect, World.connect, Network.peer?_connect, Network.peer?_connect, h.peer]
  · rw [connect_eq, connect_eq, h.peer]

theorem query (h : Akin relay a b) (q : WindowQuery) (timeout now now' : Nat) :
    Akin relay (a.query relay q timeout now).1 (b.query relay q timeout now').1 ∧
      (a.query relay q timeout now).2 = (b.query relay q timeout now').2 := by
  refine ⟨⟨?_, h.left, h.right⟩, ?_⟩
  · rw [World.query, World.query, Network.peer?_query, Network.peer?_query, h.peer]
  · rw [query_eq, query_eq, h.peer]

theorem opened (h : Akin relay a b) : Akin relay (a.opened relay) (b.opened relay) := by
  refine ⟨?_, h.left, h.right⟩
  rw [World.opened, World.opened, Network.peer?_opened, Network.peer?_opened, h.peer]

theorem closed (h : Akin relay a b) : Akin relay (a.closed relay) (b.closed relay) := by
  refine ⟨?_, h.left, h.right⟩
  rw [World.closed, World.closed, Network.peer?_closed, Network.peer?_closed, h.peer]

theorem hand (h : Akin relay a b) (x y : Batch) (now now' : Nat) :
    Akin relay (a.hand x now).1 (b.hand y now').1 ∧
      (a.hand x now).2 = {} ∧ (b.hand y now').2 = {} :=
  ⟨⟨h.peer, (h.left.hand x now).1, (h.right.hand y now').1⟩, (h.left.hand x now).2,
    (h.right.hand y now').2⟩

theorem take (h : Akin relay a b) (x y : Batch) (refusal : Option SinkFault) :
    Akin relay (a.take x refusal).1 (b.take y refusal).1 := by
  refine ⟨?_, h.left.take x refusal, h.right.take y refusal⟩
  rw [network_take, network_take, h.peer]

end Akin

theorem take_of_accepts {world : World} (h : world.sink.Accepts) (b : Batch) :
    ∃ count, (world.take b none).2 = .ok count := (h.depot.insert b).2

end World

end Harvest
