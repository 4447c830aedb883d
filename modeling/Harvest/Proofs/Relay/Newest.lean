import Harvest.Network
import Harvest.Proofs.Event.Reading

/-! Replies that bring the newest events of a window. Such a reply leaves events out only if it is
full, and then only such as are no newer than all that it brings. Main statement: the relays that
hold a fixed list of events and cut their replies at no less than the limit that is asked for
answer in this way, whatever else they put into a reply. -/

namespace Harvest

/-- A reply that leaves out old events before new ones, and none unless it is full. -/
structure Reply.Newest (held : List Event) (q : WindowQuery) (r : Reply) : Prop where
  complete : r.received < q.limit →
    ∀ e ∈ held, e.validate = .ok () → e.stamp ∈ q.window → e.toJson ∈ r.items
  above : ∀ item ∈ r.items, ∀ e, Event.parse item = .ok e → e.stamp ∈ q.window →
    ∀ f ∈ held, f.validate = .ok () → f.stamp ∈ q.window → e.stamp < f.stamp → f.toJson ∈ r.items

/-- What can be read of a reply is held by the relay and lies in the window. -/
def Reply.Genuine (held : List Event) (q : WindowQuery) (r : Reply) : Prop :=
  ∀ item ∈ r.items, ∀ e, Event.parse item = .ok e → e ∈ held ∧ e.stamp ∈ q.window

namespace MemoryRelay

theorem parse_garbageItem (i : Nat) : Event.parse (garbageItem i) = .error .shape := rfl

theorem pairwise_matching (r : MemoryRelay) (w : Window) :
    (r.matching w).Pairwise fun a b => b.stamp ≤ a.stamp := by
  have hs : (r.matching w).Pairwise fun a b => decide (b.createdAt ≤ a.createdAt) :=
    List.pairwise_mergeSort (by simp only [decide_eq_true_eq, UInt64.le_iff_toNat_le]; omega)
      (by simp only [Bool.or_eq_true, decide_eq_true_eq, UInt64.le_iff_toNat_le]; omega) _
  exact hs.imp fun hab => UInt64.le_iff_toNat_le.mp (of_decide_eq_true hab)

theorem mem_matching {r : MemoryRelay} {w : Window} {e : Event} :
    e ∈ r.matching w ↔ e ∈ r.events ∧ e.stamp ∈ w := by
  rw [matching, (List.mergeSort_perm _ _).mem_iff, List.mem_filter, Window.contains_iff]

/-- The events that a reply has room for. -/
def sent (r : MemoryRelay) (q : WindowQuery) : List Event :=
  (r.matching q.window).take (r.limit q - r.garbage)

theorem items_answer (r : MemoryRelay) (q : WindowQuery) :
    (r.answer q).items =
      ((List.range r.garbage).map garbageItem).take (r.limit q) ++ (r.sent q).map Event.toJson := by
  have hl : ((List.range r.garbage).map garbageItem).length = r.garbage := by
    rw [List.length_map, List.length_range]
  simp only [answer, List.take_append, hl]
  rw [List.take_of_length_le (l := ((r.matching q.window).take _).map Event.toJson)]
  · rfl
  · rw [List.length_map, List.length_take]
    exact Nat.min_le_left _ _

/-- What can be read of an answer are events that were sent. -/
theorem mem_sent_of_parse {r : MemoryRelay} {q : WindowQuery} {item : Json}
    (hi : item ∈ (r.answer q).items) {e : Event} (he : Event.parse item = .ok e) :
    e ∈ r.sent q := by
  rw [items_answer, List.mem_append] at hi
  rcases hi with hi | hi
  · obtain ⟨i, -, rfl⟩ := List.mem_map.mp (List.mem_of_mem_take hi)
    rw [parse_garbageItem] at he
    cases he
  · obtain ⟨f, hf, rfl⟩ := List.mem_map.mp hi
    rw [Event.eq_of_parse_toJson he]
    exact hf

theorem toJson_mem_answer {r : MemoryRelay} {q : WindowQuery} {e : Event} (h : e ∈ r.sent q) :
    e.toJson ∈ (r.answer q).items := by
  rw [items_answer]
  exact List.mem_append_right _ (List.mem_map_of_mem h)

theorem genuine_answer (r : MemoryRelay) (q : WindowQuery) :
    (r.answer q).Genuine r.events q :=
  fun _ hi _ he => mem_matching.mp (List.mem_of_mem_take (mem_sent_of_parse hi he))

/-- A relay that does not cut below the limit of the query brings the newest events. -/
theorem newest_answer (r : MemoryRelay) (q : WindowQuery) (hl : r.limit q = q.limit) :
    (r.answer q).Newest r.events q where
  complete hs e he _ hw := by
    apply toJson_mem_answer
    have hlen : (r.answer q).items.length =
        min q.limit r.garbage + min (q.limit - r.garbage) (r.matching q.window).length := by
      rw [items_answer, sent, List.length_append, List.length_take, List.length_map,
        List.length_map, List.length_take, List.length_range, hl]
    have hr : (r.answer q).received = (r.answer q).items.length := rfl
    rw [sent, hl, List.take_of_length_le (by omega)]
    exact mem_matching.mpr ⟨he, hw⟩
  above item hi e he _ f hf _ hw hlt := by
    apply toJson_mem_answer
    have hm : f ∈ r.matching q.window := mem_matching.mpr ⟨hf, hw⟩
    have hp := r.pairwise_matching q.window
    rw [← List.take_append_drop (r.limit q - r.garbage) (r.matching q.window)] at hm hp
    rcases List.mem_append.mp hm with hm | hm
    · exact hm
    · -- what was cut off is no newer than what was sent
      have := (List.pairwise_append.mp hp).2.2 e (mem_sent_of_parse hi he) f hm
      omega

end MemoryRelay

/-! ## Peers -/

/-- A peer that holds these events, and does not cut below `limit` items. -/
inductive Peer.Serves (held : List Event) (limit : Nat) : Peer → Prop
  | memory (r : MemoryRelay) : r.events = held → (∀ cap, r.cap = some cap → limit ≤ cap) →
      Serves held limit (.memory r)
  | lines (r : LineRelay) : r.events = held → (∀ cap, r.cap = some cap → limit ≤ cap) →
      Serves held limit (.lines r)
  | unreachable (fault : LinkFault) : Serves held limit (.unreachable fault)

theorem MemoryRelay.limit_eq {r : MemoryRelay} {q : WindowQuery} {limit : Nat}
    (hc : ∀ cap, r.cap = some cap → limit ≤ cap) (hq : q.limit ≤ limit) : r.limit q = q.limit := by
  unfold MemoryRelay.limit
  split
  · rfl
  · rename_i cap h
    have := hc cap h
    omega

namespace Peer

theorem eq_ok_of_within {limit : Nat} {call : Call (Except LinkFault Reply)} {reply : Reply}
    (h : (within limit call).value = .ok reply) : call.value = .ok reply := by
  unfold within at h
  split at h
  · cases h
  · exact h

theorem Serves.connect {held : List Event} {limit : Nat} {p : Peer} (h : p.Serves held limit)
    (addr : RelayId) : (p.connect addr).1.Serves held limit := by
  cases h with
  | memory r he hc =>
    simp only [Peer.connect]
    split <;> exact .memory _ he hc
  | lines r he hc => exact .lines r he hc
  | unreachable fault => exact .unreachable fault

theorem Serves.query {held : List Event} {limit : Nat} {p : Peer} (h : p.Serves held limit)
    (q : WindowQuery) (timeout : Nat) : (p.query q timeout).1.Serves held limit := by
  cases h with
  | memory r he hc =>
    simp only [Peer.query]
    split
    · exact .memory _ he hc
    · split <;> exact .memory _ he hc
  | lines r he hc => exact .lines r he hc
  | unreachable fault => exact .unreachable fault

/-- What such a peer replies holds the newest of its events and nothing that it does not hold. -/
theorem Serves.reply {held : List Event} {limit : Nat} {p : Peer} (h : p.Serves held limit)
    {q : WindowQuery} (hq : q.limit ≤ limit) {timeout : Nat} {reply : Reply}
    (hr : (p.query q timeout).2.value = .ok reply) : reply.Newest held q ∧ reply.Genuine held q := by
  cases h with
  | memory r he hc =>
    subst he
    simp only [Peer.query] at hr
    split at hr
    · cases hr
    · split at hr
      · cases hr
      · obtain rfl := Except.ok.inj (eq_ok_of_within hr)
        exact ⟨r.newest_answer q (MemoryRelay.limit_eq hc hq), r.genuine_answer q⟩
  | lines r he hc =>
    subst he
    have hr := eq_ok_of_within hr
    simp only [LineRelay.answer] at hr
    split at hr
    · cases hr
    · obtain rfl := Except.ok.inj hr
      have hn := MemoryRelay.newest_answer { events := r.events, cap := r.cap } q
        (MemoryRelay.limit_eq hc hq)
      refine ⟨⟨fun hs => hn.complete ?_, hn.above⟩, MemoryRelay.genuine_answer _ q⟩
      simp only [Reply.received] at hs ⊢
      exact Nat.lt_of_le_of_lt (Nat.add_le_add_left (Nat.zero_le _) _) hs
  | unreachable fault => cases hr

end Peer

end Harvest
