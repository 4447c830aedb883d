import Harvest.Proofs.Window.Drain
import Mathlib

/-! How many windows a splitter can hand out. A loop takes the next window and notes the reply to
it, round after round, and the relay may answer whatever it likes, in view of all that went before.
Each window has a price: no window leads to more rounds than its price, its own included. A reply
pays for its round, as the windows that are owed instead of its own cost less together. -/

namespace Harvest

/-- The price of a window where every full reply has an oldest stamp. -/
def Window.price (floor : Nat) (w : Window) : Nat := 2 * (w.width / floor) + 1

theorem Window.sum_potential (owed : List Window) :
    (owed.map potential).sum = potentials owed := by
  induction owed with
  | nil => rfl
  | cons w rest ih => rw [List.map_cons, List.sum_cons, ih, potentials]

theorem Window.price_of_width_lt {floor : Nat} {w : Window} (h : w.width < floor) :
    w.price floor = 1 := by
  rw [price, Nat.div_eq_of_lt h]

/-- A window that is narrower by a floor costs two rounds less. -/
theorem Window.price_add_two_le {floor : Nat} {v w : Window} (hf : 1 ≤ floor)
    (h : v.width + floor ≤ w.width) : v.price floor + 2 ≤ w.price floor := by
  have hd : (v.width + floor) / floor ≤ w.width / floor := Nat.div_le_div_right h
  rw [Nat.add_div_right _ hf] at hd
  rw [price, price]
  omega

/-- Either the window is cut by a floor at least, or it gives way to a gap that costs one round and
to a window that is cut by just a floor. -/
theorem Window.sum_price_narrow_lt {floor : Nat} {w : Window} (hf : 1 ≤ floor)
    (hw : floor ≤ w.width) (stamp : Nat) :
    ((w.narrow floor (some stamp)).map (price floor)).sum < w.price floor := by
  have hwidth : w.width = w.upto - w.since := rfl
  have ho := clamp_mem (w := w) (by omega) stamp
  rw [mem_iff] at ho
  simp only [narrow]
  split
  · have hcut : (⟨w.since, w.clamp stamp⟩ : Window).width + floor ≤ w.width := by
      dsimp only [width]
      omega
    have := price_add_two_le hf hcut
    rw [List.map_singleton, List.sum_singleton]
    omega
  · have hgap : (⟨w.upto - floor + 1, w.clamp stamp⟩ : Window).price floor = 1 :=
      price_of_width_lt (by dsimp only [width]; omega)
    have hlower : (⟨w.since, w.upto - floor⟩ : Window).width + floor ≤ w.width := by
      dsimp only [width]
      omega
    have := price_add_two_le hf hlower
    simp only [List.map_cons, List.map_nil, List.sum_cons, List.sum_nil, hgap]
    omega

namespace Course

/-- The windows that were taken so far. -/
def taken (k : Course) : Nat := k.hand.length + k.answered.length

/-- What was spent so far, and what the windows cost that still await their replies. -/
def cost (price : Window → Nat) (k : Course) : Nat :=
  ((k.splitter.stack.pending ++ k.hand).map price).sum + k.answered.length

/-- The windows that are owed after a reply cost less than its own. -/
def Pays (price : Window → Nat) (a : Answered) : Prop :=
  (a.resolution.owed.map price).sum < price a.window

theorem cost_step {price : Window → Nat} {k k' : Course} (h : Step k k')
    (hp : ∀ a ∈ k'.answered, Pays price a) : k'.cost price ≤ k.cost price := by
  cases h with
  | take hn =>
    have hpending := (Splitter.next_eq_some hn).1
    simp only [cost, hpending, List.map_append, List.map_cons, List.sum_append, List.sum_cons,
      List.cons_append]
    omega
  | @note w count oldest hw =>
    have hpays := hp _ (List.mem_cons_self ..)
    have hhand : (k.hand.map price).sum = price w + ((k.hand.erase w).map price).sum := by
      rw [((List.perm_cons_erase hw).map price).sum_eq, List.map_cons, List.sum_cons]
    -- empty windows cost something too, but they are not kept
    have hkept := (List.filter_sublist (p := fun v : Window => v.since ≤ v.upto)
      (l := (k.splitter.judge w count oldest).owed)).map price |>.sum_le_sum
        fun _ _ => Nat.zero_le _
    simp only [Pays, Splitter.fst_resolve] at hpays
    simp only [cost, note, Splitter.pending_resolve, List.map_append, List.sum_append,
      List.length_cons]
    omega

theorem cost_start (price : Window → Nat) (range : Window) (cap floor : Nat) :
    cost price { splitter := .ofRange range cap floor } ≤ price range := by
  simp only [cost, Splitter.pending_ofRange, List.append_nil, List.length_nil]
  split <;> simp

/-- Where every reply pays, no course takes more windows than its range costs. -/
theorem cost_le {price : Window → Nat} {range : Window} {cap floor : Nat} {k : Course}
    (h : Reached range cap floor k) (hp : ∀ a ∈ k.answered, Pays price a) :
    k.cost price ≤ price range := by
  induction h with
  | start => exact cost_start price range cap floor
  | step _ hs ih =>
    refine Nat.le_trans (cost_step hs hp) (ih fun a ha => hp a ?_)
    cases hs with
    | take => exact ha
    | note => exact List.mem_cons_of_mem _ ha

/-! ## Which replies pay -/

variable {range : Window} {cap floor : Nat} {k : Course}

/-- A reply owes nothing, or it was full and its window is wide. -/
theorem owed_cases (h : Reached range cap floor k) {a : Answered} (ha : a ∈ k.answered) :
    a.resolution.owed = [] ∨
      max 1 cap ≤ a.count ∧ max 1 floor ≤ a.window.width ∧
        a.resolution.owed = a.window.narrow (max 1 floor) a.oldest := by
  obtain ⟨hcap, hfloor, hjudged, -⟩ := consistent h
  rw [hjudged a ha, Splitter.judge, hcap, hfloor]
  split
  · exact .inl rfl
  · split
    · exact .inl rfl
    · exact .inr ⟨by omega, by omega, rfl⟩

/-- Every reply pays with the potentials of the windows. -/
theorem pays_potential (h : Reached range cap floor k) {a : Answered} (ha : a ∈ k.answered) :
    Pays Window.potential a := by
  rw [Pays]
  rcases owed_cases h ha with ho | ⟨-, hw, ho⟩
  · rw [ho]
    exact Nat.succ_pos _
  · rw [ho, Window.sum_potential]
    exact Window.potential_narrow_lt (Nat.le_max_left _ _) hw _

/-- A reply with a stamp pays with the prices by the floor. -/
theorem pays_price (h : Reached range cap floor k) {a : Answered} (ha : a ∈ k.answered)
    (hs : max 1 cap ≤ a.count → a.oldest ≠ none) : Pays (Window.price (max 1 floor)) a := by
  rw [Pays]
  rcases owed_cases h ha with ho | ⟨hc, hw, ho⟩
  · rw [ho]
    exact Nat.succ_pos _
  · obtain ⟨stamp, hstamp⟩ := Option.ne_none_iff_exists'.mp (hs hc)
    rw [ho, hstamp]
    exact Window.sum_price_narrow_lt (Nat.le_max_left _ _) hw stamp

/-! ## The loop -/

/-- One round: the next window is taken and the reply of the relay to it is noted. The relay knows
the whole course so far. -/
def round (relay : Course → Window → Tally) (k : Course) : Course :=
  match k.splitter.next with
  | none => k
  | some (w, rest) =>
    let taken := { k with splitter := rest, hand := w :: k.hand }
    taken.note w (relay k w).count (relay k w).oldest

/-- The course after so many rounds. -/
def rounds (relay : Course → Window → Tally) (range : Window) (cap floor n : Nat) : Course :=
  Nat.repeat (round relay) n { splitter := .ofRange range cap floor }

/-- No more than `limit` windows are ever taken, and once so many were taken none is owed. -/
structure EndsWithin (after : Nat → Course) (limit : Nat) : Prop where
  taken_le : ∀ n, (after n).taken ≤ limit
  drained : ∀ n, limit ≤ n → (after n).splitter.isDrained = true

theorem EndsWithin.mono {after : Nat → Course} {limit limit' : Nat} (h : EndsWithin after limit)
    (hl : limit ≤ limit') : EndsWithin after limit' where
  taken_le n := Nat.le_trans (h.taken_le n) hl
  drained n hn := h.drained n (Nat.le_trans hl hn)

variable (relay : Course → Window → Tally)

theorem rounds_succ (range : Window) (cap floor n : Nat) :
    rounds relay range cap floor (n + 1) = (rounds relay range cap floor n).round relay := rfl

/-- A loop is a course that has nothing in hand between two rounds, with replies of its relay. -/
theorem reached_rounds (range : Window) (cap floor n : Nat) :
    Reached range cap floor (rounds relay range cap floor n) ∧
      (rounds relay range cap floor n).hand = [] ∧
      ∀ a ∈ (rounds relay range cap floor n).answered, ∃ k,
        a.count = (relay k a.window).count ∧ a.oldest = (relay k a.window).oldest := by
  induction n with
  | zero => exact ⟨.start, rfl, nofun⟩
  | succ n ih =>
    rw [rounds_succ]
    generalize rounds relay range cap floor n = k at ih ⊢
    obtain ⟨hr, hh, ha⟩ := ih
    rw [round]
    split
    · exact ⟨hr, hh, ha⟩
    · rename_i w rest hn
      refine ⟨(hr.step (.take hn)).step (.note _ _ (List.mem_cons_self ..)), ?_, ?_⟩
      · simp only [note, hh, List.erase_cons_head]
      · intro a hm
        rcases List.mem_cons.mp hm with rfl | hm
        · exact ⟨k, rfl, rfl⟩
        · exact ha a hm

/-- As long as a window is owed, every round has had its reply. -/
theorem length_answered_rounds {n : Nat}
    (h : (rounds relay range cap floor n).splitter.next ≠ none) :
    (rounds relay range cap floor n).answered.length = n := by
  induction n with
  | zero => rfl
  | succ n ih =>
    rw [rounds_succ] at h ⊢
    generalize rounds relay range cap floor n = k at ih h ⊢
    rw [round] at h ⊢
    split at h
    · contradiction
    · rename_i w rest hn
      simp only [note, List.length_cons, ih (by rw [hn]; exact Option.some_ne_none _)]

theorem endsWithin_of_pays (price : Window → Nat) (hone : ∀ w, 1 ≤ price w)
    (hp : ∀ n, ∀ a ∈ (rounds relay range cap floor n).answered, Pays price a) :
    EndsWithin (rounds relay range cap floor) (price range) := by
  have hcost (n : Nat) := cost_le (reached_rounds relay range cap floor n).1 (hp n)
  constructor
  · intro n
    have hc := hcost n
    rw [taken, (reached_rounds relay range cap floor n).2.1, List.length_nil]
    rw [cost] at hc
    omega
  · intro n hn
    by_contra hd
    have hnext : (rounds relay range cap floor n).splitter.next ≠ none := fun hnone =>
      hd (List.isEmpty_iff.mpr (Splitter.next_eq_none_iff.mp hnone))
    obtain ⟨⟨w, rest⟩, hsome⟩ := Option.ne_none_iff_exists'.mp hnext
    -- each of the rounds was paid, and the window that is owed costs one more
    have hlength := length_answered_rounds relay hnext
    have hc := hcost n
    have := hone w
    rw [cost, (Splitter.next_eq_some hsome).1, List.cons_append, List.map_cons, List.sum_cons]
      at hc
    omega

/-- **The loop ends, whatever the relay answers. At most `2 * range.width + 1` windows are taken,
and where every full reply has a stamp, be it any, at most `2 * (range.width / floor) + 1`.** -/
theorem rounds_end (range : Window) (cap floor : Nat) (relay : Course → Window → Tally) :
    EndsWithin (rounds relay range cap floor) (2 * range.width + 1) ∧
    ((∀ k w, max 1 cap ≤ (relay k w).count → (relay k w).oldest ≠ none) →
      EndsWithin (rounds relay range cap floor) (2 * (range.width / max 1 floor) + 1) ∧
      EndsWithin (rounds relay range cap floor) (2 * (range.width / max 1 floor + 1))) := by
  constructor
  · exact endsWithin_of_pays relay Window.potential (fun _ => Nat.succ_pos _)
      fun n a ha => pays_potential (reached_rounds relay range cap floor n).1 ha
  · intro hstamped
    have hends : EndsWithin (rounds relay range cap floor) (range.price (max 1 floor)) := by
      refine endsWithin_of_pays relay _ (fun _ => Nat.succ_pos _) fun n a ha => ?_
      obtain ⟨hr, -, hreplies⟩ := reached_rounds relay range cap floor n
      obtain ⟨k, hc, ho⟩ := hreplies a ha
      refine pays_price hr ha ?_
      rw [hc, ho]
      exact hstamped k a.window
    exact ⟨hends, hends.mono (by rw [Window.price]; omega)⟩

/-- A relay that answers every window with a full reply at its upper end takes all the rounds. -/
theorem rounds_end_sharp :
    let relay : Course → Window → Tally := fun _ w => { count := 10, oldest := some (w.upto + 7) }
    EndsWithin (rounds relay ⟨0, 100⟩ 10 30) 7 ∧ (rounds relay ⟨0, 100⟩ 10 30 7).taken = 7 := by
  intro relay
  have hends := ((rounds_end ⟨0, 100⟩ 10 30 relay).2 fun _ _ _ => Option.some_ne_none _).1
  exact ⟨hends, by decide +kernel⟩

end Course

end Harvest
