import Harvest.Dispatch

/-! Dealing keeps every item: each is dealt to one worker, and the workers that are left out would
have got nothing. It is even, and it comes to the same as to hand out one item after the other and to
drop the hands that are empty then. -/

namespace Harvest.Shard

variable {α : Type}

theorem every_cons (step i place : Nat) (a : α) (rest : List α) :
    every step i place (a :: rest) =
      (if place % step = i then [a] else []) ++ every step i (place + 1) rest := by
  rw [every]
  split <;> rfl

/-- A worker whose turn does not come gets nothing. -/
theorem every_eq_nil {step i place : Nat} {items : List α}
    (h : ∀ k < items.length, (place + k) % step ≠ i) : every step i place items = [] := by
  induction items generalizing place with
  | nil => rfl
  | cons a rest ih =>
    have h0 : place % step ≠ i := h 0 (Nat.zero_lt_succ _)
    rw [every_cons, if_neg h0, List.nil_append]
    refine ih fun k hk => ?_
    rw [Nat.add_assoc, Nat.add_comm 1 k]
    exact h (k + 1) (Nat.succ_lt_succ hk)

/-- There are not enough items for a worker whose number is too high. -/
theorem every_of_length_le {step i : Nat} {items : List α} (hi : i < step)
    (h : items.length ≤ i) : every step i 0 items = [] := by
  refine every_eq_nil fun k hk => ?_
  rw [Nat.zero_add, Nat.mod_eq_of_lt (by omega)]
  omega

/-- A worker whose turn comes gets something. -/
theorem every_ne_nil {step i k place : Nat} {items : List α} (hk : k < items.length)
    (h : (place + k) % step = i) : every step i place items ≠ [] := by
  induction items generalizing k place with
  | nil => cases hk
  | cons a rest ih =>
    rw [every_cons]
    cases k with
    | zero =>
      have hturn : place % step = i := h
      rw [if_pos hturn]
      exact List.cons_ne_nil _ _
    | succ k =>
      refine fun he => ih (Nat.lt_of_succ_lt_succ hk) ?_ (List.append_eq_nil_iff.mp he).2
      rw [Nat.add_assoc, Nat.add_comm 1 k]
      exact h

/-- No worker that is given a shard is given an empty one. -/
theorem ne_nil_of_mem_deal {workers : Nat} {items shard : List α}
    (h : shard ∈ deal workers items) : shard ≠ [] := by
  simp only [deal, List.mem_map, List.mem_range] at h
  obtain ⟨i, hi, rfl⟩ := h
  refine every_ne_nil (k := i) (by omega) ?_
  rw [Nat.zero_add]
  exact Nat.mod_eq_of_lt (by omega)

/-- Where one index brings one more item in front, so does the list of all indices. -/
theorem flatMap_cons_at {indices : List Nat} (hn : indices.Nodup) {j : Nat} (hj : j ∈ indices)
    (a : α) (f : Nat → List α) :
    (indices.flatMap fun i => (if j = i then [a] else []) ++ f i).Perm
      (a :: indices.flatMap f) := by
  have hsame {others : List Nat} (h : j ∉ others) :
      (others.flatMap fun i => (if j = i then [a] else []) ++ f i) = others.flatMap f := by
    rw [List.flatMap_def, List.flatMap_def]
    refine congrArg List.flatten (List.map_congr_left fun i hi => ?_)
    have hne : j ≠ i := fun he => h (he ▸ hi)
    rw [if_neg hne, List.nil_append]
  obtain ⟨front, back, rfl⟩ := List.append_of_mem hj
  obtain ⟨-, hback, hdisjoint⟩ := List.nodup_append.mp hn
  have hfront : j ∉ front := fun hm => hdisjoint j hm j (List.mem_cons_self ..) rfl
  rw [List.flatMap_append, List.flatMap_cons, List.flatMap_append, List.flatMap_cons,
    hsame hfront, hsame (List.nodup_cons.mp hback).1, if_pos rfl, List.append_assoc]
  exact List.perm_middle

theorem flatMap_every_perm {step : Nat} (hs : 0 < step) (place : Nat) (items : List α) :
    ((List.range step).flatMap fun i => every step i place items).Perm items := by
  induction items generalizing place with
  | nil => simp [every]
  | cons a rest ih =>
    have hturn : place % step ∈ List.range step := List.mem_range.mpr (Nat.mod_lt place hs)
    simp only [every_cons]
    exact (flatMap_cons_at List.nodup_range hturn a _).trans ((ih (place + 1)).cons a)

/-- **Every item is dealt out once.** -/
theorem deal_perm (workers : Nat) (items : List α) : (deal workers items).flatten.Perm items := by
  simp only [deal]
  generalize hw : max 1 workers = step
  have hs : 0 < step := by omega
  rw [← List.flatMap_def]
  rcases Nat.le_total step items.length with h | h
  · rw [Nat.min_eq_left h]
    exact flatMap_every_perm hs 0 items
  · -- the workers that are left out have an empty shard
    obtain ⟨more, rfl⟩ := Nat.exists_eq_add_of_le h
    have hall := flatMap_every_perm hs 0 items
    rw [List.range_add, List.flatMap_append] at hall
    have hempty : ((List.range more).map (items.length + ·)).flatMap
        (fun i => every (items.length + more) i 0 items) = [] := by
      refine List.flatMap_eq_nil_iff.mpr fun i hi => ?_
      obtain ⟨k, hk, rfl⟩ := List.mem_map.mp hi
      have hlate : items.length + k < items.length + more :=
        Nat.add_lt_add_left (List.mem_range.mp hk) _
      exact every_of_length_le hlate (Nat.le_add_right ..)
    rw [hempty, List.append_nil] at hall
    rw [Nat.min_eq_right h]
    exact hall

/-! ## What each worker gets -/

/-- After the first `skip` items every item at a distance of `step` is dealt to a worker. -/
theorem getElem?_every {step i place skip : Nat} (hskip : skip < step)
    (h : (place + skip) % step = i) (items : List α) (j : Nat) :
    (every step i place items)[j]? = items[j * step + skip]? := by
  induction items generalizing place skip j with
  | nil => rfl
  | cons a rest ih =>
    rw [every_cons]
    cases skip with
    | zero =>
      have hturn : place % step = i := h
      rw [if_pos hturn, List.singleton_append]
      cases j with
      | zero => rw [Nat.zero_mul, List.getElem?_cons_zero, List.getElem?_cons_zero]
      | succ j =>
        -- the next turn comes after all others had theirs
        have hnext : (place + 1 + (step - 1)) % step = i := by
          rw [Nat.add_assoc, Nat.add_sub_cancel' hskip, Nat.add_mod_right, hturn]
        have hlater : (j + 1) * step + 0 = j * step + (step - 1) + 1 := by
          rw [Nat.add_mul]
          omega
        rw [List.getElem?_cons_succ, ih (by omega) hnext, hlater, List.getElem?_cons_succ]
    | succ skip =>
      have hwait : place % step ≠ i := by
        intro hturn
        have hzero := Nat.sub_mod_eq_zero_of_mod_eq (h.trans hturn.symm)
        rw [Nat.add_sub_cancel_left, Nat.mod_eq_of_lt hskip] at hzero
        cases hzero
      have hsoon : (place + 1 + skip) % step = i := by
        rw [Nat.add_assoc, Nat.add_comm 1 skip]
        exact h
      rw [if_neg hwait, List.nil_append, ih (by omega) hsoon]
      rfl

theorem every_sublist (step i place : Nat) (items : List α) :
    (every step i place items).Sublist items := by
  induction items generalizing place with
  | nil => exact .slnil
  | cons a rest ih =>
    rw [every]
    split
    · exact (ih (place + 1)).cons_cons a
    · exact (ih (place + 1)).cons a

/-! ## One item after the other -/

/-- Hands out items one after the other, each to the end of the hand whose turn it is. -/
def handOut (hands : List (List α)) (place : Nat) : List α → List (List α)
  | [] => hands
  | a :: rest => handOut (hands.modify (place % hands.length) (· ++ [a])) (place + 1) rest

theorem getElem?_handOut (hands : List (List α)) (place : Nat) (items : List α) (i : Nat) :
    (handOut hands place items)[i]? = hands[i]?.map (· ++ every hands.length i place items) := by
  induction items generalizing hands place with
  | nil => simp [handOut, every]
  | cons a rest ih =>
    rw [handOut, ih, List.length_modify, List.getElem?_modify, Option.map_eq_map, Option.map_map,
      every_cons]
    refine congrArg (Option.map · hands[i]?) (funext fun hand => ?_)
    by_cases hturn : place % hands.length = i
    · simp [hturn]
    · simp [hturn]

/-- The hands of all workers at the end. -/
theorem handOut_eq (workers : Nat) (items : List α) :
    handOut (List.replicate workers []) 0 items =
      (List.range workers).map fun i => every workers i 0 items := by
  refine List.ext_getElem? fun i => ?_
  rw [getElem?_handOut, List.getElem?_map, List.getElem?_replicate, List.length_replicate]
  by_cases hi : i < workers <;> simp [hi]

/-- Shards of the items for this many workers: each worker's items lie as far apart as there are
workers. -/
structure Balanced (workers : Nat) (items : List α) (shards : List (List α)) : Prop where
  length : shards.length = min workers items.length
  item : ∀ i shard, shards[i]? = some shard → ∀ j, shard[j]? = items[j * workers + i]?
  /-- The shard of an item and its place there. -/
  shard : ∀ p < items.length,
    (shards[p % workers]?.bind fun shard => shard[p / workers]?) = items[p]?
  /-- Each item is in one shard, as often as it is among the items. -/
  once : shards.flatten.Perm items
  ordered : ∀ shard ∈ shards, shard.Sublist items
  nonempty : ∀ shard ∈ shards, shard ≠ []
  even : ∀ a ∈ shards, ∀ b ∈ shards, a.length ≤ b.length + 1
  /-- The shards are the hands that are not empty after the items were handed out. -/
  handed : shards = (handOut (List.replicate workers []) 0 items).filter fun hand => !hand.isEmpty
  /-- The others come last, so the number of a shard is that of its worker. -/
  spare : handOut (List.replicate workers []) 0 items =
    shards ++ List.replicate (workers - shards.length) []

theorem length_deal (workers : Nat) (items : List α) :
    (deal workers items).length = min (max 1 workers) items.length := by
  simp [deal]

theorem lt_of_getElem?_deal {workers i : Nat} {items shard : List α}
    (h : (deal workers items)[i]? = some shard) : i < max 1 workers := by
  have hlt := (List.getElem?_eq_some_iff.mp h).1
  rw [length_deal] at hlt
  exact Nat.lt_of_lt_of_le hlt (Nat.min_le_left ..)

theorem getElem?_deal {workers i : Nat} {items shard : List α}
    (h : (deal workers items)[i]? = some shard) (j : Nat) :
    shard[j]? = items[j * max 1 workers + i]? := by
  have hi := lt_of_getElem?_deal h
  rw [deal, List.getElem?_map, Option.map_eq_some_iff] at h
  obtain ⟨k, hk, rfl⟩ := h
  obtain ⟨-, rfl⟩ := List.getElem?_eq_some_iff.mp hk
  rw [List.getElem_range]
  exact getElem?_every hi (by rw [Nat.zero_add, Nat.mod_eq_of_lt hi]) items j

/-- The hands that are left out are the last ones, and empty. -/
theorem handOut_eq_append (workers : Nat) (items : List α) :
    handOut (List.replicate (max 1 workers) []) 0 items =
      deal workers items ++ List.replicate (max 1 workers - (deal workers items).length) [] := by
  rw [handOut_eq, length_deal, deal]
  generalize max 1 workers = step
  obtain ⟨more, hmore⟩ := Nat.exists_eq_add_of_le (Nat.min_le_left step items.length)
  have hempty : ((List.range more).map (min step items.length + ·)).map
      (fun i => every step i 0 items) = List.replicate more [] := by
    refine List.eq_replicate_iff.mpr ⟨by simp, ?_⟩
    simp only [List.mem_map, List.mem_range]
    rintro _ ⟨_, ⟨k, hk, rfl⟩, rfl⟩
    exact every_of_length_le (by omega) (by omega)
  have hrest : step - min step items.length = more := by omega
  rw [hrest, ← hempty, ← List.map_append, ← List.range_add, ← hmore]

/-- Of two shards neither has two items more than the other. -/
theorem length_le_of_mem_deal {workers : Nat} {items a b : List α} (ha : a ∈ deal workers items)
    (hb : b ∈ deal workers items) : a.length ≤ b.length + 1 := by
  obtain ⟨i, hi⟩ := List.mem_iff_getElem?.mp ha
  obtain ⟨k, hk⟩ := List.mem_iff_getElem?.mp hb
  have hlt := lt_of_getElem?_deal hk
  -- what would be the next but one item of the longer shard lies beyond the end of the other
  have hend : items.length ≤ b.length * max 1 workers + k := by
    rw [← List.getElem?_eq_none_iff, ← getElem?_deal hk]
    exact List.getElem?_eq_none (Nat.le_refl _)
  rw [← List.getElem?_eq_none_iff, getElem?_deal hi, List.getElem?_eq_none_iff, Nat.add_mul]
  omega

/-- **The shards are even**, whatever is dealt to however many workers. -/
theorem deal_balanced (workers : Nat) (items : List α) :
    Balanced (max 1 workers) items (deal workers items) where
  length := length_deal workers items
  item _ _ h j := getElem?_deal h j
  shard p hp := by
    have hturn : p % max 1 workers < (deal workers items).length := by
      have hlt := Nat.mod_lt p (show 0 < max 1 workers by omega)
      have hle := Nat.mod_le p (max 1 workers)
      rw [length_deal]
      omega
    have hget := List.getElem?_eq_getElem hturn
    rw [hget, Option.bind_some, getElem?_deal hget, Nat.mul_comm, Nat.div_add_mod]
  once := deal_perm workers items
  ordered shard h := by
    simp only [deal, List.mem_map] at h
    obtain ⟨i, -, rfl⟩ := h
    exact every_sublist ..
  nonempty _ h := ne_nil_of_mem_deal h
  even _ ha _ hb := length_le_of_mem_deal ha hb
  handed := by
    have hkept : ∀ shard ∈ deal workers items, (!shard.isEmpty) = true := by
      intro shard h
      simpa using ne_nil_of_mem_deal h
    rw [handOut_eq_append, List.filter_append, List.filter_eq_self.mpr hkept]
    simp
  spare := handOut_eq_append workers items

example : deal 2 [10, 20, 30] = [[10, 30], [20]] := by decide

end Harvest.Shard
