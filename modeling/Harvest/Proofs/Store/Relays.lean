import Harvest.Proofs.Record.Reading
import Harvest.Proofs.Store.Table
import Harvest.Store.Relays

/-! The directory of relays after any changes. It holds of each address the relay that was saved last,
enabled as was set last after that, and lists all of them in the order of the bytes of their
addresses. -/

namespace Harvest

namespace RelayStore

inductive Change
  | save (r : Relay)
  | setEnabled (id : RelayId) (on : Bool)

/-- Makes a change. One that fails leaves the directory as it is. -/
def apply (s : RelayStore) : Change → RelayStore × Except Failure Unit
  | .save r => (s.save r, .ok ())
  | .setEnabled id on =>
    match s.setEnabled id on with
    | .ok s' => (s', .ok ())
    | .error fault => (s, .error fault)

def applyAll (s : RelayStore) (changes : List Change) : RelayStore :=
  changes.foldl (fun s change => (s.apply change).1) s

/-- What an address is set to, if the change sets this address. -/
def Change.flag? (id : RelayId) : Change → Option Bool
  | save _ => none
  | setEnabled i on => if i = id then some on else none

/-- What an address is set to, one change after the other. -/
def flags (id : RelayId) (changes : List Change) : List Bool := changes.filterMap (Change.flag? id)

/-- The relay at an address after a change, from the one before it. -/
def Change.after (id : RelayId) (held : Option Relay) : Change → Option Relay
  | save r => if r.id = id then some r else held
  | setEnabled i on => if i = id then held.map (·.setEnabled on) else held

/-! ## What was saved last -/

variable {id : RelayId} {changes : List Change}

/-- Where an address is not saved again, only its flag changes, to what was set last. -/
theorem after_unsaved (h : ∀ r, .save r ∈ changes → r.id ≠ id) (held : Option Relay) :
    changes.foldl (Change.after id) held =
      held.map fun r => r.setEnabled ((flags id changes).getLast?.getD r.isEnabled) := by
  induction changes generalizing held with
  | nil =>
    cases held <;> rfl
  | cons change rest ih =>
    have hrest : ∀ r, .save r ∈ rest → r.id ≠ id := fun r hr => h r (List.mem_cons_of_mem _ hr)
    rw [List.foldl_cons, ih hrest]
    cases change with
    | save r =>
      have hne : r.id ≠ id := h r (List.mem_cons_self ..)
      simp [Change.after, flags, Change.flag?, hne]
    | setEnabled i on =>
      by_cases hi : i = id
      · subst hi
        have hflags : flags i (.setEnabled i on :: rest) = on :: flags i rest := by
          simp [flags, Change.flag?]
        rw [Change.after, if_pos rfl, hflags, List.getLast?_cons]
        cases held <;> rfl
      · simp [Change.after, flags, Change.flag?, hi]

/-! ## A directory and what it holds -/

/-- A directory that holds these relays, each under its own address. -/
structure Keeps (s : RelayStore) (held : RelayId → Option Relay) : Prop where
  sorted : s.records.Sorted
  record : ∀ id, s.records.get? id = (held id).map Record.putRelay
  own : ∀ id r, held id = some r → r.id = id
  fits : ∀ id r, held id = some r → (Record.putRelay r).length < UInt64.size

variable {s : RelayStore} {held : RelayId → Option Relay}

theorem keeps_empty : ({} : RelayStore).Keeps fun _ => none where
  sorted := Table.sorted_empty
  record _ := rfl
  own _ _ h := by cases h
  fits _ _ h := by cases h

theorem decode_putRelay {r : Relay} (h : (Record.putRelay r).length < UInt64.size) :
    decode (Record.putRelay r) = .ok r := by
  rw [decode, Record.read_putRelay h]

theorem Keeps.load (h : s.Keeps held) (id : RelayId) : s.load id = .ok (held id) := by
  rw [RelayStore.load, h.record]
  cases hr : held id with
  | none => rfl
  | some r =>
    rw [Option.map_some]
    dsimp only
    rw [decode_putRelay (h.fits id r hr)]
    rfl

theorem Keeps.save (h : s.Keeps held) {r : Relay} (hr : (Record.putRelay r).length < UInt64.size) :
    (s.save r).Keeps fun id => if r.id = id then some r else held id where
  sorted := h.sorted.set ..
  record id := by
    rw [RelayStore.save, Table.get?_set, h.record]
    by_cases hid : r.id = id
    · simp [hid]
    · simp [hid, Ne.symm hid]
  own id q hq := by
    split at hq
    · rename_i hid
      exact Option.some.inj hq ▸ hid
    · exact h.own id q hq
  fits id q hq := by
    split at hq
    · exact Option.some.inj hq ▸ hr
    · exact h.fits id q hq

theorem Keeps.setEnabled_of_none (h : s.Keeps held) (hid : held id = none) (on : Bool) :
    s.setEnabled id on = .error (.relayNotFound id) := by
  rw [RelayStore.setEnabled, h.load, hid]

theorem Keeps.setEnabled_of_some (h : s.Keeps held) {r : Relay} (hid : held id = some r) (on : Bool) :
    s.setEnabled id on = .ok (s.save (r.setEnabled on)) ∧
      (s.save (r.setEnabled on)).Keeps fun i => if id = i then some (r.setEnabled on) else held i := by
  have hfits : (Record.putRelay (r.setEnabled on)).length < UInt64.size := by
    rw [Record.length_putRelay_setEnabled]
    exact h.fits id r hid
  have hown : (r.setEnabled on).id = id := h.own id r hid
  have hkeeps := h.save hfits
  rw [hown] at hkeeps
  refine ⟨?_, hkeeps⟩
  rw [RelayStore.setEnabled, h.load, hid]

theorem Keeps.apply (h : s.Keeps held) {change : Change}
    (hsize : ∀ r, change = .save r → (Record.putRelay r).length < UInt64.size) :
    (s.apply change).1.Keeps fun id => change.after id (held id) := by
  cases change with
  | save r => exact h.save (hsize r rfl)
  | setEnabled id on =>
    rw [RelayStore.apply]
    cases hid : held id with
    | none =>
      have hsame : held = fun i => (Change.setEnabled id on).after i (held i) := by
        funext i
        by_cases hi : id = i
        · subst hi
          simp [Change.after, hid]
        · simp [Change.after, hi]
      rw [h.setEnabled_of_none hid, ← hsame]
      exact h
    | some r =>
      obtain ⟨hset, hkeeps⟩ := h.setEnabled_of_some hid on
      have hsame : (fun i => if id = i then some (r.setEnabled on) else held i) =
          fun i => (Change.setEnabled id on).after i (held i) := by
        funext i
        by_cases hi : id = i
        · subst hi
          simp [Change.after, hid]
        · simp [Change.after, hi]
      rw [hset, ← hsame]
      exact hkeeps

theorem Keeps.applyAll (h : s.Keeps held)
    (hsize : ∀ r, .save r ∈ changes → (Record.putRelay r).length < UInt64.size) :
    (s.applyAll changes).Keeps fun id => changes.foldl (Change.after id) (held id) := by
  induction changes generalizing s held with
  | nil => exact h
  | cons change rest ih =>
    exact ih (h.apply fun r hr => hsize r (hr ▸ List.mem_cons_self ..))
      fun r hr => hsize r (List.mem_cons_of_mem _ hr)

/-- All relays that are held, by the order of their addresses. -/
theorem Keeps.list (h : s.Keeps held) :
    ∃ rs, s.list = .ok rs ∧ (rs.Pairwise fun a b => Text.bytes a.id < Text.bytes b.id) ∧
      ∀ r, r ∈ rs ↔ held r.id = some r := by
  have hentry : ∀ entry ∈ s.records.entries, ∃ r, held entry.1 = some r ∧
      entry.2 = Record.putRelay r := by
    rintro ⟨id, bytes⟩ hm
    have hfound := h.sorted.get?_of_mem hm
    rw [h.record] at hfound
    obtain ⟨r, hr, hbytes⟩ := Option.map_eq_some_iff.mp hfound
    exact ⟨r, hr, hbytes.symm⟩
  refine ⟨s.records.entries.map fun entry => (held entry.1).getD default, ?_, ?_, fun r => ?_⟩
  · rw [RelayStore.list, Table.values, List.mapM_map]
    refine mapM_eq_ok fun entry hm => ?_
    obtain ⟨r, hr, hbytes⟩ := hentry entry hm
    show decode entry.2 = _
    rw [hbytes, decode_putRelay (h.fits _ r hr), hr]
    rfl
  · refine List.pairwise_map.mpr (h.sorted.imp_of_mem fun {a b} ha hb hlt => ?_)
    obtain ⟨q, hq, -⟩ := hentry a ha
    obtain ⟨r, hr, -⟩ := hentry b hb
    rw [hq, hr, Option.getD_some, Option.getD_some, h.own _ q hq, h.own _ r hr]
    exact Text.bytes_lt (Text.lt_of_compare hlt)
  · constructor
    · intro hm
      obtain ⟨entry, hentry', rfl⟩ := List.mem_map.mp hm
      obtain ⟨q, hq, -⟩ := hentry entry hentry'
      rw [hq, Option.getD_some, h.own _ q hq, hq]
    · intro hr
      have hkey : r.id ∈ s.records.keys := by
        rw [Table.mem_keys, h.record, hr]
        rfl
      obtain ⟨entry, hm, hid⟩ := List.mem_map.mp hkey
      exact List.mem_map.mpr ⟨entry, hm, by rw [hid, hr, Option.getD_some]⟩

/-! ## After any changes -/

/-- What a directory answers after some changes. -/
structure Mirrors (s : RelayStore) (changes : List Change) : Prop where
  /-- The relay that was saved last, enabled as was set last after that. -/
  last : ∀ before r after, changes = before ++ .save r :: after →
    (∀ q, .save q ∈ after → q.id ≠ r.id) →
    s.load r.id = .ok (some (r.setEnabled ((flags r.id after).getLast?.getD r.isEnabled)))
  unsaved : ∀ id, (∀ r, .save r ∈ changes → r.id ≠ id) → s.load id = .ok none
  /-- The bytes under an address are the record of the relay that is found there. -/
  record : ∀ id bytes, s.records.get? id = some bytes →
    ∃ r, s.load id = .ok (some r) ∧ r.id = id ∧ bytes = Record.putRelay r
  listed : ∃ rs, s.list = .ok rs ∧
    (rs.Pairwise fun a b => Text.bytes a.id < Text.bytes b.id) ∧
    (∀ r, r ∈ rs ↔ s.load r.id = .ok (some r)) ∧
    s.listEligible = .ok (rs.filter Relay.isEnabled)
  /-- To set a flag rewrites one record, and in that record the flag. -/
  known : ∀ id r, s.load id = .ok (some r) → ∀ on, ∃ s', s.setEnabled id on = .ok s' ∧
    s'.load id = .ok (some { r with overrides := { r.overrides with enabled := on } }) ∧
    ∀ other, other ≠ id → s'.records.get? other = s.records.get? other ∧ s'.load other = s.load other
  unknown : ∀ id, s.load id = .ok none → ∀ on,
    s.setEnabled id on = .error (.relayNotFound id) ∧
      s.apply (.setEnabled id on) = (s, .error (.relayNotFound id))

theorem Keeps.last (h : s.Keeps held) {before after : List Change} {r : Relay}
    (hheld : held r.id = (before ++ .save r :: after).foldl (Change.after r.id) none)
    (hafter : ∀ q, .save q ∈ after → q.id ≠ r.id) :
    s.load r.id = .ok (some (r.setEnabled ((flags r.id after).getLast?.getD r.isEnabled))) := by
  have hsaved : (Change.save r).after r.id (before.foldl (Change.after r.id) none) = some r :=
    if_pos rfl
  rw [h.load, hheld, List.foldl_append, List.foldl_cons, hsaved, after_unsaved hafter]
  rfl

theorem Keeps.listed (h : s.Keeps held) :
    ∃ rs, s.list = .ok rs ∧ (rs.Pairwise fun a b => Text.bytes a.id < Text.bytes b.id) ∧
      (∀ r, r ∈ rs ↔ s.load r.id = .ok (some r)) ∧
      s.listEligible = .ok (rs.filter Relay.isEnabled) := by
  obtain ⟨rs, hlist, horder, hmem⟩ := h.list
  refine ⟨rs, hlist, horder, fun r => ?_, ?_⟩
  · rw [hmem, h.load, Except.ok.injEq]
  · rw [listEligible, hlist]

theorem Keeps.setEnabled (h : s.Keeps held) {id : RelayId} {r : Relay} (hid : held id = some r)
    (on : Bool) :
    ∃ s', s.setEnabled id on = .ok s' ∧
      s'.load id = .ok (some { r with overrides := { r.overrides with enabled := on } }) ∧
      ∀ other, other ≠ id →
        s'.records.get? other = s.records.get? other ∧ s'.load other = s.load other := by
  obtain ⟨hset, hkeeps⟩ := h.setEnabled_of_some hid on
  refine ⟨_, hset, ?_, fun other hother => ⟨?_, ?_⟩⟩
  · rw [hkeeps.load, if_pos rfl]
    rfl
  · rw [hkeeps.record, if_neg hother.symm, h.record]
  · rw [hkeeps.load, if_neg hother.symm, h.load]

/-- Whatever is saved and set, with any number at its limits, the directory mirrors it, and the
records of relays and of events are read back as they were written. A record is longer than a number
of 64 bits can say only where a text in it is. -/
theorem applyAll_mirrors (changes : List Change)
    (hsize : ∀ r, .save r ∈ changes → (Record.putRelay r).length < UInt64.size) :
    Mirrors (applyAll {} changes) changes ∧
    (∀ r, (Record.putRelay r).length < UInt64.size →
      Record.read Record.getRelay (Record.putRelay r) = .ok r) ∧
    ∀ e, (Record.putStoredEvent e).length < UInt64.size →
      Record.read Record.getStoredEvent (Record.putStoredEvent e) = .ok e := by
  have h := keeps_empty.applyAll hsize
  refine ⟨⟨?_, fun id hid => ?_, fun id bytes hbytes => ?_, h.listed, fun id r hr on => ?_,
    fun id hid on => ?_⟩, fun r => Record.read_putRelay, fun e => Record.read_putStoredEvent⟩
  · rintro before r after rfl hafter
    exact h.last rfl hafter
  · rw [h.load, after_unsaved hid]
    rfl
  · rw [h.record, Option.map_eq_some_iff] at hbytes
    obtain ⟨r, hr, rfl⟩ := hbytes
    exact ⟨r, by rw [h.load, hr], h.own id r hr, rfl⟩
  · rw [h.load, Except.ok.injEq] at hr
    exact h.setEnabled hr on
  · rw [h.load, Except.ok.injEq] at hid
    have hfails := h.setEnabled_of_none hid on
    exact ⟨hfails, by rw [apply, hfails]⟩

/-- A relay with every setting at its limit is disabled, one nobody saved is enabled in vain, and one
that was disabled is saved again. -/
theorem applyAll_mirrors_limits :
    let top : Option UInt64 := some 18446744073709551615
    let far : Relay := { id := "b:1", route := .proxied, overrides := ⟨top, top, top, top, true⟩ }
    let near : Relay := { id := "a:1" }
    let changes : List Change :=
      [.save far, .save near, .setEnabled "a:1" false, .setEnabled "c:1" true, .save near,
        .setEnabled "b:1" true, .setEnabled "b:1" false]
    let s := applyAll {} changes
    (∀ r, .save r ∈ changes → (Record.putRelay r).length < UInt64.size) ∧
      s.load "b:1" = .ok (some (far.setEnabled false)) ∧ s.load "a:1" = .ok (some near) ∧
      s.load "c:1" = .ok none ∧ s.list = .ok [near, far.setEnabled false] ∧
      s.listEligible = .ok [near] := by
  intro top far near changes s
  have hsize : ∀ r, .save r ∈ changes → (Record.putRelay r).length < UInt64.size := by
    intro r hr
    have hsaved : r = far ∨ r = near := by simpa [changes, or_comm] using hr
    rcases hsaved with rfl | rfl
    · decide +kernel
    · decide +kernel
  obtain ⟨hmirrors, -⟩ := applyAll_mirrors changes hsize
  obtain ⟨rs, hlist, -, -, heligible⟩ := hmirrors.listed
  have hrs : rs = [near, far.setEnabled false] := by
    have hread : s.list.toOption = some [near, far.setEnabled false] := by decide +kernel
    rw [hlist] at hread
    exact Option.some.inj hread
  refine ⟨hsize, ?_, ?_, ?_, ?_, ?_⟩
  · exact hmirrors.last [] far _ rfl (by simp [far, near])
  · exact hmirrors.last [.save far, .save near, _, _] near _ rfl (by simp)
  · exact hmirrors.unsaved "c:1" (by simp [changes, far, near])
  · rw [hlist, hrs]
  · rw [heligible, hrs]
    rfl

end RelayStore

end Harvest
