import Harvest.Proofs.Event.Reading
import Harvest.Proofs.Window.Course
import Harvest.Session

/-! How a session looks at the items of a reply: one after the other until a batch is full, and
after the last one it tells the splitter. Main statement: either all items were looked at, or a
batch was filled by a front part of them, and either way the session has taken in just the events
of that part. -/

namespace Harvest

/-- The events among some items, in their order. -/
def Event.among (items : List Json) : List Event :=
  items.filterMap fun item => (Event.parse item).toOption

namespace Event

theorem mem_among {items : List Json} {e : Event} :
    e ∈ among items ↔ ∃ item ∈ items, parse item = .ok e := by
  simp only [among, List.mem_filterMap]
  refine exists_congr fun item => and_congr_right fun _ => ?_
  cases parse item <;> simp [Except.toOption]

theorem mem_among_of_toJson {items : List Json} {e : Event} (hv : e.validate = .ok ())
    (h : e.toJson ∈ items) : e ∈ among items :=
  mem_among.mpr ⟨_, h, parse_toJson_of_valid hv⟩

theorem among_cons_ok {item : Json} {e : Event} (h : parse item = .ok e) (rest : List Json) :
    among (item :: rest) = e :: among rest := by
  rw [among, List.filterMap_cons, h]; rfl

theorem among_cons_error {item : Json} {fault : ItemFault} (h : parse item = .error fault)
    (rest : List Json) : among (item :: rest) = among rest := by
  rw [among, List.filterMap_cons, h]; rfl

theorem among_append (front rest : List Json) :
    among (front ++ rest) = among front ++ among rest := List.filterMap_append ..

end Event

namespace Session

/-- The session after it has looked at some items. -/
def look (s : Session) (items : List Json) : Session :=
  { s with
    pending := s.pending ++ Event.among items
    stats := { s.stats with
      malformed := s.stats.malformed + (items.length - (Event.among items).length) } }

/-- The oldest stamp in the window, after some more items of its reply were looked at. -/
def oldestAfter (w : Window) (oldest : Option Nat) (items : List Json) : Option Nat :=
  (Event.among items).foldl (older w) oldest

theorem oldestAfter_append (w : Window) (oldest : Option Nat) (front rest : List Json) :
    oldestAfter w oldest (front ++ rest) = oldestAfter w (oldestAfter w oldest front) rest := by
  rw [oldestAfter, Event.among, List.filterMap_append, List.foldl_append]
  rfl

/-- The oldest stamp is that of an event in the window. -/
theorem exists_of_foldl_older {w : Window} {events : List Event} {oldest : Option Nat} {o : Nat}
    (h : events.foldl (older w) oldest = some o) :
    oldest = some o ∨ ∃ e ∈ events, e.stamp ∈ w ∧ e.stamp = o := by
  induction events generalizing oldest with
  | nil => exact .inl h
  | cons e rest ih =>
    rcases ih h with ho | ⟨f, hf, hw, he⟩
    · rw [older] at ho
      split at ho
      · rename_i hw
        have hw := Window.contains_iff.mp hw
        have ho := Option.some.inj ho
        cases oldest with
        | none => exact .inr ⟨e, List.mem_cons_self .., hw, ho⟩
        | some p =>
          simp only [Option.map_some, Option.getD_some] at ho
          by_cases hp : p = o
          · exact .inl (hp ▸ rfl)
          · exact .inr ⟨e, List.mem_cons_self .., hw, by omega⟩
      · exact .inl ho
    · exact .inr ⟨f, List.mem_cons_of_mem _ hf, hw, he⟩

theorem exists_of_oldestAfter {w : Window} {items : List Json} {o : Nat}
    (h : oldestAfter w none items = some o) :
    ∃ item ∈ items, ∃ e, Event.parse item = .ok e ∧ e.stamp ∈ w ∧ e.stamp = o := by
  rcases exists_of_foldl_older h with h | ⟨e, he, hw, ho⟩
  · cases h
  · obtain ⟨item, hi, hp⟩ := Event.mem_among.mp he
    exact ⟨item, hi, e, hp, hw, ho⟩

/-- The session after the splitter was told of a reply. -/
def resolve (s : Session) (w : Window) (received : Nat) (oldest : Option Nat) : Session :=
  let splitter := (s.splitter.resolve w received oldest).2
  { s with splitter, stats := { s.stats with resolved := splitter.resolved } }

variable (w : Window) (received : Nat) (shutdown : Bool) (now : Nat) (world : World)

theorem look_nil (s : Session) : s.look [] = s := by
  simp [look, Event.among]

theorem length_among_le (items : List Json) : (Event.among items).length ≤ items.length :=
  List.length_filterMap_le _ _

theorem look_cons_error (s : Session) {item : Json} {fault : ItemFault}
    (h : Event.parse item = .error fault) (rest : List Json) :
    ({ s with stats := { s.stats with malformed := s.stats.malformed + 1 } } : Session).look rest =
      s.look (item :: rest) := by
  have := length_among_le rest
  simp only [look, Event.among_cons_error h, List.length_cons]
  congr 2
  omega

theorem look_cons_ok (s : Session) {item : Json} {e : Event}
    (h : Event.parse item = .ok e) (rest : List Json) :
    ({ s with pending := s.pending ++ [e] } : Session).look rest = s.look (item :: rest) := by
  simp only [look, Event.among_cons_ok h, List.length_cons, List.append_assoc, List.cons_append,
    List.nil_append, Nat.add_sub_add_right]

/-- All items are looked at, or a front part of them fills a batch. Where there was room for an
event before, there still is at the end, and a batch is filled just to its size. -/
theorem absorb_fills (s : Session) (oldest : Option Nat) (items : List Json) :
    (s.absorb w received oldest shutdown now world items =
        ((s.look items).resolve w received (oldestAfter w oldest items)).advance shutdown now
          world ∧
      (s.pending.length < s.settings.batchSize →
        (s.look items).pending.length < s.settings.batchSize)) ∨
    ∃ front rest, items = front ++ rest ∧
      s.absorb w received oldest shutdown now world items =
        (s.look front).flush (.reply w received (oldestAfter w oldest front) rest) now world ∧
      (s.pending.length < s.settings.batchSize →
        (s.look front).pending.length = s.settings.batchSize) := by
  induction items generalizing s oldest with
  | nil =>
    left
    rw [look_nil]
    exact ⟨rfl, id⟩
  | cons item rest ih =>
    unfold absorb
    split
    · rename_i fault hp
      have ho (items : List Json) :
          oldestAfter w oldest (item :: items) = oldestAfter w oldest items := by
        rw [oldestAfter, Event.among_cons_error hp, oldestAfter]
      rcases ih { s with stats := { s.stats with malformed := s.stats.malformed + 1 } } oldest with
        ⟨h, hroom⟩ | ⟨front, back, rfl, h, hfull⟩
      · left
        rw [look_cons_error s hp] at h hroom
        exact ⟨by rw [h, ho], hroom⟩
      · right
        rw [look_cons_error s hp] at h hfull
        exact ⟨item :: front, back, rfl, by rw [h, ho], hfull⟩
    · rename_i e hp
      have ho (items : List Json) :
          oldestAfter w oldest (item :: items) = oldestAfter w (older w oldest e) items := by
        rw [oldestAfter, Event.among_cons_ok hp, List.foldl_cons, oldestAfter]
      have hlength : (s.pending ++ [e]).length = s.pending.length + 1 := List.length_append
      dsimp only
      split
      · rename_i hle
        right
        refine ⟨[item], rest, rfl, ?_, ?_⟩
        · rw [ho, ← look_cons_ok s hp, look_nil]
          rfl
        · rw [← look_cons_ok s hp, look_nil]
          simp only [settings] at hle ⊢
          omega
      · rename_i hlt
        have hroom' : s.pending.length < s.settings.batchSize →
            (s.pending ++ [e]).length < s.settings.batchSize := fun _ => Nat.lt_of_not_le hlt
        rcases ih { s with pending := s.pending ++ [e] } (older w oldest e) with
          ⟨h, hroom⟩ | ⟨front, back, rfl, h, hfull⟩
        · left
          rw [look_cons_ok s hp] at h hroom
          exact ⟨by rw [h, ho], fun hr => hroom (hroom' hr)⟩
        · right
          rw [look_cons_ok s hp] at h hfull
          exact ⟨item :: front, back, rfl, by rw [h, ho], fun hr => hfull (hroom' hr)⟩

theorem absorb_cases (s : Session) (oldest : Option Nat) (items : List Json) :
    s.absorb w received oldest shutdown now world items =
      ((s.look items).resolve w received (oldestAfter w oldest items)).advance shutdown now world ∨
    ∃ front rest, items = front ++ rest ∧
      s.absorb w received oldest shutdown now world items =
        (s.look front).flush (.reply w received (oldestAfter w oldest front) rest) now world := by
  rcases absorb_fills w received shutdown now world s oldest items with
    ⟨h, -⟩ | ⟨front, rest, hitems, h, -⟩
  · exact .inl h
  · exact .inr ⟨front, rest, hitems, h⟩

end Session

end Harvest
