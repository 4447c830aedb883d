import Harvest.Proofs.Json.Shape
import Harvest.Proofs.Json.Unambiguous
import Mathlib.Data.List.TakeDrop

/-! What is written of a JSON value is read back. A reader stops where the text of the value ends,
so a text goes on behind it as a list does, with a comma or a bracket. Numbers are integers here;
their digits tell them, and a number that was written as a double is another matter. -/

namespace Harvest.Json

/-! ## Digits -/

/-- What follows a number does not go on with it, nor with a fraction or an exponent of it. -/
def Stops (rest : List Char) : Prop :=
  ∀ c ∈ rest.head?, c.isDigit = false ∧ c ≠ '.' ∧ c ≠ 'e' ∧ c ≠ 'E'

theorem stops_nil : Stops [] := fun _ h => by cases h

theorem stops_cons {c : Char} (h : c ∈ [',', ']', '}']) (rest : List Char) : Stops (c :: rest) := by
  intro d hd
  obtain rfl := Option.some.inj hd
  revert h
  simp only [List.mem_cons, List.not_mem_nil, or_false]
  rintro (rfl | rfl | rfl) <;> decide

theorem stops_itemChars (vs : List Json) (rest : List Char) : Stops (itemChars vs ++ rest) := by
  cases vs <;> exact stops_cons (by decide) _

theorem stops_memberChars (ms : List (String × Json)) (rest : List Char) :
    Stops (memberChars ms ++ rest) := by
  cases ms <;> exact stops_cons (by decide) _

/-- Only zero is written with a zero in front. -/
theorem toDigits_zero {n : Nat} {rest : List Char} (h : Nat.toDigits 10 n = '0' :: rest) :
    rest = [] := by
  suffices hzero : n = 0 by
    subst hzero
    exact (List.cons.inj h).2.symm
  induction n using Nat.strongRecOn generalizing rest with
  | ind n ih =>
    by_cases hn : n < 10
    · rw [Nat.toDigits_of_lt_base hn] at h
      have hzero : ∀ m < 10, Nat.digitChar m = '0' → m = 0 := by decide
      exact hzero n hn (List.cons.inj h).1
    · -- the first digit is that of a tenth, which is not zero
      rw [Nat.toDigits_of_base_le (by decide) (by omega)] at h
      obtain ⟨c, ds, hd, -⟩ := exists_toDigits (n / 10)
      rw [hd] at h
      obtain ⟨rfl, -⟩ := List.cons.inj h
      have := ih (n / 10) (by omega) hd
      omega

theorem digitsValue_toDigits (n : Nat) : Literal.digitsValue (Nat.toDigits 10 n) = n := by
  have h : Literal.digitsValue (Nat.toDigits 10 n) = Nat.ofDigitChars 10 (Nat.toDigits 10 n) 0 := by
    simp only [Literal.digitsValue, Nat.ofDigitChars, digitValue, Nat.mul_comm]
  rw [h, Nat.ofDigitChars_ten_toDigits]

namespace Draft

theorem digits_append {ds rest : List Char} (hds : ∀ c ∈ ds, c.isDigit = true)
    (hrest : ∀ c ∈ rest.head?, c.isDigit = false) : digits (ds ++ rest) = (ds, rest) := by
  rw [digits, List.span_eq_takeWhile_dropWhile, List.takeWhile_append_of_pos hds,
    List.dropWhile_append_of_pos hds]
  cases rest with
  | nil => simp
  | cons c rest => simp [hrest c rfl]

theorem digits_toDigits (n : Nat) {rest : List Char} (h : ∀ c ∈ rest.head?, c.isDigit = false) :
    digits (Nat.toDigits 10 n ++ rest) = (Nat.toDigits 10 n, rest) :=
  digits_append (fun _ hc => Nat.isDigit_of_mem_toDigits (by decide) (by decide) hc) h

theorem fraction_stops {rest : List Char} (h : Stops rest) : fraction rest = some ([], rest) := by
  cases rest with
  | nil => rfl
  | cons c rest => simp [fraction, (h c rfl).2.1]

theorem exponent_stops {rest : List Char} (h : Stops rest) : exponent rest = some (none, rest) := by
  cases rest with
  | nil => rfl
  | cons c rest => simp [exponent, (h c rfl).2.2.1, (h c rfl).2.2.2]

end Draft

/-! ## Numbers -/

/-- An integer of 64 bits, with sign or without. Minus zero is a double: it is what the text `-0`
is read as. -/
def Number.Integral : Number → Prop
  | .int i => -0x8000000000000000 ≤ i ∧ i < 0x10000000000000000
  | .real bits => bits = 0x8000000000000000

instance : DecidablePred Number.Integral
  | .int _ => inferInstanceAs (Decidable (_ ∧ _))
  | .real _ => inferInstanceAs (Decidable (_ = _))

namespace Draft

/-- Digits are read as a number, behind a sign or without. -/
theorem literal_toDigits (negative : Bool) (n : Nat) {rest : List Char} (h : Stops rest) :
    literal ((if negative then ['-'] else []) ++ Nat.toDigits 10 n ++ rest) =
      some (⟨negative, Nat.toDigits 10 n, [], none⟩, rest) := by
  have hd := digits_toDigits n fun c hc => (h c hc).1
  obtain ⟨c, ds, hc, hdigit⟩ := exists_toDigits n
  have hsign : c ≠ '-' := by
    rintro rfl
    exact absurd hdigit (by decide)
  have hzero : c = '0' → ds = [] := by
    rintro rfl
    exact toDigits_zero hc
  rw [hc] at hd ⊢
  cases ds with
  | nil =>
    have hd : digits (c :: rest) = ([c], rest) := hd
    cases negative <;> simp [literal, hd, hsign, fraction_stops h, exponent_stops h]
  | cons e ds =>
    have hd : digits (c :: e :: (ds ++ rest)) = (c :: e :: ds, rest) := hd
    have hc0 : c ≠ '0' := fun h => by cases hzero h
    cases negative <;> simp [literal, hd, hsign, hc0, fraction_stops h, exponent_stops h]

end Draft

/-- The number that was read is the integer that was written. -/
theorem exists_literal_int {i : Int} (hi : (Number.int i).Integral) : ∃ l : Literal,
    (∀ rest, Stops rest → Draft.literal ((Number.int i).chars ++ rest) = some (l, rest)) ∧
      l.number? = some (.int i) := by
  obtain ⟨hlow, hhigh⟩ := hi
  refine ⟨⟨i < 0, Nat.toDigits 10 i.natAbs, [], none⟩, fun rest hrest => ?_, ?_⟩
  · rw [← Draft.literal_toDigits (i < 0) i.natAbs hrest]
    by_cases hneg : i < 0 <;> simp [Number.chars, hneg]
  · simp only [Literal.number?, digitsValue_toDigits]
    by_cases hneg : i < 0
    · have hfits : 0 < i.natAbs ∧ i.natAbs ≤ 0x8000000000000000 := by omega
      have habs : -(i.natAbs : Int) = i := by omega
      simp only [hneg, hfits, habs, decide_true, and_self, if_true]
    · have hfits : i.natAbs < UInt64.size := by
        have : UInt64.size = 0x10000000000000000 := rfl
        omega
      have habs : (i.natAbs : Int) = i := by omega
      simp only [hneg, hfits, habs, decide_false, Bool.false_eq_true, and_self, if_true, if_false]

theorem literal_minusZero {rest : List Char} (h : Stops rest) :
    Draft.literal (['-', '0', '.', '0'] ++ rest) =
      some (⟨true, ['0'], ['0'], none⟩, rest) := by
  have hd : Draft.digits ('0' :: rest) = (['0'], rest) :=
    Draft.digits_toDigits 0 fun c hc => (h c hc).1
  have hp : Draft.digits ('0' :: '.' :: '0' :: rest) = (['0'], '.' :: '0' :: rest) :=
    Draft.digits_toDigits 0 (by simp)
  simp [Draft.literal, Draft.fraction, hd, hp, Draft.exponent_stops h]

/-- A number is read back in front of what does not go on with it. -/
theorem exists_literal {n : Number} (h : n.Integral) : ∃ l : Literal,
    (∀ rest, Stops rest → Draft.literal (n.chars ++ rest) = some (l, rest)) ∧
      l.number? = some n := by
  cases n with
  | int i => exact exists_literal_int h
  | real bits =>
    obtain rfl : bits = 0x8000000000000000 := h
    have hchars : (Number.real 0x8000000000000000).chars = ['-', '0', '.', '0'] := by decide
    refine ⟨⟨true, ['0'], ['0'], none⟩, fun rest hrest => ?_, by decide +kernel⟩
    rw [hchars, literal_minusZero hrest]

/-! ## Values -/

/-- All numbers in the value are integers of 64 bits. -/
def Integral : Json → Prop := All fun v => ∀ n, v = .num n → n.Integral

theorem exists_digit {n : Number} (h : n.Integral) :
    ∃ c rest, n.chars = c :: rest ∧ Kind.of? c = some .num := by
  cases n with
  | int i => exact exists_chars (v := .num (.int i)) trivial
  | real bits =>
    obtain rfl : bits = 0x8000000000000000 := h
    exact ⟨'-', ['0', '.', '0'], by decide, rfl⟩

theorem exists_first {v : Json} (h : v.Integral) :
    ∃ c rest, v.chars = c :: rest ∧ (Kind.of? c).isSome = true := by
  cases v with
  | num n =>
    obtain ⟨c, rest, hc, hk⟩ := exists_digit (h n rfl)
    exact ⟨c, rest, hc, by rw [hk]; rfl⟩
  | null => exact ⟨'n', _, rfl, rfl⟩
  | bool b => cases b <;> exact ⟨_, _, rfl, rfl⟩
  | str s => exact ⟨'"', _, rfl, rfl⟩
  | arr items => cases items <;> exact ⟨'[', _, rfl, rfl⟩
  | obj members => cases members <;> exact ⟨'{', _, rfl, rfl⟩

namespace Draft

theorem skipBlanks_cons {c : Char} (h : isBlank c = false) (rest : List Char) :
    skipBlanks (c :: rest) = c :: rest := by
  simp [skipBlanks, h]

theorem isBlank_of_kind {c : Char} (h : (Kind.of? c).isSome = true) : isBlank c = false := by
  refine Bool.eq_false_iff.mpr fun hb => ?_
  simp only [isBlank, Bool.or_eq_true, decide_eq_true_eq] at hb
  rcases hb with ((rfl | rfl) | rfl) | rfl <;> exact absurd h (by decide)

theorem value_number {c : Char} (h : Kind.of? c = some .num) (fuel : Nat) (rest : List Char) :
    value (fuel + 1) (c :: rest) =
      (literal (c :: rest)).map fun (l, rest) => (.num l, rest) := by
  rw [value, skipBlanks_cons (isBlank_of_kind (by rw [h]; rfl))]
  -- no other kind of value begins with this character
  split <;> first | rfl | (rename_i he; obtain ⟨rfl, -⟩ := List.cons.inj he; cases h)

theorem value_quote (fuel : Nat) (rest : List Char) :
    value (fuel + 1) ('"' :: rest) = (content rest).map fun (s, rest) => (.str s, rest) := by
  simp [value, skipBlanks_cons, isBlank]

theorem value_arr {fuel : Nat} {c : Char} {cs rest left : List Char} {d : Draft} {ds : List Draft}
    (hc : (Kind.of? c).isSome = true) (hd : value fuel (c :: cs) = some (d, rest))
    (hds : moreItems fuel rest = some (ds, left)) :
    value (fuel + 1) ('[' :: c :: cs) = some (.arr (d :: ds), left) := by
  have hb := isBlank_of_kind hc
  have hne : c ≠ ']' := by
    rintro rfl
    exact absurd hc (by decide)
  simp [value, skipBlanks_cons (c := '[') rfl, skipBlanks_cons hb, hne, hd, hds]

theorem moreItems_cons {fuel : Nat} {cs rest left : List Char} {d : Draft} {ds : List Draft}
    (hd : value fuel cs = some (d, rest)) (hds : moreItems fuel rest = some (ds, left)) :
    moreItems (fuel + 1) (',' :: cs) = some (d :: ds, left) := by
  simp [moreItems, skipBlanks_cons (c := ',') rfl, hd, hds]

theorem member_quote {fuel : Nat} (name : List Char) {cs rest : List Char} {d : Draft}
    (hd : value fuel cs = some (d, rest)) :
    member (fuel + 1) (quoted name ++ ':' :: cs) = some ((some (String.ofList name), d), rest) := by
  simp [member, quoted, skipBlanks_cons (c := '"') rfl, content_quoted,
    skipBlanks_cons (c := ':') rfl, hd]

theorem value_obj {fuel : Nat} {cs rest left : List Char} {m : Option String × Draft}
    {ms : List (Option String × Draft)} (hm : member fuel ('"' :: cs) = some (m, rest))
    (hms : moreMembers fuel rest = some (ms, left)) :
    value (fuel + 1) ('{' :: '"' :: cs) = some (.obj (m :: ms), left) := by
  simp [value, skipBlanks_cons (c := '{') rfl, skipBlanks_cons (c := '"') rfl, hm, hms]

theorem moreMembers_cons {fuel : Nat} {cs rest left : List Char} {m : Option String × Draft}
    {ms : List (Option String × Draft)} (hm : member fuel cs = some (m, rest))
    (hms : moreMembers fuel rest = some (ms, left)) :
    moreMembers (fuel + 1) (',' :: cs) = some (m :: ms, left) := by
  simp [moreMembers, skipBlanks_cons (c := ',') rfl, hm, hms]

end Draft

/-- What the text of the value is read as. Reading stops where that text ends, and the value of the
draft is the one that was written. -/
structure ReadsAs (v : Json) (d : Draft) : Prop where
  value : ∀ (fuel : Nat) (rest : List Char), v.chars.length ≤ fuel → Stops rest →
    Draft.value fuel (v.chars ++ rest) = some (d, rest)
  json : ∀ room : Nat, v.depth ≤ room → d.json? room = some v

structure ItemsReadAs (vs : List Json) (ds : List Draft) : Prop where
  items : ∀ (fuel : Nat) (rest : List Char), (itemChars vs).length ≤ fuel →
    Draft.moreItems fuel (itemChars vs ++ rest) = some (ds, rest)
  json : ∀ room : Nat, depthItems vs ≤ room → Draft.itemsJson? room ds = some vs

structure MembersReadAs (ms : List (String × Json)) (ds : List (Option String × Draft)) :
    Prop where
  members : ∀ (fuel : Nat) (rest : List Char), (memberChars ms).length ≤ fuel →
    Draft.moreMembers fuel (memberChars ms ++ rest) = some (ds, rest)
  json : ∀ room : Nat, depthMembers ms ≤ room → Draft.membersJson? room ds = some ms

namespace ReadsAs

variable {v : Json} {d : Draft} {vs : List Json} {ds : List Draft} {name : String}
  {ms : List (String × Json)} {m : Option String × Draft} {es : List (Option String × Draft)}

theorem null : ReadsAs .null .null where
  value fuel rest hfuel _ := by
    obtain ⟨fuel, rfl⟩ := Nat.exists_eq_add_of_le' (m := 4) hfuel
    rfl
  json _ _ := rfl

theorem bool (b : Bool) : ReadsAs (.bool b) (.bool b) where
  value fuel rest hfuel _ := by
    cases b with
    | true =>
      obtain ⟨fuel, rfl⟩ := Nat.exists_eq_add_of_le' (m := 4) hfuel
      rfl
    | false =>
      obtain ⟨fuel, rfl⟩ := Nat.exists_eq_add_of_le' (m := 5) hfuel
      rfl
  json _ _ := rfl

theorem exists_num {n : Number} (h : n.Integral) : ∃ d, ReadsAs (.num n) d := by
  obtain ⟨l, hl, hn⟩ := exists_literal h
  obtain ⟨c, cs, hc, hk⟩ := exists_digit h
  refine ⟨.num l, fun fuel rest hfuel hrest => ?_, fun _ _ => by rw [Draft.json?, hn]; rfl⟩
  have hl := hl rest hrest
  simp only [chars, hc, List.cons_append, List.length_cons] at hl hfuel ⊢
  obtain ⟨fuel, rfl⟩ := Nat.exists_eq_add_of_le' (m := 1) (by omega : 1 ≤ fuel)
  rw [Draft.value_number hk, hl]
  rfl

theorem str (s : String) : ReadsAs (.str s) (.str (some s)) where
  value fuel rest hfuel _ := by
    simp only [chars, quoted, List.length_cons] at hfuel
    obtain ⟨fuel, rfl⟩ := Nat.exists_eq_add_of_le' (m := 1) (by omega : 1 ≤ fuel)
    have hc : Draft.content (s.toList.flatMap escape ++ '"' :: rest) = some (some s, rest) := by
      rw [Draft.content_quoted, String.ofList_toList]
    simp [chars, quoted, Draft.value_quote, hc]
  json _ _ := rfl

theorem arr_nil : ReadsAs (.arr []) (.arr []) where
  value fuel rest hfuel _ := by
    obtain ⟨fuel, rfl⟩ := Nat.exists_eq_add_of_le' (m := 2) hfuel
    rfl
  json room hroom := by
    obtain ⟨room, rfl⟩ := Nat.exists_eq_add_of_le' (m := 1) hroom
    rfl

theorem arr_cons (hv : v.Integral) (h : ReadsAs v d) (hs : ItemsReadAs vs ds) :
    ReadsAs (.arr (v :: vs)) (.arr (d :: ds)) where
  value fuel rest hfuel _ := by
    simp only [chars, List.length_cons, List.length_append] at hfuel
    obtain ⟨fuel, rfl⟩ := Nat.exists_eq_add_of_le' (m := 1) (by omega : 1 ≤ fuel)
    obtain ⟨c, cs, hc, hk⟩ := exists_first hv
    have hd := h.value fuel _ (by omega) (stops_itemChars vs rest)
    have hds := hs.items fuel rest (by omega)
    simp only [chars, hc, List.cons_append, List.append_assoc] at hd ⊢
    exact Draft.value_arr hk hd hds
  json room hroom := by
    simp only [depth, depthItems] at hroom
    obtain ⟨room, rfl⟩ := Nat.exists_eq_add_of_le' (m := 1) (by omega : 1 ≤ room)
    have hd := h.json room (by omega)
    have hds := hs.json room (by omega)
    simp [Draft.json?, Draft.itemsJson?, hd, hds]

theorem obj_nil : ReadsAs (.obj []) (.obj []) where
  value fuel rest hfuel _ := by
    obtain ⟨fuel, rfl⟩ := Nat.exists_eq_add_of_le' (m := 2) hfuel
    rfl
  json room hroom := by
    obtain ⟨room, rfl⟩ := Nat.exists_eq_add_of_le' (m := 1) hroom
    rfl

/-- An object is read member by member, in whatever order these were written. -/
theorem value_obj_cons (h : ReadsAs v d) (hs : MembersReadAs ms es) (fuel : Nat)
    (rest : List Char) (hfuel : (Json.obj ((name, v) :: ms)).chars.length ≤ fuel) :
    Draft.value fuel ((Json.obj ((name, v) :: ms)).chars ++ rest) =
      some (.obj ((some name, d) :: es), rest) := by
  simp only [chars, List.length_cons, List.length_append] at hfuel
  obtain ⟨fuel, rfl⟩ := Nat.exists_eq_add_of_le' (m := 2) (by omega : 2 ≤ fuel)
  have hd := h.value fuel _ (by omega) (stops_memberChars ms rest)
  have hm := Draft.member_quote name.toList hd
  have hes := hs.members (fuel + 1) rest (by omega)
  rw [String.ofList_toList] at hm
  simp only [chars, List.cons_append, List.append_assoc]
  exact Draft.value_obj hm hes

theorem obj_cons (hsorted : Sorted ((name, v) :: ms)) (h : ReadsAs v d)
    (hs : MembersReadAs ms es) :
    ReadsAs (.obj ((name, v) :: ms)) (.obj ((some name, d) :: es)) where
  value fuel rest hfuel _ := value_obj_cons h hs fuel rest hfuel
  json room hroom := by
    simp only [depth, depthMembers] at hroom
    obtain ⟨room, rfl⟩ := Nat.exists_eq_add_of_le' (m := 1) (by omega : 1 ≤ room)
    have hd := h.json room (by omega)
    have hes := hs.json room (by omega)
    simp [Draft.json?, Draft.membersJson?, hd, hes, object_sorted hsorted]

theorem ofText?_obj_cons (h : ReadsAs v d) (hs : MembersReadAs ms es) :
    Draft.ofText? (Json.obj ((name, v) :: ms)).text = some (.obj ((some name, d) :: es)) := by
  have hread : Draft.value (2 * (Json.obj ((name, v) :: ms)).chars.length + 2)
      ((Json.obj ((name, v) :: ms)).chars ++ []) = some (.obj ((some name, d) :: es), []) :=
    h.value_obj_cons hs _ [] (by omega)
  rw [List.append_nil] at hread
  rw [Draft.ofText?, text, String.toList_ofList, Draft.ofChars?, hread]
  rfl

end ReadsAs

namespace ItemsReadAs

theorem nil : ItemsReadAs [] [] where
  items fuel rest hfuel := by
    obtain ⟨fuel, rfl⟩ := Nat.exists_eq_add_of_le' (m := 1) hfuel
    rfl
  json _ _ := rfl

theorem cons {v : Json} {d : Draft} {vs : List Json} {ds : List Draft} (h : ReadsAs v d)
    (hs : ItemsReadAs vs ds) : ItemsReadAs (v :: vs) (d :: ds) where
  items fuel rest hfuel := by
    simp only [itemChars, List.length_cons, List.length_append] at hfuel
    obtain ⟨fuel, rfl⟩ := Nat.exists_eq_add_of_le' (m := 1) (by omega : 1 ≤ fuel)
    have hd := h.value fuel _ (by omega) (stops_itemChars vs rest)
    have hds := hs.items fuel rest (by omega)
    simp only [itemChars, List.cons_append, List.append_assoc]
    exact Draft.moreItems_cons hd hds
  json room hroom := by
    simp only [depthItems] at hroom
    have hd := h.json room (by omega)
    have hds := hs.json room (by omega)
    simp [Draft.itemsJson?, hd, hds]

end ItemsReadAs

namespace MembersReadAs

theorem nil : MembersReadAs [] [] where
  members fuel rest hfuel := by
    obtain ⟨fuel, rfl⟩ := Nat.exists_eq_add_of_le' (m := 1) hfuel
    rfl
  json _ _ := rfl

theorem cons {name : String} {v : Json} {d : Draft} {ms : List (String × Json)}
    {es : List (Option String × Draft)} (h : ReadsAs v d) (hs : MembersReadAs ms es) :
    MembersReadAs ((name, v) :: ms) ((some name, d) :: es) where
  members fuel rest hfuel := by
    simp only [memberChars, List.length_cons, List.length_append] at hfuel
    obtain ⟨fuel, rfl⟩ := Nat.exists_eq_add_of_le' (m := 2) (by omega : 2 ≤ fuel)
    have hd := h.value fuel _ (by omega) (stops_memberChars ms rest)
    have hm := Draft.member_quote name.toList hd
    have hes := hs.members (fuel + 1) rest (by omega)
    rw [String.ofList_toList] at hm
    simp only [memberChars, List.cons_append, List.append_assoc]
    exact Draft.moreMembers_cons hm hes
  json room hroom := by
    simp only [depthMembers] at hroom
    have hd := h.json room (by omega)
    have hes := hs.json room (by omega)
    simp [Draft.membersJson?, hd, hes]

end MembersReadAs

mutual

theorem exists_draft : ∀ {v : Json}, v.Integral → v.Ordered → ∃ d, ReadsAs v d
  | .null, _, _ => ⟨_, .null⟩
  | .bool b, _, _ => ⟨_, .bool b⟩
  | .num n, hi, _ => ReadsAs.exists_num (hi n rfl)
  | .str s, _, _ => ⟨_, .str s⟩
  | .arr [], _, _ => ⟨_, .arr_nil⟩
  | .arr (_ :: _), hi, ho => by
    obtain ⟨hv, hvs⟩ := List.forall_mem_cons.mp (allItems_iff.mp hi.2)
    obtain ⟨ov, ovs⟩ := List.forall_mem_cons.mp (allItems_iff.mp ho.2)
    obtain ⟨d, hd⟩ := exists_draft hv ov
    obtain ⟨ds, hds⟩ := exists_itemDrafts hvs ovs
    exact ⟨_, .arr_cons hv hd hds⟩
  | .obj [], _, _ => ⟨_, .obj_nil⟩
  | .obj ((_, v) :: _), hi, ho => by
    obtain ⟨hv, hms⟩ := List.forall_mem_cons.mp (allMembers_iff.mp hi.2)
    obtain ⟨ov, oms⟩ := List.forall_mem_cons.mp (allMembers_iff.mp ho.2)
    obtain ⟨d, hd⟩ := exists_draft (v := v) hv ov
    obtain ⟨ds, hds⟩ := exists_memberDrafts hms oms
    exact ⟨_, .obj_cons (ho.1 _ rfl) hd hds⟩

theorem exists_itemDrafts : ∀ {vs : List Json}, (∀ v ∈ vs, v.Integral) →
    (∀ v ∈ vs, v.Ordered) → ∃ ds, ItemsReadAs vs ds
  | [], _, _ => ⟨_, .nil⟩
  | _ :: _, hi, ho => by
    obtain ⟨hv, hvs⟩ := List.forall_mem_cons.mp hi
    obtain ⟨ov, ovs⟩ := List.forall_mem_cons.mp ho
    obtain ⟨d, hd⟩ := exists_draft hv ov
    obtain ⟨ds, hds⟩ := exists_itemDrafts hvs ovs
    exact ⟨_, .cons hd hds⟩

theorem exists_memberDrafts : ∀ {ms : List (String × Json)}, (∀ m ∈ ms, m.2.Integral) →
    (∀ m ∈ ms, m.2.Ordered) → ∃ ds, MembersReadAs ms ds
  | [], _, _ => ⟨_, .nil⟩
  | (_, v) :: _, hi, ho => by
    obtain ⟨hv, hms⟩ := List.forall_mem_cons.mp hi
    obtain ⟨ov, oms⟩ := List.forall_mem_cons.mp ho
    obtain ⟨d, hd⟩ := exists_draft (v := v) hv ov
    obtain ⟨ds, hds⟩ := exists_memberDrafts hms oms
    exact ⟨_, .cons hd hds⟩

end

/-- What a text can say of a value and a reader takes up: integers, members in order, and no more
nesting than there is room for. -/
structure Fits (room : Nat) (v : Json) : Prop where
  integral : v.Integral
  ordered : v.Ordered
  depth_le : v.depth ≤ room

/-- **A written value is read back**, unless it is nested deeper than the reader goes. -/
theorem ofChars?_chars {v : Json} (h : v.Fits Draft.deepest) : ofChars? v.chars = some v := by
  obtain ⟨d, hd⟩ := exists_draft h.integral h.ordered
  have hread : Draft.value (2 * v.chars.length + 2) (v.chars ++ []) = some (d, []) :=
    hd.value _ [] (by omega) stops_nil
  rw [List.append_nil] at hread
  rw [ofChars?, Draft.ofChars?, hread]
  exact hd.json _ h.depth_le

theorem ofChars?_text {v : Json} (h : v.Fits Draft.deepest) : ofChars? v.text.toList = some v := by
  rw [text, String.toList_ofList, ofChars?_chars h]

namespace Fits

variable {room : Nat}

theorem null : Json.null.Fits room where
  integral _ he := Json.noConfusion he
  ordered _ he := Json.noConfusion he
  depth_le := Nat.zero_le _

theorem str (s : String) : (Json.str s).Fits room where
  integral _ he := Json.noConfusion he
  ordered _ he := Json.noConfusion he
  depth_le := Nat.zero_le _

theorem num {n : Number} (h : n.Integral) : (Json.num n).Fits room where
  integral _ he := num.inj he ▸ h
  ordered _ he := Json.noConfusion he
  depth_le := Nat.zero_le _

theorem nat {n : Nat} (h : n < UInt64.size) : (Json.nat n).Fits room := by
  have hn : n < 0x10000000000000000 := h
  exact num ⟨by omega, by omega⟩

/-- An array takes one level of nesting. -/
theorem arr {items : List Json} (h : ∀ v ∈ items, v.Fits room) :
    (Json.arr items).Fits (room + 1) where
  integral := ⟨fun _ he => Json.noConfusion he, allItems_iff.mpr fun v hv => (h v hv).integral⟩
  ordered := ordered_arr fun v hv => (h v hv).ordered
  depth_le := Nat.succ_le_succ (depthItems_le_iff.mpr fun v hv => (h v hv).depth_le)

theorem nested {v : Json} (h : v.Fits room) (n : Nat) :
    (Nat.repeat (fun v => Json.arr [v]) n v).Fits (room + n) := by
  induction n with
  | zero => exact h
  | succ n ih => exact arr (List.forall_mem_singleton.mpr ih)

theorem obj {members : List (String × Json)} (hsorted : Sorted members)
    (h : ∀ m ∈ members, m.2.Fits room) : (Json.obj members).Fits (room + 1) where
  integral := ⟨fun _ he => Json.noConfusion he, allMembers_iff.mpr fun m hm => (h m hm).integral⟩
  ordered := ordered_obj hsorted fun m hm => (h m hm).ordered
  depth_le := Nat.succ_le_succ (depthMembers_le_iff.mpr fun m hm => (h m hm).depth_le)

end Fits

end Harvest.Json
