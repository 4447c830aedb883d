import Harvest.Json.Draft
import Harvest.Json.Printer

/-! What is written of a JSON value tells it. A quoted text ends at its own quote, as no quote
inside it stands unescaped; a whole number ends where its digits end; a list ends with its bracket.
So two values whose numbers are whole have different texts, even where one text goes on behind the
value. Doubles are left out. -/

namespace Harvest.Json

/-! ## Quoted texts -/

/-- How a character is written: by a letter, by its number, or as it is. -/
theorem escape_cases (c : Char) :
    (∃ d, escape c = ['\\', d] ∧ Draft.escaped? d = some c ∧ d ≠ 'u') ∨
      (c.toNat < 32 ∧ escape c =
        ['\\', 'u', '0', '0', Nat.digitChar (c.toNat / 16), Nat.digitChar (c.toNat % 16)]) ∨
      (32 ≤ c.toNat ∧ c ≠ '"' ∧ c ≠ '\\' ∧ escape c = [c]) := by
  by_cases hc : c ∈ ['"', '\\', '\n', '\r', '\t', '\x08', '\x0c']
  · simp only [List.mem_cons, List.not_mem_nil, or_false] at hc
    refine .inl ?_
    rcases hc with rfl | rfl | rfl | rfl | rfl | rfl | rfl
    · exact ⟨'"', rfl, rfl, by decide⟩
    · exact ⟨'\\', rfl, rfl, by decide⟩
    · exact ⟨'n', rfl, rfl, by decide⟩
    · exact ⟨'r', rfl, rfl, by decide⟩
    · exact ⟨'t', rfl, rfl, by decide⟩
    · exact ⟨'b', rfl, rfl, by decide⟩
    · exact ⟨'f', rfl, rfl, by decide⟩
  · simp only [List.mem_cons, List.not_mem_nil, or_false, not_or] at hc
    by_cases hn : c.toNat < 32
    · exact .inr (.inl ⟨hn, by simp [escape, hc, hn]⟩)
    · exact .inr (.inr ⟨by omega, hc.1, hc.2.1, by simp [escape, hc, hn]⟩)

namespace Draft

/-- A small unit is a character of its own, whatever comes next. -/
theorem join_unit (done : List Char) {n : Nat} (h : n < 32) (ps : List Piece) :
    join done (.unit n :: ps) = join (Char.ofNat n :: done) ps := by
  have hh : isHigh n = false := by simp [isHigh]; omega
  have hl : isLow n = false := by simp [isLow]; omega
  match ps with
  | [] => simp [join, hh, hl]
  | .unit m :: rest => simp [join, hh, hl]
  | .char d :: rest => simp [join, hh, hl]

theorem hexUnit?_control : ∀ n < 32,
    hexUnit? '0' '0' (Nat.digitChar (n / 16)) (Nat.digitChar (n % 16)) = some n := by decide

/-- What is written of a character is one piece, which stands for that character. -/
theorem exists_piece (c : Char) : ∃ p,
    (∀ done rest, pieces done (escape c ++ rest) = pieces (p :: done) rest) ∧
      ∀ done ps, join done (p :: ps) = join (c :: done) ps := by
  rcases escape_cases c with ⟨d, he, hd, hu⟩ | ⟨hn, he⟩ | ⟨hn, hq, hb, he⟩
  · refine ⟨.char c, fun done rest => ?_, fun done ps => by rw [join]⟩
    rw [he]
    simp [pieces, hd, hu]
  · refine ⟨.unit c.toNat, fun done rest => ?_, fun done ps => ?_⟩
    · rw [he]
      simp [pieces, hexUnit?_control _ hn]
    · rw [join_unit done hn, Char.ofNat_toNat]
  · refine ⟨.char c, fun done rest => ?_, fun done ps => by rw [join]⟩
    rw [he]
    simp [pieces, hb, Nat.not_lt.mpr hn]

theorem exists_pieces (text : List Char) : ∃ ps,
    (∀ done rest, pieces done (text.flatMap escape ++ '"' :: rest) =
      some (done.reverse ++ ps, rest)) ∧
      ∀ done, join done ps = some (done.reverse ++ text) := by
  induction text with
  | nil => exact ⟨[], fun done rest => by simp [pieces], fun done => by simp [join]⟩
  | cons c text ih =>
    obtain ⟨p, hp, hj⟩ := exists_piece c
    obtain ⟨ps, hps, hjs⟩ := ih
    refine ⟨p :: ps, fun done rest => ?_, fun done => ?_⟩
    · rw [List.flatMap_cons, List.append_assoc, hp, hps]
      simp
    · rw [hj, hjs]
      simp

/-- A quoted text is read back, and reading stops behind its quote. -/
theorem content_quoted (text rest : List Char) :
    content (text.flatMap escape ++ '"' :: rest) = some (some (String.ofList text), rest) := by
  obtain ⟨ps, hp, hj⟩ := exists_pieces text
  rw [content, hp]
  simp [hj]

end Draft

theorem quoted_append_inj {a b r s : List Char} (h : quoted a ++ r = quoted b ++ s) :
    a = b ∧ r = s := by
  simp only [quoted, List.cons_append, List.append_assoc, List.nil_append, List.cons.injEq,
    true_and] at h
  have hc := Draft.content_quoted a r
  rw [h, Draft.content_quoted] at hc
  simp only [Option.some.injEq, Prod.mk.injEq, String.ofList_inj] at hc
  exact ⟨hc.1.symm, hc.2.symm⟩

/-! ## Whole numbers -/

/-- What follows a number does not go on with it. -/
def Ends (rest : List Char) : Prop := ∀ c ∈ rest.head?, c.isDigit = false

theorem ends_cons {c : Char} (h : c.isDigit = false) (rest : List Char) : Ends (c :: rest) := by
  intro d hd
  obtain rfl := Option.some.inj hd
  exact h

theorem toDigits_append_inj {m n : Nat} {r s : List Char} (hr : Ends r) (hs : Ends s)
    (h : Nat.toDigits 10 m ++ r = Nat.toDigits 10 n ++ s) : m = n ∧ r = s := by
  have hspan (k : Nat) (t : List Char) (ht : Ends t) :
      (Nat.toDigits 10 k ++ t).takeWhile Char.isDigit = Nat.toDigits 10 k := by
    rw [List.takeWhile_append_of_pos fun c hc =>
      Nat.isDigit_of_mem_toDigits (by decide) (by decide) hc]
    cases t with
    | nil => simp
    | cons c t => simp [ht c rfl]
  have hd := congrArg (List.takeWhile Char.isDigit) h
  rw [hspan m r hr, hspan n s hs] at hd
  constructor
  · rw [← Nat.ofDigitChars_ten_toDigits (n := m), hd, Nat.ofDigitChars_ten_toDigits]
  · rw [hd] at h
    exact List.append_cancel_left h

theorem exists_toDigits (n : Nat) :
    ∃ c rest, Nat.toDigits 10 n = c :: rest ∧ c.isDigit = true := by
  cases hd : Nat.toDigits 10 n with
  | nil => exact absurd hd Nat.toDigits_ne_nil
  | cons c rest =>
    have hc : c ∈ Nat.toDigits 10 n := hd ▸ List.mem_cons_self ..
    exact ⟨c, rest, rfl, Nat.isDigit_of_mem_toDigits (by decide) (by decide) hc⟩

theorem int_append_inj {i j : Int} {r s : List Char} (hr : Ends r) (hs : Ends s)
    (h : (Number.int i).chars ++ r = (Number.int j).chars ++ s) : i = j ∧ r = s := by
  -- a sign is no digit, so the signs agree
  have unsigned (n : Nat) (t u : List Char) : '-' :: t ≠ Nat.toDigits 10 n ++ u := by
    intro he
    obtain ⟨c, rest, hc, hdigit⟩ := exists_toDigits n
    rw [hc] at he
    obtain ⟨rfl, -⟩ := List.cons.inj he
    revert hdigit
    decide
  by_cases hi : i < 0
  · by_cases hj : j < 0
    · simp only [Number.chars, hi, hj, if_true] at h
      obtain ⟨hn, hrest⟩ := toDigits_append_inj hr hs (List.cons.inj h).2
      exact ⟨by omega, hrest⟩
    · simp only [Number.chars, hi, hj, if_true, if_false] at h
      exact absurd h (unsigned _ _ _)
  · by_cases hj : j < 0
    · simp only [Number.chars, hi, hj, if_true, if_false] at h
      exact absurd h.symm (unsigned _ _ _)
    · simp only [Number.chars, hi, hj, if_false] at h
      obtain ⟨hn, hrest⟩ := toDigits_append_inj hr hs h
      exact ⟨by omega, hrest⟩

/-! ## Values -/

mutual

/-- All its numbers are whole. -/
def Whole : Json → Prop
  | .num (.real _) => False
  | .arr items => WholeItems items
  | .obj members => WholeMembers members
  | .null | .bool _ | .num (.int _) | .str _ => True

def WholeItems : List Json → Prop
  | [] => True
  | v :: vs => v.Whole ∧ WholeItems vs

def WholeMembers : List (String × Json) → Prop
  | [] => True
  | (_, v) :: ms => v.Whole ∧ WholeMembers ms

end

inductive Kind
  | null
  | bool (value : Bool)
  | num
  | str
  | arr
  | obj

def kind : Json → Kind
  | .null => .null
  | .bool b => .bool b
  | .num _ => .num
  | .str _ => .str
  | .arr _ => .arr
  | .obj _ => .obj

/-- The kind of the values that begin with a character. -/
def Kind.of? (c : Char) : Option Kind :=
  if c = '-' ∨ c.isDigit then some .num
  else if c = 'n' then some .null
  else if c = 't' then some (.bool true)
  else if c = 'f' then some (.bool false)
  else if c = '"' then some .str
  else if c = '[' then some .arr
  else if c = '{' then some .obj
  else none

theorem exists_chars {v : Json} (h : v.Whole) :
    ∃ c rest, v.chars = c :: rest ∧ Kind.of? c = some v.kind := by
  cases v with
  | null => exact ⟨'n', _, rfl, rfl⟩
  | bool b =>
    cases b with
    | true => exact ⟨'t', _, rfl, rfl⟩
    | false => exact ⟨'f', _, rfl, rfl⟩
  | num n =>
    cases n with
    | real bits => cases h
    | int i =>
      obtain ⟨c, rest, hd, hc⟩ := exists_toDigits i.natAbs
      by_cases hi : i < 0
      · exact ⟨'-', Nat.toDigits 10 i.natAbs, by simp [chars, Number.chars, hi], rfl⟩
      · exact ⟨c, rest, by simp [chars, Number.chars, hi, hd], by simp [Kind.of?, hc, kind]⟩
  | str s => exact ⟨'"', _, rfl, rfl⟩
  | arr items => cases items <;> exact ⟨'[', _, rfl, rfl⟩
  | obj members => cases members <;> exact ⟨'{', _, rfl, rfl⟩

theorem kind_eq {v w : Json} {r s : List Char} (hv : v.Whole) (hw : w.Whole)
    (h : v.chars ++ r = w.chars ++ s) : v.kind = w.kind := by
  obtain ⟨c, cs, hc, hk⟩ := exists_chars hv
  obtain ⟨d, ds, hd, hl⟩ := exists_chars hw
  rw [hc, hd] at h
  obtain ⟨rfl, -⟩ := List.cons.inj h
  exact Option.some.inj (hk.symm.trans hl)

/-- No value begins with what ends a list. -/
theorem not_begins {c : Char} (hc : Kind.of? c = none) {v : Json} (hv : v.Whole)
    {r s : List Char} : c :: r ≠ v.chars ++ s := by
  intro h
  obtain ⟨d, ds, hd, hk⟩ := exists_chars hv
  rw [hd] at h
  obtain ⟨rfl, -⟩ := List.cons.inj h
  rw [hc] at hk
  cases hk

theorem ends_itemChars (vs : List Json) (rest : List Char) : Ends (itemChars vs ++ rest) := by
  cases vs <;> exact ends_cons (by decide) _

theorem ends_memberChars (ms : List (String × Json)) (rest : List Char) :
    Ends (memberChars ms ++ rest) := by
  cases ms <;> exact ends_cons (by decide) _

mutual

/-- **The text of a value tells the value**, and where it ends. -/
theorem chars_append_inj : ∀ {v w : Json} {r s : List Char}, v.Whole → w.Whole → Ends r →
    Ends s → v.chars ++ r = w.chars ++ s → v = w ∧ r = s
  | .null, w, r, s, hv, hw, hr, hs, h => by
    have hk := kind_eq hv hw h
    cases w with
    | null => exact ⟨rfl, List.append_cancel_left h⟩
    | _ => cases hk
  | .bool a, w, r, s, hv, hw, hr, hs, h => by
    have hk := kind_eq hv hw h
    cases w with
    | bool b =>
      obtain rfl := Kind.bool.inj hk
      exact ⟨rfl, List.append_cancel_left h⟩
    | _ => cases hk
  | .num (.int i), w, r, s, hv, hw, hr, hs, h => by
    have hk := kind_eq hv hw h
    cases w with
    | num n =>
      cases n with
      | real bits => cases hw
      | int j =>
        obtain ⟨rfl, hrest⟩ := int_append_inj hr hs h
        exact ⟨rfl, hrest⟩
    | _ => cases hk
  | .str a, w, r, s, hv, hw, hr, hs, h => by
    have hk := kind_eq hv hw h
    cases w with
    | str b =>
      obtain ⟨hab, hrest⟩ := quoted_append_inj h
      exact ⟨congrArg str (String.toList_inj.mp hab), hrest⟩
    | _ => cases hk
  | .arr vs, w, r, s, hv, hw, hr, hs, h => by
    have hk := kind_eq hv hw h
    cases w with
    | arr ws =>
      cases vs with
      | nil =>
        cases ws with
        | nil => exact ⟨rfl, List.append_cancel_left h⟩
        | cons w ws =>
          have h := (List.cons.inj h).2.trans (List.append_assoc ..)
          exact absurd h (not_begins rfl hw.1)
      | cons v vs =>
        cases ws with
        | nil =>
          have h := (List.cons.inj h).2.symm.trans (List.append_assoc ..)
          exact absurd h (not_begins rfl hv.1)
        | cons w ws =>
          -- behind the bracket stand the items, as they do behind a comma
          have h := congrArg (List.cons ',') (List.cons.inj h).2
          obtain ⟨he, hrest⟩ := itemChars_append_inj hv hw h
          exact ⟨congrArg arr he, hrest⟩
    | _ => cases hk
  | .obj ms, w, r, s, hv, hw, hr, hs, h => by
    have hk := kind_eq hv hw h
    cases w with
    | obj ns =>
      cases ms with
      | nil =>
        cases ns with
        | nil => exact ⟨rfl, List.append_cancel_left h⟩
        | cons n ns => cases (List.cons.inj h).2
      | cons m ms =>
        cases ns with
        | nil => cases (List.cons.inj h).2
        | cons n ns =>
          have h := congrArg (List.cons ',') (List.cons.inj h).2
          obtain ⟨he, hrest⟩ := memberChars_append_inj hv hw h
          exact ⟨congrArg obj he, hrest⟩
    | _ => cases hk

theorem itemChars_append_inj : ∀ {vs ws : List Json} {r s : List Char}, WholeItems vs →
    WholeItems ws → itemChars vs ++ r = itemChars ws ++ s → vs = ws ∧ r = s
  | [], ws, r, s, hv, hw, h => by
    cases ws with
    | nil => exact ⟨rfl, List.append_cancel_left h⟩
    | cons w ws => cases h
  | v :: vs, ws, r, s, hv, hw, h => by
    cases ws with
    | nil => cases h
    | cons w ws =>
      simp only [itemChars, List.cons_append, List.append_assoc, List.cons.injEq, true_and] at h
      obtain ⟨rfl, hmore⟩ :=
        chars_append_inj hv.1 hw.1 (ends_itemChars vs r) (ends_itemChars ws s) h
      obtain ⟨rfl, hrest⟩ := itemChars_append_inj hv.2 hw.2 hmore
      exact ⟨rfl, hrest⟩

theorem memberChars_append_inj : ∀ {ms ns : List (String × Json)} {r s : List Char},
    WholeMembers ms → WholeMembers ns → memberChars ms ++ r = memberChars ns ++ s →
      ms = ns ∧ r = s
  | [], ns, r, s, hm, hn, h => by
    cases ns with
    | nil => exact ⟨rfl, List.append_cancel_left h⟩
    | cons n ns => cases h
  | (m, v) :: ms, ns, r, s, hm, hn, h => by
    cases ns with
    | nil => cases h
    | cons n ns =>
      obtain ⟨n, w⟩ := n
      simp only [memberChars, List.cons_append, List.append_assoc, List.cons.injEq, true_and] at h
      obtain ⟨hname, hvalue⟩ := quoted_append_inj h
      obtain ⟨rfl, hmore⟩ := chars_append_inj hm.1 hn.1 (ends_memberChars ms r)
        (ends_memberChars ns s) (List.cons.inj hvalue).2
      obtain ⟨rfl, hrest⟩ := memberChars_append_inj hm.2 hn.2 hmore
      exact ⟨by rw [String.toList_inj.mp hname], hrest⟩

end

theorem text_inj {v w : Json} (hv : v.Whole) (hw : w.Whole) (h : v.text = w.text) : v = w := by
  have hc : v.chars ++ [] = w.chars ++ [] := by
    rw [List.append_nil, List.append_nil]
    exact String.ofList_inj.mp h
  have hend : Ends [] := fun _ hn => by cases hn
  exact (chars_append_inj hv hw hend hend hc).1

end Harvest.Json
