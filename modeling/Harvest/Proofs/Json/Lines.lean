import Harvest.Proofs.Json.Unambiguous
import Harvest.Text.Blank
import Mathlib.Tactic.SplitIfs

/-! What is written of a JSON value is a line: no control character stands in it, as those of its
texts are escaped. So written values that are told apart by line feeds come back as they were. -/

namespace Harvest

/-! ## Printable texts -/

/-- No character is one of the control characters below the blank. -/
def Printable (cs : List Char) : Prop := ∀ c ∈ cs, 0x20 ≤ c.toNat

namespace Printable

@[simp] theorem nil : Printable [] := fun _ h => absurd h List.not_mem_nil

@[simp] theorem cons_iff {c : Char} {cs : List Char} :
    Printable (c :: cs) ↔ 0x20 ≤ c.toNat ∧ Printable cs := List.forall_mem_cons

@[simp] theorem append_iff {cs ds : List Char} :
    Printable (cs ++ ds) ↔ Printable cs ∧ Printable ds := List.forall_mem_append

@[simp] theorem toDigits (n : Nat) : Printable (Nat.toDigits 10 n) := by
  intro c hc
  have h : c.isDigit = true := Nat.isDigit_of_mem_toDigits (by decide) (by decide) hc
  simp only [Char.isDigit, Bool.and_eq_true, decide_eq_true_eq, ge_iff_le] at h
  exact Nat.le_trans (by decide) (UInt32.le_iff_toNat_le.mp h.1)

@[simp] theorem replicate (n : Nat) : Printable (List.replicate n '0') := by
  intro c hc
  rw [List.eq_of_mem_replicate hc]
  decide

theorem newline_notMem {cs : List Char} (h : Printable cs) : '\n' ∉ cs := fun hmem =>
  absurd (h _ hmem) (by decide)

end Printable

namespace Json

theorem printable_layOut (s : Decimal.Scientific) : Printable (s.layOut doubles) := by
  have hdigits := Printable.toDigits s.significand
  have htake (n : Nat) : Printable ((Nat.toDigits 10 s.significand).take n) :=
    fun c hc => hdigits c (List.mem_of_mem_take hc)
  have hdrop (n : Nat) : Printable ((Nat.toDigits 10 s.significand).drop n) :=
    fun c hc => hdigits c (List.mem_of_mem_drop hc)
  unfold Decimal.Scientific.layOut doubles
  simp only
  split_ifs
  · simp
  · simp
  · simp [htake, hdrop]
  · simp
  -- a power of ten behind one digit, or behind more and a point
  all_goals
    cases hd : Nat.toDigits 10 s.significand with
    | nil => simp
    | cons d ds =>
      rw [hd] at hdigits
      cases ds <;> simp_all

theorem printable_number (n : Number) : Printable n.chars := by
  cases n with
  | int i => by_cases hi : i < 0 <;> simp [Number.chars, hi]
  | real bits =>
    rw [Number.chars, Decimal.chars]
    split_ifs <;> simp [printable_layOut]

theorem printable_escape (c : Char) : Printable (escape c) := by
  have hhex : ∀ n < 16, 0x20 ≤ (Nat.digitChar n).toNat := by decide
  unfold escape
  split_ifs with _ _ _ _ _ _ _ hlow
  iterate 7 · simp
  · simp [hhex (c.toNat / 16) (by omega), hhex (c.toNat % 16) (by omega)]
  · simp [Nat.not_lt.mp hlow]

theorem printable_quoted (text : List Char) : Printable (quoted text) := by
  have h : Printable (text.flatMap escape) := by
    intro c hc
    obtain ⟨d, -, hd⟩ := List.mem_flatMap.mp hc
    exact printable_escape d c hd
  simp [quoted, h]

mutual

theorem printable_chars : ∀ v : Json, Printable v.chars
  | .null => by simp [chars]
  | .bool true => by simp [chars]
  | .bool false => by simp [chars]
  | .num n => printable_number n
  | .str s => printable_quoted s.toList
  | .arr [] => by simp [chars]
  | .arr (v :: vs) => by simp [chars, printable_chars v, printable_itemChars vs]
  | .obj [] => by simp [chars]
  | .obj ((n, v) :: ms) => by
    simp [chars, printable_quoted, printable_chars v, printable_memberChars ms]

theorem printable_itemChars : ∀ vs : List Json, Printable (itemChars vs)
  | [] => by simp [itemChars]
  | v :: vs => by simp [itemChars, printable_chars v, printable_itemChars vs]

theorem printable_memberChars : ∀ ms : List (String × Json), Printable (memberChars ms)
  | [] => by simp [memberChars]
  | (n, v) :: ms => by
    simp [memberChars, printable_quoted, printable_chars v, printable_memberChars ms]

end

theorem printable_text (v : Json) : Printable v.text.toList := by
  rw [text, String.toList_ofList]
  exact printable_chars v

theorem getLast?_memberChars : ∀ ms : List (String × Json), (memberChars ms).getLast? = some '}'
  | [] => rfl
  | (n, v) :: ms => by
    simp [memberChars, List.getLast?_cons, List.getLast?_append, getLast?_memberChars ms]

/-- An object begins and ends with a brace. -/
theorem ends_obj (ms : List (String × Json)) :
    (Json.obj ms).chars.head? = some '{' ∧ (Json.obj ms).chars.getLast? = some '}' := by
  cases ms with
  | nil => exact ⟨rfl, rfl⟩
  | cons m ms =>
    refine ⟨rfl, ?_⟩
    simp [chars, List.getLast?_cons, List.getLast?_append, getLast?_memberChars ms]

end Json

/-! ## Lines -/

namespace Text.Blank

theorem lines_append {cs : List Char} (h : '\n' ∉ cs) (rest : List Char) :
    lines (cs ++ '\n' :: rest) = cs :: lines rest := by
  induction cs with
  | nil => simp [lines]
  | cons c cs ih =>
    have hc := Ne.symm (List.ne_of_not_mem_cons h)
    simp [lines, hc, ih (List.not_mem_of_not_mem_cons h)]

theorem lines_single {cs : List Char} (h : '\n' ∉ cs) (hne : cs ≠ []) : lines cs = [cs] := by
  induction cs with
  | nil => exact absurd rfl hne
  | cons c cs ih =>
    have hc := Ne.symm (List.ne_of_not_mem_cons h)
    cases cs with
    | nil => simp [lines, hc]
    | cons d cs =>
      have hline := ih (List.not_mem_of_not_mem_cons h) (List.cons_ne_nil d cs)
      rw [lines, if_neg hc, hline]

/-- Lines that are joined by line feeds are told apart again. -/
theorem lines_intercalate {texts : List (List Char)} (h : ∀ cs ∈ texts, '\n' ∉ cs ∧ cs ≠ []) :
    lines (['\n'].intercalate texts) = texts := by
  induction texts with
  | nil => rfl
  | cons cs texts ih =>
    obtain ⟨⟨hcs, hne⟩, hrest⟩ := List.forall_mem_cons.mp h
    cases texts with
    | nil => simp [lines_single hcs hne]
    | cons ds texts =>
      rw [List.intercalate_cons_cons, List.append_assoc, List.singleton_append,
        lines_append hcs, ih hrest]

/-- Lines one after the other, each with a line feed behind it. -/
def unlines (ls : List (List Char)) : List Char := ls.flatMap (· ++ ['\n'])

theorem unlines_append (ls ls' : List (List Char)) :
    unlines (ls ++ ls') = unlines ls ++ unlines ls' := List.flatMap_append

theorem lines_unlines {ls : List (List Char)} (h : ∀ cs ∈ ls, '\n' ∉ cs) :
    lines (unlines ls) = ls := by
  induction ls with
  | nil => rfl
  | cons cs ls ih =>
    obtain ⟨hcs, hls⟩ := List.forall_mem_cons.mp h
    rw [unlines, List.flatMap_cons, List.append_assoc, List.singleton_append, lines_append hcs]
    exact congrArg _ (ih hls)

theorem dropWhile_isBlank {cs : List Char} (h : ∀ c ∈ cs.head?, isBlank c = false) :
    cs.dropWhile isBlank = cs := by
  cases cs with
  | nil => rfl
  | cons c cs => exact List.dropWhile_cons_of_neg (by simp [h c rfl])

/-- A text that neither begins nor ends with a blank is left as it is. -/
theorem trim_eq_self {cs : List Char} (hfirst : ∀ c ∈ cs.head?, isBlank c = false)
    (hlast : ∀ c ∈ cs.getLast?, isBlank c = false) : trim cs = cs := by
  rw [trim, dropWhile_isBlank hfirst, dropWhile_isBlank, List.reverse_reverse]
  rwa [List.head?_reverse]

end Text.Blank

end Harvest
