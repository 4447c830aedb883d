import Harvest.Link.Line
import Harvest.Proofs.Json.Lines
import Harvest.Proofs.Text.Utf8

/-! Printable texts that are sent as lines come in as they were: none of their bytes ends a line,
so the reader takes them in up to the newline that was put behind them, as long as they are not too
long for it. -/

namespace Harvest

/-! ## Bytes of printable texts -/

/-- The bytes of a character are no control characters if it is none. -/
theorem Text.le_of_mem_encodeChar {c : Char} (h : 0x20 ≤ c.toNat) :
    ∀ b ∈ String.utf8EncodeChar c, 0x20 ≤ b.toNat := by
  have hbyte (m : Nat) (hlow : 0x20 ≤ m) (hhigh : m < 256) : 0x20 ≤ (UInt8.ofNat m).toNat := by
    rw [UInt8.toNat_ofNat_of_lt' hhigh]
    exact hlow
  have hc := Text.toNat_lt c
  have h : 0x20 ≤ c.val.toNat := h
  unfold String.utf8EncodeChar
  generalize c.val.toNat = n at h hc
  dsimp only
  repeat' split
  all_goals
    simp only [List.forall_mem_cons]
    repeat' apply And.intro
  all_goals first
    | exact hbyte _ (by omega) (by omega)
    | exact List.forall_mem_nil _

theorem Printable.le_of_mem_bytes {s : String} (h : Printable s.toList) {b : UInt8}
    (hb : b ∈ Text.bytes s) : 0x20 ≤ b.toNat := by
  rw [Text.bytes_eq_flatMap] at hb
  obtain ⟨c, hc, hb⟩ := List.mem_flatMap.mp hb
  exact Text.le_of_mem_encodeChar (h c hc) b hb

namespace LineReader

/-- Bytes that end no line are kept while there is room for them. -/
theorem feedOnto_append {bytes : List UInt8} (hbytes : newline ∉ bytes) (kept : List UInt8)
    (size : Nat) (hsize : size + bytes.length ≤ longest) (done : List Line) (rest : List UInt8) :
    feedOnto ⟨kept, size, false⟩ done (bytes ++ rest) =
      feedOnto ⟨bytes.reverse ++ kept, size + bytes.length, false⟩ done rest := by
  induction bytes generalizing kept size with
  | nil => rfl
  | cons b bytes ih =>
    have hb : b ≠ newline := Ne.symm (List.ne_of_not_mem_cons hbytes)
    rw [List.length_cons] at hsize
    have hroom : ¬ longest ≤ size := by omega
    have hstep : step ⟨kept, size, false⟩ b = (⟨b :: kept, size + 1, false⟩, none) := by
      simp [step, hb, hroom]
    rw [List.cons_append, feedOnto, hstep]
    simp only
    rw [ih (List.not_mem_of_not_mem_cons hbytes) _ _ (by omega)]
    simp [Nat.add_comm, Nat.add_left_comm]

theorem finish_bytes {s : String} (h : carriageReturn ∉ Text.bytes s) :
    finish (Text.bytes s).reverse = .text s := by
  have hread := Text.fromUTF8?_bytes s
  rw [← List.reverse_reverse (Text.bytes s)] at h hread
  cases hb : (Text.bytes s).reverse with
  | nil =>
    rw [hb] at hread
    simp only [finish, hread]
  | cons b rest =>
    rw [hb] at h hread
    have hne : b ≠ carriageReturn := fun he => h (List.mem_reverse.mpr (he ▸ List.mem_cons_self ..))
    simp only [finish, if_neg hne, hread]

theorem feedOnto_lines {texts : List String} (done : List Line)
    (hprint : ∀ s ∈ texts, Printable s.toList)
    (hsize : ∀ s ∈ texts, (Text.bytes s).length ≤ longest) :
    feedOnto {} done (texts.flatMap fun s => Text.bytes s ++ [newline]) =
      ({}, done.reverse ++ texts.map .text) := by
  induction texts generalizing done with
  | nil => simp [feedOnto]
  | cons s texts ih =>
    obtain ⟨hs, hprint⟩ := List.forall_mem_cons.mp hprint
    obtain ⟨hroom, hsize⟩ := List.forall_mem_cons.mp hsize
    have hcontrol (b : UInt8) (hb : b.toNat < 0x20) : b ∉ Text.bytes s := fun hmem =>
      Nat.not_le.mpr hb (hs.le_of_mem_bytes hmem)
    have hkept := feedOnto_append (hcontrol newline (by decide)) [] 0 (by omega) done
    have hend (size : Nat) : step ⟨(Text.bytes s).reverse, size, false⟩ newline =
        ({}, some (.text s)) := by
      simp [step, finish_bytes (hcontrol carriageReturn (by decide))]
    rw [List.flatMap_cons, List.append_assoc, hkept, List.append_nil, List.singleton_append,
      feedOnto, hend]
    simp only
    rw [ih _ hprint hsize]
    simp

/-- **Printable lines come in as they were sent.** -/
theorem feed_lines {texts : List String} (hprint : ∀ s ∈ texts, Printable s.toList)
    (hsize : ∀ s ∈ texts, (Text.bytes s).length ≤ longest) :
    feed {} (texts.flatMap fun s => Text.bytes s ++ [newline]) = ({}, texts.map .text) :=
  feedOnto_lines [] hprint hsize

end LineReader

end Harvest
