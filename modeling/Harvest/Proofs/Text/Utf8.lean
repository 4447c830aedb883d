/-! The bytes of a text. A text is told by its bytes, and texts are in order as their bytes are:
the first byte of a character says how many follow, and says more of them for later characters. -/

namespace Harvest.Text

def bytes (s : String) : List UInt8 := s.toUTF8.toList

/-! ## Arrays of bytes -/

theorem toList_loop (bs : ByteArray) (i : Nat) (read : List UInt8) :
    ByteArray.toList.loop bs i read = read.reverse ++ bs.data.toList.drop i := by
  fun_induction ByteArray.toList.loop bs i read with
  | case1 i read hi ih =>
    have hget : bs.get! i = bs.data[i] := getElem!_pos bs.data i hi
    have hdrop : bs.data.toList.drop i = bs.data[i] :: bs.data.toList.drop (i + 1) := by
      rw [List.drop_eq_getElem_cons (Array.length_toList ▸ hi), Array.getElem_toList]
    rw [ih, hget, hdrop, List.reverse_cons, List.append_assoc, List.singleton_append]
  | case2 i read hi =>
    have hlen : bs.data.toList.length ≤ i := Nat.le_of_not_lt hi
    rw [List.drop_eq_nil_of_le hlen, List.append_nil]

theorem toList_eq (bs : ByteArray) : bs.toList = bs.data.toList := by
  rw [ByteArray.toList, toList_loop, List.reverse_nil, List.nil_append, List.drop_zero]

theorem toByteArray_bytes (s : String) : ByteArray.mk (bytes s).toArray = s.toUTF8 := by
  rw [bytes, toList_eq, Array.toArray_toList]

theorem bytes_inj {s t : String} (h : bytes s = bytes t) : s = t := by
  apply String.toByteArray_inj.mp
  show s.toUTF8 = t.toUTF8
  rw [← toByteArray_bytes, ← toByteArray_bytes, h]

/-- Reading the bytes of a text gives it back. -/
theorem fromUTF8?_bytes (s : String) :
    String.fromUTF8? (ByteArray.mk (bytes s).toArray) = some s := by
  rw [toByteArray_bytes]
  exact dif_pos s.isValidUTF8

theorem bytes_eq_flatMap (s : String) : bytes s = s.toList.flatMap String.utf8EncodeChar := by
  have h : s.toList.utf8Encode = s.toUTF8 := String.utf8Encode_toList
  rw [bytes, toList_eq, ← h, List.utf8Encode, List.toList_data_toByteArray]

/-! ## Order -/

/-- Bytes are in order as their first is, or as the rest where the first is the same. -/
theorem ofNat_cons_lt {m n : Nat} {s t : List UInt8} (hle : m ≤ n) (hn : n < 256)
    (h : m = n → s < t) : UInt8.ofNat m :: s < UInt8.ofNat n :: t := by
  rw [List.cons_lt_cons_iff]
  by_cases heq : m = n
  · exact .inr ⟨by rw [heq], h heq⟩
  · refine .inl (UInt8.lt_iff_toNat_lt.mpr ?_)
    rw [UInt8.toNat_ofNat_of_lt' (Nat.lt_of_le_of_lt hle hn), UInt8.toNat_ofNat_of_lt' hn]
    omega

theorem toNat_lt (c : Char) : c.val.toNat < 0x110000 := by
  have hvalid : c.val.toNat < 0xd800 ∨ 0xdfff < c.val.toNat ∧ c.val.toNat < 0x110000 := c.valid
  omega

/-- An earlier character has earlier bytes, whatever follows either. -/
theorem encodeChar_lt {a b : Char} (h : a < b) (s t : List UInt8) :
    String.utf8EncodeChar a ++ s < String.utf8EncodeChar b ++ t := by
  have hab : a.val.toNat < b.val.toNat := h
  have hb := toNat_lt b
  unfold String.utf8EncodeChar
  generalize a.val.toNat = m at hab ⊢
  generalize b.val.toNat = n at hab hb ⊢
  dsimp only
  -- On either side one, two, three or four bytes. They are alike up to some place at most: the
  -- first where they differ is the first where the numbers do, or where one character has more
  -- bytes.
  repeat' split
  all_goals repeat first
    | omega
    | refine ofNat_cons_lt (by omega) (by omega) fun _ => ?_

theorem encodeChar_append_lt (c : Char) {s t : List UInt8} (h : s < t) :
    String.utf8EncodeChar c ++ s < String.utf8EncodeChar c ++ t := by
  induction String.utf8EncodeChar c with
  | nil => exact h
  | cons b rest ih => exact List.cons_lt_cons_iff.mpr (.inr ⟨rfl, ih⟩)

theorem lt_of_compare {s t : String} (h : compare s t = .lt) : s < t :=
  compareOfLessAndEq_eq_lt.mp h

theorem bytes_lt {s t : String} (h : s < t) : bytes s < bytes t := by
  rw [bytes_eq_flatMap, bytes_eq_flatMap]
  have hl : List.Lex (· < ·) s.toList t.toList := h
  generalize s.toList = as at hl
  generalize t.toList = bs at hl
  induction hl with
  | nil =>
    rename_i b bs
    rw [List.flatMap_nil, List.flatMap_cons]
    cases hb : String.utf8EncodeChar b with
    | nil => exact absurd hb String.utf8EncodeChar_ne_nil
    | cons u rest => exact List.nil_lt_cons ..
  | cons _ ih => exact encodeChar_append_lt _ ih
  | rel hab => exact encodeChar_lt hab ..

theorem bytes_le {s t : String} (h : s ≤ t) : bytes s ≤ bytes t := by
  by_cases hts : t ≤ s
  · exact Std.le_of_eq (congrArg bytes (String.le_antisymm h hts))
  · exact Std.le_of_lt (bytes_lt (String.not_le.mp hts))

end Harvest.Text
