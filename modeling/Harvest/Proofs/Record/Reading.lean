import Harvest.Proofs.Text.Utf8
import Harvest.Record
import Mathlib.Algebra.Ring.Nat

/-! What is written to a record is read back from it, whatever follows. The lengths in a record are
numbers of 64 bits, so it is asked for that the record is not longer than such a number can say. -/

namespace Harvest.Record

variable {α β : Type}

/-! ## Reading in steps -/

theorem bind_of_ok {get : Get α} {f : α → Get β} {bytes rest : List UInt8} {a : α}
    (h : get bytes = .ok (a, rest)) : (get >>= f) bytes = f a rest := by
  show Get.bind get f bytes = f a rest
  rw [Get.bind, h]

/-- What `put` writes is read by `get`, and is at least one byte. -/
structure Reads (put : α → List UInt8) (get : Get α) : Prop where
  ne_nil : ∀ a, put a ≠ []
  read : ∀ a rest, (put a).length < UInt64.size → get (put a ++ rest) = .ok (a, rest)

/-- A record is read whole. -/
theorem Reads.read_put {put : α → List UInt8} {get : Get α} (h : Reads put get) {a : α}
    (hlen : (put a).length < UInt64.size) : Record.read get (put a) = .ok a := by
  have hread := h.read a [] hlen
  rw [List.append_nil] at hread
  rw [Record.read, hread]
  rfl

/-! ## Numbers -/

theorem putNat_ne_nil (n : Nat) : putNat n ≠ [] := by
  rw [putNat]
  split
  · exact List.cons_ne_nil _ _
  · exact List.cons_ne_nil _ _

/-- A number is read back where its bits fit in the bytes, the last of which is cut. -/
theorem getNat_putNat {top : Nat} (htop : top < 128) (places : Nat) {n : Nat}
    (h : n < (top + 1) * 128 ^ places) (rest : List UInt8) :
    getNat top (places + 1) (putNat n ++ rest) = .ok (n, rest) := by
  induction places generalizing n with
  | zero =>
    have hn : n < 128 := by omega
    have hb : (UInt8.ofNat n).toNat = n := UInt8.toNat_ofNat_of_lt' (Nat.lt_trans hn (by decide))
    rw [putNat, if_pos hn, List.singleton_append, getNat, hb, if_pos hn, if_neg (by omega)]
  | succ places ih =>
    rw [putNat]
    split
    · rename_i hn
      have hb : (UInt8.ofNat n).toNat = n := UInt8.toNat_ofNat_of_lt' (Nat.lt_trans hn (by decide))
      rw [List.singleton_append, getNat, hb, if_pos hn, if_neg (by omega)]
    · rename_i hn
      have hb : (UInt8.ofNat (n % 128 + 128)).toNat = n % 128 + 128 :=
        UInt8.toNat_ofNat_of_lt' (show n % 128 + 128 < 256 by omega)
      have hdiv : n / 128 < (top + 1) * 128 ^ places := by
        apply Nat.div_lt_of_lt_mul
        calc n < (top + 1) * 128 ^ (places + 1) := h
          _ = 128 * ((top + 1) * 128 ^ places) := by rw [Nat.pow_succ]; ac_rfl
      rw [List.cons_append, getNat, hb, if_neg (by omega), ih hdiv]
      dsimp only
      rw [show n % 128 + 128 - 128 + 128 * (n / 128) = n by omega]

theorem getNat64_putNat {n : Nat} (h : n < UInt64.size) (rest : List UInt8) :
    getNat64 (putNat n ++ rest) = .ok (n, rest) := getNat_putNat (by decide) 9 h rest

theorem getNat32_putNat {n : Nat} (h : n < UInt32.size) (rest : List UInt8) :
    getNat32 (putNat n ++ rest) = .ok (n, rest) := getNat_putNat (by decide) 4 h rest

theorem reads_uint64 : Reads putUInt64 getUInt64 where
  ne_nil n := putNat_ne_nil n.toNat
  read n rest _ := by
    rw [putUInt64, getUInt64, bind_of_ok (getNat64_putNat n.toNat_lt rest), UInt64.ofNat_toNat]
    rfl

theorem reads_uint32 : Reads (fun n : UInt32 => putNat n.toNat) getUInt32 where
  ne_nil n := putNat_ne_nil n.toNat
  read n rest _ := by
    rw [getUInt32, bind_of_ok (getNat32_putNat n.toNat_lt rest), UInt32.ofNat_toNat]
    rfl

/-! ## Texts and lists -/

theorem getBytes_append (bytes rest : List UInt8) :
    getBytes bytes.length (bytes ++ rest) = .ok (bytes, rest) := by
  rw [getBytes, if_pos (by simp), List.take_left, List.drop_left]

theorem reads_text : Reads putText getText where
  ne_nil s := List.append_ne_nil_of_left_ne_nil (putNat_ne_nil _) _
  read s rest h := by
    have hlen : (Text.bytes s).length < UInt64.size := by
      have hput : (putText s).length = (putNat (Text.bytes s).length).length +
          (Text.bytes s).length := List.length_append
      omega
    have hs : putText s ++ rest = putNat (Text.bytes s).length ++ (Text.bytes s ++ rest) :=
      List.append_assoc ..
    rw [hs, getText, bind_of_ok (getNat64_putNat hlen _), bind_of_ok (getBytes_append ..),
      Text.fromUTF8?_bytes]
    rfl

variable {put : α → List UInt8} {get : Get α}

theorem Reads.length_le (h : Reads put get) (items : List α) :
    items.length ≤ (items.flatMap put).length := by
  induction items with
  | nil => exact Nat.le_refl _
  | cons a rest ih =>
    have ha := List.length_pos_iff.mpr (h.ne_nil a)
    rw [List.flatMap_cons, List.length_append, List.length_cons]
    omega

theorem Reads.items (h : Reads put get) (items : List α) (rest : List UInt8)
    (hlen : (items.flatMap put).length < UInt64.size) :
    getItems get items.length (items.flatMap put ++ rest) = .ok (items, rest) := by
  induction items with
  | nil => rfl
  | cons a more ih =>
    rw [List.flatMap_cons, List.length_append] at hlen
    rw [List.flatMap_cons, List.append_assoc, List.length_cons, getItems,
      bind_of_ok (h.read a _ (by omega)), bind_of_ok (ih (by omega))]
    rfl

theorem Reads.list (h : Reads put get) : Reads (putList put) (getList get) where
  ne_nil items := List.append_ne_nil_of_left_ne_nil (putNat_ne_nil _) _
  read items rest hlen := by
    rw [putList, List.length_append] at hlen
    have hitems := h.length_le items
    rw [putList, List.append_assoc, getList, bind_of_ok (getNat64_putNat (by omega) _)]
    exact h.items items rest (by omega)

/-! ## Relays -/

theorem reads_bool : Reads putBool getBool where
  ne_nil b := List.cons_ne_nil _ _
  read b rest _ := by cases b <;> rfl

theorem Reads.option (h : Reads put get) : Reads (putOption put) (getOption get) where
  ne_nil a := by cases a <;> exact List.cons_ne_nil _ _
  read a rest hlen := by
    cases a with
    | none => rfl
    | some a =>
      have ha : (put a).length < UInt64.size := Nat.lt_of_succ_lt hlen
      have hput : putOption put (some a) ++ rest = 1 :: (put a ++ rest) := rfl
      rw [hput, getOption, bind_of_ok (a := (1 : UInt8)) rfl, if_neg (by decide), if_pos rfl,
        bind_of_ok (h.read a rest ha)]
      rfl

theorem reads_route : Reads putRoute getRoute where
  ne_nil route := by cases route <;> exact putNat_ne_nil _
  read route rest _ := by
    cases route <;> rw [putRoute, getRoute, bind_of_ok (getNat32_putNat (by decide) rest)] <;> rfl

theorem reads_relay : Reads putRelay getRelay where
  ne_nil r := by simp [putRelay, putText, putNat_ne_nil]
  read r rest hlen := by
    have hoption := reads_uint64.option
    simp only [putRelay, List.length_append] at hlen
    simp only [putRelay, List.append_assoc]
    rw [getRelay, bind_of_ok (reads_text.read _ _ (by omega)),
      bind_of_ok (reads_route.read _ _ (by omega)), bind_of_ok (hoption.read _ _ (by omega)),
      bind_of_ok (hoption.read _ _ (by omega)), bind_of_ok (hoption.read _ _ (by omega)),
      bind_of_ok (hoption.read _ _ (by omega)), bind_of_ok (reads_bool.read _ _ (by omega))]
    rfl

/-- **A relay is read back as it was written.** -/
theorem read_putRelay {r : Relay} (h : (putRelay r).length < UInt64.size) :
    read getRelay (putRelay r) = .ok r := reads_relay.read_put h

/-- Whether a relay is enabled takes one byte either way. -/
theorem length_putRelay_setEnabled (r : Relay) (on : Bool) :
    (putRelay (r.setEnabled on)).length = (putRelay r).length := by
  simp [putRelay, Relay.setEnabled, putBool]

/-! ## Events -/

theorem reads_event : Reads putEvent getEvent where
  ne_nil e := by simp [putEvent, putText, putNat_ne_nil]
  read e rest hlen := by
    simp only [putEvent, List.length_append] at hlen
    simp only [putEvent, List.append_assoc]
    rw [getEvent, bind_of_ok (reads_text.read _ _ (by omega)),
      bind_of_ok (reads_text.read _ _ (by omega)), bind_of_ok (reads_uint64.read _ _ (by omega)),
      bind_of_ok (reads_uint32.read e.kind _ (by omega)),
      bind_of_ok (reads_text.list.list.read _ _ (by omega)),
      bind_of_ok (reads_text.read _ _ (by omega)), bind_of_ok (reads_text.read _ _ (by omega))]
    rfl

theorem reads_storedEvent : Reads putStoredEvent getStoredEvent where
  ne_nil e := by simp [putStoredEvent, reads_event.ne_nil]
  read e rest hlen := by
    simp only [putStoredEvent, List.length_append] at hlen
    simp only [putStoredEvent, List.append_assoc]
    rw [getStoredEvent, bind_of_ok (reads_event.read _ _ (by omega)),
      bind_of_ok (reads_text.read _ _ (by omega)), bind_of_ok (reads_uint64.read _ _ (by omega))]
    rfl

/-- **A stored event is read back as it was written.** -/
theorem read_putStoredEvent {e : StoredEvent} (h : (putStoredEvent e).length < UInt64.size) :
    read getStoredEvent (putStoredEvent e) = .ok e := reads_storedEvent.read_put h

end Harvest.Record
