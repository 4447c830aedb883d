import Harvest.Event.Sample
import Harvest.Proofs.Event.Reading
import Harvest.Proofs.Json.Unambiguous
import Harvest.Proofs.Text.Utf8

/-! What the id of an event stands for. The canonical text tells key, time, kind, tags and content,
so an id can stand for two contents only where two texts have the same hash. -/

namespace Harvest

namespace Text.Hex

theorem value?_digit : ∀ n < 16, value? (digit n) = some n := by decide

theorem decode?_encode (bytes : List UInt8) : decode? (encode bytes) = some bytes := by
  induction bytes with
  | nil => rfl
  | cons b rest ih =>
    have hb := b.toNat_lt
    have he : encode (b :: rest) =
      digit (b.toNat / 16) :: digit (b.toNat % 16) :: encode rest := rfl
    have hn : 16 * (b.toNat / 16) + b.toNat % 16 = b.toNat := Nat.div_add_mod ..
    rw [he, decode?, value?_digit _ (by omega), value?_digit _ (by omega), ih]
    dsimp only
    rw [hn, UInt8.ofNat_toNat]

theorem encode_inj {a b : List UInt8} (h : encode a = encode b) : a = b := by
  have hd := congrArg decode? h
  rw [decode?_encode, decode?_encode] at hd
  exact Option.some.inj hd

theorem utf8Size_of_isDigit {c : Char} (h : isDigit c = true) : c.utf8Size = 1 := by
  simp only [isDigit, Bool.or_eq_true, Bool.and_eq_true, decide_eq_true_eq] at h
  have hc : c.val ≤ 0x7f := by
    rcases h with ⟨-, h⟩ | ⟨-, h⟩
    · exact UInt32.le_trans h (by decide)
    · exact UInt32.le_trans h (by decide)
  exact if_pos hc

theorem utf8ByteSize_digits {digits : List Char} (h : ∀ c ∈ digits, isDigit c = true) :
    (String.ofList digits).utf8ByteSize = digits.length := by
  induction digits with
  | nil => rfl
  | cons c rest ih =>
    have hc := utf8Size_of_isDigit (h c (List.mem_cons_self ..))
    have hrest := ih fun d hd => h d (List.mem_cons_of_mem _ hd)
    rw [String.ofList_cons, String.utf8ByteSize_append, String.utf8ByteSize_singleton, hc, hrest,
      List.length_cons, Nat.add_comm]

end Text.Hex

/-- Two messages that are not the same, and have the same hash. -/
def Digest.Sha256.Collide (a b : List UInt8) : Prop := a ≠ b ∧ digest a = digest b

namespace Event

/-- All that an id is the hash of is the same. -/
structure SameContent (a b : Event) : Prop where
  pubkey : a.pubkey = b.pubkey
  createdAt : a.createdAt = b.createdAt
  kind : a.kind = b.kind
  tags : a.tags = b.tags
  content : a.content = b.content

def canonicalBytes (e : Event) : List UInt8 := Text.bytes e.canonicalText

variable {a b : Event}

/-! ## The canonical text -/

theorem canonicalBytes_of_sig (e : Event) (sig : String) :
    canonicalBytes { e with sig } = e.canonicalBytes := rfl

theorem whole_strings (texts : List String) : (Json.ofList .str texts).Whole := by
  show Json.WholeItems (texts.map .str)
  induction texts with
  | nil => trivial
  | cons text rest ih => exact ⟨trivial, ih⟩

theorem whole_tagsJson (tags : List (List String)) : (tagsJson tags).Whole := by
  show Json.WholeItems (tags.map (Json.ofList .str))
  induction tags with
  | nil => trivial
  | cons tag rest ih => exact ⟨whole_strings tag, ih⟩

theorem whole_canonical (e : Event) : e.canonical.Whole :=
  ⟨trivial, trivial, trivial, trivial, whole_tagsJson e.tags, trivial, trivial⟩

/-- **No two contents have one text.** -/
theorem sameContent_of_text (h : a.canonicalText = b.canonicalText) : a.SameContent b := by
  have hc : a.canonical = b.canonical :=
    Json.text_inj (whole_canonical a) (whole_canonical b) h
  simp only [canonical, Json.nat, Json.arr.injEq, List.cons.injEq, Json.str.injEq, Json.num.injEq,
    Json.Number.int.injEq, Int.natCast_inj, and_true, true_and] at hc
  obtain ⟨hpubkey, hcreated, hkind, htags, hcontent⟩ := hc
  refine ⟨hpubkey, UInt64.toNat_inj.mp hcreated, UInt32.toNat_inj.mp hkind, ?_, hcontent⟩
  have ht := congrArg tags? htags
  rw [tags?_tagsJson, tags?_tagsJson] at ht
  exact Option.some.inj ht

theorem canonicalBytes_inj (h : a.canonicalBytes = b.canonicalBytes) :
    a.canonicalText = b.canonicalText := Text.bytes_inj h

/-! ## Ids -/

/-- Two events with one computed id have one content, or their texts collide. -/
theorem sameContent_or_collide (h : a.computedId = b.computedId) :
    a.SameContent b ∨ Digest.Sha256.Collide a.canonicalBytes b.canonicalBytes := by
  by_cases hb : a.canonicalBytes = b.canonicalBytes
  · exact .inl (sameContent_of_text (canonicalBytes_inj hb))
  · exact .inr ⟨hb, Text.Hex.encode_inj (String.ofList_inj.mp h)⟩

theorem validate_iff (e : Event) :
    e.validate = .ok () ↔
      (∀ field, hexOk field (e.hexText field) = true) ∧ e.computedId = e.id := by
  unfold validate
  split
  · rename_i field hfind
    constructor
    · intro h
      cases h
    · intro h
      have hbad := List.find?_some hfind
      rw [h.1 field] at hbad
      cases hbad
  · rename_i hfind
    have hok : ∀ field, hexOk field (e.hexText field) = true := by
      intro field
      have hfield := List.find?_eq_none.mp hfind field (by cases field <;> decide)
      simpa using hfield
    dsimp only
    split
    · rename_i hid
      simp [hok, hid]
    · rename_i hid
      simp [hid]

/-- Whatever its content, the id of an event has the digits that an id is to have. -/
theorem hexOk_computedId (e : Event) : hexOk .id e.computedId = true := by
  have hdigits : ∀ c ∈ Text.Hex.encode (Digest.Sha256.digest e.canonicalText.toUTF8.toList),
      Text.Hex.isDigit c = true := fun c => Text.Hex.isDigit_of_mem_encode
  rw [hexOk, computedId, Text.Hex.utf8ByteSize_digits hdigits, String.toList_ofList,
    List.all_eq_true.mpr hdigits, Text.Hex.length_encode, Digest.Sha256.length_digest]
  rfl

theorem SameContent.eq (h : a.SameContent b) (hid : a.id = b.id) : b = { a with sig := b.sig } := by
  obtain ⟨hpubkey, hcreated, hkind, htags, hcontent⟩ := h
  cases a
  cases b
  simp_all

/-- **The id binds the event.** Equal texts have equal contents. Valid events of one id differ at
most in their signature, and an event that takes the id of a valid one for another content is
refused, unless two texts collide. -/
theorem id_binds_content :
    (∀ a b : Event, a.canonicalText = b.canonicalText → a.SameContent b) ∧
    (∀ a b : Event, a.validate = .ok () → b.validate = .ok () → a.id = b.id →
      b = { a with sig := b.sig } ∨
        Digest.Sha256.Collide a.canonicalBytes b.canonicalBytes) ∧
    (∀ a b : Event, a.validate = .ok () → b.id = a.id → ¬ a.SameContent b →
      (∃ fault, b.validate = .error fault) ∨
        Digest.Sha256.Collide a.canonicalBytes b.canonicalBytes) := by
  have valid {a b : Event} (ha : a.validate = .ok ()) (hb : b.validate = .ok ())
      (hid : a.id = b.id) :
      a.SameContent b ∨ Digest.Sha256.Collide a.canonicalBytes b.canonicalBytes := by
    apply sameContent_or_collide
    rw [((validate_iff a).mp ha).2, ((validate_iff b).mp hb).2, hid]
  refine ⟨fun a b h => sameContent_of_text h, ?_, ?_⟩
  · intro a b ha hb hid
    rcases valid ha hb hid with hsame | hcollide
    · exact .inl (hsame.eq hid)
    · exact .inr hcollide
  · intro a b ha hid hne
    cases hb : b.validate with
    | error fault => exact .inl ⟨fault, rfl⟩
    | ok _ => exact .inr ((valid ha hb hid.symm).resolve_left hne)

/-- Two signatures of one event, and an event that claims the id of another. Its tag is cut in two
where that of the other has a quote, a comma and a quote. -/
theorem id_binds_content_forged :
    let genuine := build (repeated "a1") 5 1 [["t", "x\",\"y"]] "\\\n"
    let signed := { genuine with sig := repeated "2b" ++ repeated "c3" }
    let forged := { genuine with tags := [["t", "x", "y"]] }
    genuine.validate = .ok () ∧ signed.validate = .ok () ∧ genuine.id = signed.id ∧
      signed = { genuine with sig := signed.sig } ∧ ¬ genuine.SameContent forged ∧
      ∃ fault, forged.validate = .error fault := by
  intro genuine signed forged
  have hvalid (sig : String) (hsig : hexOk .sig sig = true) :
      { genuine with sig }.validate = .ok () := by
    refine (validate_iff _).mpr ⟨fun field => ?_, rfl⟩
    cases field with
    | id => exact hexOk_computedId _
    | pubkey =>
      show hexOk .pubkey (repeated "a1") = true
      decide +kernel
    | sig => exact hsig
  have hgenuine : genuine.validate = .ok () := hvalid _ (by decide +kernel)
  have hsigned : signed.validate = .ok () := hvalid _ (by decide +kernel)
  have hdigest : Digest.Sha256.digest genuine.canonicalBytes ≠
      Digest.Sha256.digest forged.canonicalBytes := by
    clear hgenuine hsigned hvalid
    revert genuine signed forged
    decide +kernel
  have hne : ¬ genuine.SameContent forged := fun h => absurd h.tags (by decide)
  obtain ⟨-, hsame, hother⟩ := id_binds_content
  refine ⟨hgenuine, hsigned, rfl, ?_, hne, ?_⟩
  · exact (hsame genuine signed hgenuine hsigned rfl).resolve_right fun h =>
      h.1 (canonicalBytes_of_sig genuine _).symm
  · exact (hother genuine forged hgenuine rfl hne).resolve_right fun h => hdigest h.2

end Event

end Harvest
