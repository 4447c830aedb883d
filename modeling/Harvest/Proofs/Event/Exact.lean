import Harvest.Proofs.Event.Identity
import Harvest.Proofs.Json.RoundTrip

/-! Which events are taken. The written form of an event is read as that event if and only if its
digits are in order and its id is that of its content; otherwise the first check that fails is told.
What is read of any value at all passes these checks, and the text of an event says the same as its
value. -/

namespace Harvest

/-- So many digits of a hexadecimal number, its letters in lower case. -/
structure LowerHex (size : Nat) (text : String) : Prop where
  length : text.length = size
  digits : ∀ c ∈ text.toList, '0' ≤ c ∧ c ≤ '9' ∨ 'a' ≤ c ∧ c ≤ 'f'

namespace Event

/-- The digits of id, key and signature are in order, and the id is that of the content. -/
structure Genuine (e : Event) : Prop where
  id : LowerHex 64 e.id
  pubkey : LowerHex 64 e.pubkey
  sig : LowerHex 128 e.sig
  computed : e.id = e.computedId

/-- The first check that an event does not pass. -/
inductive Rejected (e : Event) : ItemFault → Prop
  | id : ¬ LowerHex 64 e.id → Rejected e (.badHex .id)
  | pubkey : LowerHex 64 e.id → ¬ LowerHex 64 e.pubkey → Rejected e (.badHex .pubkey)
  | sig : LowerHex 64 e.id → LowerHex 64 e.pubkey → ¬ LowerHex 128 e.sig →
      Rejected e (.badHex .sig)
  | content : LowerHex 64 e.id → LowerHex 64 e.pubkey → LowerHex 128 e.sig →
      e.id ≠ e.computedId → Rejected e (.idMismatch e.id e.computedId)

variable {e : Event} {fault : ItemFault}

/-! ## The checks -/

theorem isDigit_iff {c : Char} :
    Text.Hex.isDigit c = true ↔ '0' ≤ c ∧ c ≤ '9' ∨ 'a' ≤ c ∧ c ≤ 'f' := by
  simp [Text.Hex.isDigit]

/-- Each digit is one byte, so a text has as many digits as bytes. -/
theorem hexOk_iff {field : HexField} {text : String} :
    hexOk field text = true ↔ LowerHex field.size text := by
  have hsize (h : ∀ c ∈ text.toList, Text.Hex.isDigit c = true) :
      text.utf8ByteSize = text.length := by
    have hdigits := Text.Hex.utf8ByteSize_digits h
    rwa [String.ofList_toList, String.length_toList] at hdigits
  rw [hexOk, Bool.and_eq_true, beq_iff_eq, List.all_eq_true]
  constructor
  · rintro ⟨hbytes, hdigits⟩
    exact ⟨(hsize hdigits).symm.trans hbytes, fun c hc => isDigit_iff.mp (hdigits c hc)⟩
  · rintro ⟨hlength, hdigits⟩
    have hall : ∀ c ∈ text.toList, Text.Hex.isDigit c = true := fun c hc =>
      isDigit_iff.mpr (hdigits c hc)
    exact ⟨(hsize hall).trans hlength, hall⟩

theorem genuine_iff : e.Genuine ↔ e.validate = .ok () := by
  rw [validate_iff]
  constructor
  · intro h
    refine ⟨fun field => ?_, h.computed.symm⟩
    cases field with
    | id => exact hexOk_iff.mpr h.id
    | pubkey => exact hexOk_iff.mpr h.pubkey
    | sig => exact hexOk_iff.mpr h.sig
  · rintro ⟨hhex, hid⟩
    exact ⟨hexOk_iff.mp (hhex .id), hexOk_iff.mp (hhex .pubkey), hexOk_iff.mp (hhex .sig), hid.symm⟩

theorem validate_of_rejected (h : e.Rejected fault) : e.validate = .error fault := by
  have hbad (field : HexField) (h : ¬ LowerHex field.size (e.hexText field)) :
      (!hexOk field (e.hexText field)) = true := by
    simpa using mt hexOk_iff.mp h
  have hgood (field : HexField) (h : LowerHex field.size (e.hexText field)) :
      (!hexOk field (e.hexText field)) = false := by
    simpa using hexOk_iff.mpr h
  cases h with
  | id hid => simp only [validate, List.find?_cons, hbad .id hid]
  | pubkey hid hpubkey =>
    simp only [validate, List.find?_cons, hgood .id hid, hbad .pubkey hpubkey]
  | sig hid hpubkey hsig =>
    simp only [validate, List.find?_cons, hgood .id hid, hgood .pubkey hpubkey, hbad .sig hsig]
  | content hid hpubkey hsig hne =>
    simp only [validate, List.find?_cons, List.find?_nil, hgood .id hid, hgood .pubkey hpubkey,
      hgood .sig hsig, if_neg hne.symm]

/-- An event passes all checks, or there is a first one that it does not pass. -/
theorem genuine_or_rejected (e : Event) : e.Genuine ∨ ∃ fault, e.Rejected fault := by
  by_cases hid : LowerHex 64 e.id
  case neg => exact .inr ⟨_, .id hid⟩
  by_cases hpubkey : LowerHex 64 e.pubkey
  case neg => exact .inr ⟨_, .pubkey hid hpubkey⟩
  by_cases hsig : LowerHex 128 e.sig
  case neg => exact .inr ⟨_, .sig hid hpubkey hsig⟩
  by_cases hcomputed : e.id = e.computedId
  case neg => exact .inr ⟨_, .content hid hpubkey hsig hcomputed⟩
  exact .inl ⟨hid, hpubkey, hsig, hcomputed⟩

theorem rejected_iff : e.Rejected fault ↔ e.validate = .error fault := by
  refine ⟨validate_of_rejected, fun h => ?_⟩
  rcases e.genuine_or_rejected with hgenuine | ⟨first, hfirst⟩
  · rw [genuine_iff.mp hgenuine] at h
    cases h
  · rw [validate_of_rejected hfirst] at h
    obtain rfl := Except.error.inj h
    exact hfirst

/-! ## Reading -/

theorem parse_toJson_iff : parse e.toJson = .ok e ↔ e.Genuine := by
  rw [parse_toJson, genuine_iff]
  cases e.validate <;> simp [Except.map]

theorem parse_toJson_error_iff : parse e.toJson = .error fault ↔ e.Rejected fault := by
  rw [parse_toJson, rejected_iff]
  cases e.validate <;> simp [Except.map]

/-- **What is read of a value passes the checks**, whatever the value was. -/
theorem genuine_of_parse {v : Json} (h : parse v = .ok e) : e.Genuine := by
  unfold parse at h
  split at h
  · cases h
  · rename_i read _
    rw [genuine_iff]
    cases hv : read.validate with
    | error fault =>
      rw [hv] at h
      cases h
    | ok =>
      rw [hv] at h
      cases h
      exact hv

theorem genuine_build {pubkey : String} (h : LowerHex 64 pubkey) (createdAt : UInt64) (kind : UInt32)
    (tags : List (List String)) (content : String) :
    (build pubkey createdAt kind tags content).Genuine where
  id := hexOk_iff.mp (hexOk_computedId _)
  pubkey := h
  sig := hexOk_iff.mp (by decide +kernel : hexOk .sig (String.ofList (List.replicate 128 '0')) = true)
  computed := rfl

/-- The values of an event in the order of its fields, without their names. -/
def fieldsJson (e : Event) : List Json :=
  [.str e.id, .str e.pubkey, .nat e.createdAt.toNat, .nat e.kind.toNat, tagsJson e.tags,
    .str e.content, .str e.sig]

theorem ofJson?_fieldsJson (e : Event) : ofJson? (.arr e.fieldsJson) = some e := by
  have hnamed : e.toJson.fields? fieldNames = some e.fieldsJson := rfl
  have hplaced : (Json.arr e.fieldsJson).fields? fieldNames = some e.fieldsJson := rfl
  rw [← ofJson?_toJson e, ofJson?, ofJson?, hnamed, hplaced]

/-- Four levels of nesting: the event, its tags, a tag and the texts in it. -/
theorem fits_toJson (e : Event) : e.toJson.Fits Json.Draft.deepest := by
  have htags : (tagsJson e.tags).Fits 126 := by
    refine .arr fun tag htag => ?_
    obtain ⟨texts, -, rfl⟩ := List.mem_map.mp htag
    refine .arr fun text htext => ?_
    obtain ⟨s, -, rfl⟩ := List.mem_map.mp htext
    exact .str s
  have hkind : e.kind.toNat < UInt64.size := Nat.lt_trans e.kind.toNat_lt (by decide)
  have hnames : ["content", "created_at", "id", "kind", "pubkey", "sig", "tags"].Pairwise (· < ·) := by
    decide
  refine .obj (Json.sorted_of_names rfl hnames) ?_
  simp only [List.forall_mem_cons]
  exact ⟨.str _, .nat e.createdAt.toNat_lt, .str _, .nat hkind, .str _, .str _, htags,
    List.forall_mem_nil _⟩

/-- The text of an event is read as its value. -/
theorem ofText?_toJson (e : Event) : Json.ofText? e.toJson.text = some e.toJson :=
  Json.ofChars?_text e.fits_toJson

/-- **Reading an event is exact.** The written form of an event is read as the event if and only if
the digits of id, key and signature are in order and the id is that of the content, and else the
fault is that of the first check that fails. Any value that is read as an event is one that passes
the checks, and its written form is read again. An event that is built with a key in order is read.
The text of an event is read as the same event, and is taken or refused as its value is; so is the
array of its fields. -/
theorem parse_exact :
    (∀ e : Event, (parse e.toJson = .ok e ↔ e.Genuine) ∧
      ∀ fault, parse e.toJson = .error fault ↔ e.Rejected fault) ∧
    (∀ (v : Json) (e : Event), parse v = .ok e →
      e.validate = .ok () ∧ parse e.toJson = .ok e) ∧
    (∀ (pubkey : String) (createdAt : UInt64) (kind : UInt32) (tags : List (List String))
      (content : String), LowerHex 64 pubkey →
        parse (build pubkey createdAt kind tags content).toJson =
          .ok (build pubkey createdAt kind tags content)) ∧
    ∀ e : Event, (Json.ofText? e.toJson.text).bind ofJson? = some e ∧
      (Json.ofText? e.toJson.text).map parse = some (parse e.toJson) ∧
      parse (.arr e.fieldsJson) = parse e.toJson := by
  refine ⟨fun e => ⟨parse_toJson_iff, fun fault => parse_toJson_error_iff⟩, ?_, ?_, ?_⟩
  · intro v e h
    have hgenuine := genuine_of_parse h
    exact ⟨genuine_iff.mp hgenuine, parse_toJson_iff.mpr hgenuine⟩
  · intro pubkey createdAt kind tags content h
    exact parse_toJson_iff.mpr (genuine_build h createdAt kind tags content)
  · intro e
    rw [ofText?_toJson]
    refine ⟨ofJson?_toJson e, rfl, ?_⟩
    rw [parse, parse, ofJson?_fieldsJson, ofJson?_toJson]

/-- An event with a tag that holds quotes, read off the array of its fields; and the same with a key
in capital letters, which is refused for its key although its id does not fit either. -/
theorem parse_exact_fields :
    let pubkey := repeated "a1"
    let e := build pubkey 5 1 [["t", "x\",\"y"], []] "\\\n\x00"
    let shouted := { e with pubkey := repeated "A1" }
    LowerHex 64 pubkey ∧ parse (.arr e.fieldsJson) = .ok e ∧ e.validate = .ok () ∧
      parse e.toJson = .ok e ∧ shouted.Rejected (.badHex .pubkey) ∧
      parse shouted.toJson = .error (.badHex .pubkey) := by
  intro pubkey e shouted
  obtain ⟨hwritten, hread, hbuilt, htext⟩ := parse_exact
  have hpubkey : LowerHex 64 pubkey :=
    hexOk_iff.mp (by decide +kernel : hexOk .pubkey (repeated "a1") = true)
  have hparse : parse (.arr e.fieldsJson) = .ok e := by
    rw [(htext e).2.2]
    exact hbuilt pubkey 5 1 _ _ hpubkey
  have hcapital : ¬ LowerHex 64 (repeated "A1") := fun h =>
    absurd (hexOk_iff.mpr h : hexOk .pubkey (repeated "A1") = true) (by decide +kernel)
  have hrejected : shouted.Rejected (.badHex .pubkey) :=
    .pubkey (hexOk_iff.mp (hexOk_computedId _)) hcapital
  obtain ⟨hvalid, hagain⟩ := hread _ e hparse
  exact ⟨hpubkey, hparse, hvalid, hagain, hrejected, ((hwritten shouted).2 _).mpr hrejected⟩

end Event

end Harvest
