import Harvest.Event

/-! What is written of an event is read back as it was. So an item of a reply is an event exactly
if it is the written form of a valid one, as far as the items come from events. -/

namespace Harvest.Event

theorem mapM_some_of_map {f : α → β} {g : β → Option α} (h : ∀ a, g (f a) = some a)
    (xs : List α) : (xs.map f).mapM g = some xs := by
  induction xs with
  | nil => rfl
  | cons a rest ih => simp [h, ih]

theorem tags?_tagsJson (tags : List (List String)) : tags? (tagsJson tags) = some tags := by
  have ht (texts : List String) : (Json.ofList .str texts).items?.bind (·.mapM Json.text?) =
      some texts :=
    mapM_some_of_map (f := Json.str) (g := Json.text?) (fun _ => rfl) texts
  exact mapM_some_of_map (f := Json.ofList .str)
    (g := fun tag => tag.items?.bind (·.mapM Json.text?)) ht tags

theorem natBelow?_nat {n limit : Nat} (h : n < limit) : (Json.nat n).natBelow? limit = some n := by
  simp [Json.nat, Json.natBelow?, h]

theorem ofJson?_toJson (e : Event) : ofJson? e.toJson = some e := by
  have hc : UInt64.ofNat e.createdAt.toNat = e.createdAt := UInt64.ofNat_toNat
  have hk : UInt32.ofNat e.kind.toNat = e.kind := UInt32.ofNat_toNat
  have hf : e.toJson.fields? fieldNames =
      some [.str e.id, .str e.pubkey, .nat e.createdAt.toNat, .nat e.kind.toNat, tagsJson e.tags,
        .str e.content, .str e.sig] := rfl
  rw [ofJson?, hf]
  simp only [Option.bind_some, ofFields?, natBelow?_nat e.createdAt.toNat_lt,
    natBelow?_nat e.kind.toNat_lt, tags?_tagsJson]
  simp [Json.text?]

theorem parse_toJson (e : Event) : parse e.toJson = e.validate.map fun _ => e := by
  rw [parse, ofJson?_toJson]

theorem parse_toJson_of_valid {e : Event} (h : e.validate = .ok ()) : parse e.toJson = .ok e := by
  rw [parse_toJson, h]; rfl

theorem eq_of_parse_toJson {e f : Event} (h : parse e.toJson = .ok f) : f = e := by
  rw [parse_toJson] at h
  cases hv : e.validate with
  | error fault => rw [hv] at h; cases h
  | ok _ => rw [hv] at h; cases h; rfl

end Harvest.Event
