import Harvest.Log.Entry
import Harvest.Proofs.Json.Lines
import Harvest.Proofs.Json.RoundTrip

/-! An entry is written as one line, and that line is read back as the entry, whatever stands in
its texts. Its members stand in an order of their own, the optional ones last. -/

namespace Harvest.Log.Entry

open Json (Draft Slot ReadsAs MembersReadAs)

/-- The fields, if there are any, are a value that can be told from none, with integers for numbers
and no deeper than a reader goes below the entry. -/
def Plain (e : Entry) : Prop := ∀ v ∈ e.fields, v ≠ .null ∧ v.Fits (Draft.deepest - 1)

/-! ## Reading -/

/-- A value that is not null is read as something. -/
theorem exists_fields {v : Json} (hne : v ≠ .null) (h : v.Fits (Draft.deepest - 1)) :
    ∃ d, ReadsAs v d ∧ Draft.optional? (Draft.json? (Draft.deepest - 1)) d = some (some v) := by
  obtain ⟨d, hd⟩ := Json.exists_draft h.integral h.ordered
  have hjson : d.json? (Draft.deepest - 1) = some v := hd.json _ h.depth_le
  have hnull : d ≠ .null := by
    rintro rfl
    exact hne (Option.some.inj hjson).symm
  refine ⟨d, hd, ?_⟩
  rw [Draft.optional?, hjson]
  · rfl
  · exact hnull

/-- The members that an entry may lack. -/
def optionals (e : Entry) : List (String × Json) :=
  (match e.fields with | some v => [("fields", v)] | none => []) ++
    (match e.span with | some s => [("span", .str s)] | none => [])

theorem toJson_eq (e : Entry) : e.toJson = .obj ([("ts", .str e.ts), ("level", .str e.level),
    ("instance", .str e.source), ("target", .str e.target), ("msg", .str e.msg)] ++ e.optionals) :=
  congrArg Json.obj (List.append_assoc ..)

/-- Behind the texts of an entry, its optional members are taken up as they are. -/
theorem exists_optionals {e : Entry} (h : e.Plain) : ∃ es, MembersReadAs e.optionals es ∧
    ∀ ts level source target msg,
      Draft.setMembers parts ["msg", "target", "instance", "level", "ts"] es
          { ts, level, source, target, msg } =
        some { ts, level, source, target, msg, fields := e.fields, span := e.span } := by
  obtain ⟨_, _, _, _, _, fields, span⟩ := e
  cases fields with
  | none =>
    cases span with
    | none => exact ⟨_, .nil, fun _ _ _ _ _ => rfl⟩
    | some s => exact ⟨_, .cons (.str s) .nil, fun _ _ _ _ _ => rfl⟩
  | some v =>
    obtain ⟨hne, hfits⟩ := h v rfl
    obtain ⟨d, hd, hread⟩ := exists_fields hne hfits
    have hspan (s : String) : Draft.optional? Draft.text? (.str (some s)) = some (some s) := rfl
    cases span with
    | none =>
      refine ⟨_, .cons hd .nil, fun _ _ _ _ _ => ?_⟩
      simp [Draft.setMembers, parts, Slot.of, hread]
    | some s =>
      refine ⟨_, .cons hd (.cons (.str s) .nil), fun _ _ _ _ _ => ?_⟩
      simp [Draft.setMembers, parts, Slot.of, hread, hspan]

theorem ofText?_texts (ts level source target msg : String) {ms : List (String × Json)}
    {es : List (Option String × Draft)} (h : MembersReadAs ms es) :
    Draft.ofText? (Json.obj ([("ts", .str ts), ("level", .str level), ("instance", .str source),
        ("target", .str target), ("msg", .str msg)] ++ ms)).text =
      some (.obj ([(some "ts", .str ts), (some "level", .str level),
        (some "instance", .str source), (some "target", .str target),
        (some "msg", .str msg)] ++ es)) :=
  ReadsAs.ofText?_obj_cons (.str ts)
    (.cons (.str level) (.cons (.str source) (.cons (.str target) (.cons (.str msg) h))))

/-- **An entry is read back** from the line that is written of it. -/
theorem ofLine?_line {e : Entry} (h : e.Plain) : ofLine? e.line = some e := by
  obtain ⟨es, hes, hset⟩ := exists_optionals h
  rw [ofLine?, line, toJson_eq, ofText?_texts _ _ _ _ _ hes]
  show (Draft.setMembers parts ["msg", "target", "instance", "level", "ts"] es
    { ts := e.ts, level := e.level, source := e.source, target := e.target, msg := e.msg }).bind
      ofParts? = some e
  rw [hset]
  rfl

/-! ## The line -/

theorem newline_notMem_line (e : Entry) : '\n' ∉ e.line.toList :=
  (Json.printable_text e.toJson).newline_notMem

/-- No blank stands around an entry, whatever its texts begin or end with. -/
theorem trim_line (e : Entry) : Text.Blank.trim e.line.toList = e.line.toList := by
  rw [line, Json.text, String.toList_ofList, toJson_eq]
  have hends := Json.ends_obj ([("ts", .str e.ts), ("level", .str e.level),
    ("instance", .str e.source), ("target", .str e.target), ("msg", .str e.msg)] ++ e.optionals)
  refine Text.Blank.trim_eq_self ?_ ?_
  · intro c hc
    obtain rfl := Option.some.inj (hends.1.symm.trans hc)
    decide
  · intro c hc
    obtain rfl := Option.some.inj (hends.2.symm.trans hc)
    decide

end Harvest.Log.Entry
