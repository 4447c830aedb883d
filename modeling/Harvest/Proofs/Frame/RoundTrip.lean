import Harvest.Frame
import Harvest.Proofs.Event.Reading
import Harvest.Proofs.Json.RoundTrip
import Harvest.Proofs.Link.Lines
import Mathlib

/-! Frames are lines that are read back. The reader takes more than the writer makes, as blanks,
members in any order, words after the reason of a closed request; what it makes of that is a frame
like any other, so writing it and reading it once more changes nothing. -/

namespace Harvest

namespace Frame

/-! ## The label and what follows it -/

/-- The array of a frame takes one level of nesting, which leaves the others to the values in it. -/
theorem split_text {label : String} {rest : List Json} (h : ∀ v ∈ rest, v.Fits 126) :
    split (Json.arr (.str label :: rest)).text.toList = .ok (label, rest) := by
  have hall : ∀ v ∈ Json.str label :: rest, v.Fits 126 :=
    List.forall_mem_cons.mpr ⟨.str label, h⟩
  rw [split, Json.ofChars?_text (.arr hall)]

theorem shape_split {cs : List Char} {label : String} {rest : List Json}
    (h : split cs = .ok (label, rest)) : ∀ v ∈ rest, v.Ordered ∧ v.depth ≤ 126 := by
  unfold split at h
  split at h
  case h_2 l r hread =>
    cases h
    obtain ⟨hordered, hdepth⟩ := Json.shape_ofChars? hread
    have hrest : Json.depthItems (.str label :: rest) ≤ 126 := Nat.le_of_succ_le_succ hdepth
    intro v hv
    have hmem : v ∈ Json.str label :: rest := List.mem_cons_of_mem _ hv
    exact ⟨Json.allItems_iff.mp hordered.2 v hmem, Json.depthItems_le_iff.mp hrest v hmem⟩
  all_goals cases h

end Frame

/-! ## Single frames -/

namespace Filter

theorem fits_toJson (f : Filter) : f.toJson.Fits 126 := by
  have hnames : ["limit", "since", "until"].Pairwise (· < ·) := by decide
  refine .obj (Json.sorted_of_names rfl hnames) ?_
  simp only [List.forall_mem_cons]
  exact ⟨.nat f.limit.toNat_lt_size, .nat f.since.toNat_lt_size, .nat f.upto.toNat_lt_size,
    List.forall_mem_nil _⟩

/-- The members stand in the order of their names, and are found by these. -/
theorem ofJson?_toJson (f : Filter) : ofJson? f.toJson = some f := by
  have hfields : f.toJson.fields? ["since", "until", "limit"] =
      some [.nat f.since.toNat, .nat f.upto.toNat, .nat f.limit.toNat] := by
    simp [toJson, Json.fields?, List.lookup]
  simp [ofJson?, hfields, Event.natBelow?_nat f.since.toNat_lt_size,
    Event.natBelow?_nat f.upto.toNat_lt_size, Event.natBelow?_nat f.limit.toNat_lt_size]

end Filter

namespace ClientFrame

/-- **Every frame of a client is read back** from what is written of it. -/
theorem decode_encode (f : ClientFrame) : decode f.encode = .ok f := by
  cases f with
  | req sub filter =>
    rw [decode, decodeChars, encode, toJson, Frame.split_text]
    · simp [ofParts, Filter.ofJson?_toJson, Frame.textOf, Except.map]
    · simp [Json.Fits.str, filter.fits_toJson]
  | close sub =>
    rw [decode, decodeChars, encode, toJson, Frame.split_text]
    · rfl
    · simp [Json.Fits.str]

end ClientFrame

namespace RelayFrame

/-- The payload that a frame carries. -/
def payload? : RelayFrame → Option Json
  | event _ payload => some payload
  | eose _ | closed _ _ | notice _ => none

/-- A frame of a relay is read back if its payload is, which is nested one level below it. -/
theorem decode_encode {f : RelayFrame} (h : ∀ v ∈ f.payload?, v.Fits 126) :
    decode f.encode = .ok f := by
  cases f with
  | event sub payload =>
    rw [decode, decodeChars, encode, toJson, Frame.split_text]
    · rfl
    · simp [Json.Fits.str, h payload rfl]
  | _ =>
    rw [decode, decodeChars, encode, toJson, Frame.split_text]
    · rfl
    · simp [Json.Fits.str]

theorem textOf_map {v : Json} {g : String → RelayFrame} {f : RelayFrame}
    (h : (Frame.textOf v).map g = .ok f) : ∃ s, f = g s := by
  cases v with
  | str s => exact ⟨s, (Except.ok.inj h).symm⟩
  | _ => cases h

/-- A payload is one of the values behind the label. -/
theorem mem_of_ofParts {label : String} {rest : List Json} {f : RelayFrame}
    (h : ofParts label rest = .ok f) : ∀ v ∈ f.payload?, v ∈ rest := by
  intro v hv
  unfold ofParts at h
  split at h
  case h_1 sub payload =>
    obtain ⟨t, rfl⟩ := textOf_map h
    obtain rfl := Option.some.inj hv
    simp
  case h_5 => cases h
  all_goals
    obtain ⟨t, rfl⟩ := textOf_map h
    cases hv

/-- The payload of a frame that was read leaves room for the frame around it. -/
theorem shape_decode {text : String} {f : RelayFrame} (h : decode text = .ok f) :
    ∀ v ∈ f.payload?, v.Ordered ∧ v.depth ≤ 126 := by
  rw [decode, decodeChars] at h
  split at h
  case h_1 => cases h
  case h_2 label rest hsplit =>
    exact fun v hv => Frame.shape_split hsplit v (mem_of_ofParts h v hv)

/-- A frame that was read, off whatever text, is read again from what is written of it. -/
theorem decode_encode_decode {text : String} {f : RelayFrame} (h : decode text = .ok f)
    (hint : ∀ v ∈ f.payload?, v.Integral) : decode f.encode = .ok f :=
  decode_encode fun v hv => ⟨hint v hv, (shape_decode h v hv).1, (shape_decode h v hv).2⟩

end RelayFrame

/-! ## Many frames -/

namespace Frame

/-- Frames that are written each on a line: every one is read back and holds no control character;
all are found again among the lines of their joined text, and, if they are not too long, among the
lines that come in when they are sent. -/
structure Legible {F : Type} (encode : F → String) (decode : String → Except FrameFault F)
    (frames : List F) : Prop where
  read : ∀ f ∈ frames, decode (encode f) = .ok f
  printable : ∀ f ∈ frames, Printable (encode f).toList
  joined : (Text.Blank.lines ("\n".intercalate (frames.map encode)).toList).map
    (fun line => decode (String.ofList line)) = frames.map .ok
  sent : (∀ f ∈ frames, (Text.bytes (encode f)).length ≤ LineReader.longest) →
    LineReader.feed {} (frames.flatMap fun f => Text.bytes (encode f) ++ [LineReader.newline]) =
      ({}, frames.map fun f => .text (encode f))

/-- Written values are lines, so it is enough that each frame by itself is read back. -/
theorem legible_of {F : Type} {toJson : F → Json} {decode : String → Except FrameFault F}
    {frames : List F} (hne : ∀ f, (toJson f).chars ≠ [])
    (h : ∀ f ∈ frames, decode (toJson f).text = .ok f) :
    Legible (fun f => (toJson f).text) decode frames where
  read := h
  printable f _ := (toJson f).printable_text
  joined := by
    have hlines : ∀ cs ∈ frames.map fun f => (toJson f).chars, '\n' ∉ cs ∧ cs ≠ [] := by
      intro cs hcs
      obtain ⟨f, -, rfl⟩ := List.mem_map.mp hcs
      exact ⟨(Json.printable_chars _).newline_notMem, hne f⟩
    have htexts : ("\n".intercalate (frames.map fun f => (toJson f).text)).toList =
        ['\n'].intercalate (frames.map fun f => (toJson f).chars) := by
      rw [String.toList_intercalate, List.map_map]
      congr 1
      exact List.map_congr_left fun f _ => String.toList_ofList
    rw [htexts, Text.Blank.lines_intercalate hlines, List.map_map]
    exact List.map_congr_left h
  sent hsize := by
    have hprint : ∀ s ∈ frames.map fun f => (toJson f).text, Printable s.toList :=
      List.forall_mem_map.mpr fun f _ => (toJson f).printable_text
    have hfeed := LineReader.feed_lines hprint (List.forall_mem_map.mpr hsize)
    rwa [List.flatMap_map, List.map_map] at hfeed

/-- **Frames are read back.** What is written of any frame of a client, and of any frame of a relay
whose payload has integers for numbers and leaves room for the frame around it, is a line that is
read as that frame, and many such lines are told apart. A frame that was read off any text at all
is read again from what is written of it. -/
theorem round_trip (asked : List ClientFrame) (told : List RelayFrame)
    (hpayload : ∀ f ∈ told, ∀ v ∈ f.payload?, v.Fits 126) :
    Legible ClientFrame.encode ClientFrame.decode asked ∧
      Legible RelayFrame.encode RelayFrame.decode told ∧
      (∀ text f, ClientFrame.decode text = .ok f → ClientFrame.decode f.encode = .ok f) ∧
      ∀ text f, RelayFrame.decode text = .ok f → (∀ v ∈ f.payload?, v.Integral) →
        RelayFrame.decode f.encode = .ok f := by
  refine ⟨?_, ?_, ?_, ?_⟩
  · refine legible_of (fun f => ?_) fun f _ => f.decode_encode
    cases f <;> simp [ClientFrame.toJson, Json.chars]
  · refine legible_of (fun f => ?_) fun f hf => RelayFrame.decode_encode (hpayload f hf)
    cases f <;> simp [RelayFrame.toJson, Json.chars]
  · exact fun text f _ => f.decode_encode
  · exact fun text f h hint => RelayFrame.decode_encode_decode h hint

/-- A payload as deep as a frame can hold, with the outermost integers and texts full of control
characters; and a text with blanks, a member that is given twice, and members out of order. -/
theorem round_trip_nested :
    let deep := Nat.repeat (fun v => Json.arr [v]) 125 .null
    let bounds := Json.arr
      [.num (.int (-0x8000000000000000)), .num (.int 0xFFFFFFFFFFFFFFFF), .str "\x00\r\n\""]
    let asked := [ClientFrame.req "\t\\" ⟨0, 0xFFFFFFFFFFFFFFFF, 1⟩, .close "𝄞\n"]
    let told := [RelayFrame.event "s" (.obj [("", bounds), ("\n", deep)]), .closed "\r" ""]
    let text := "[\t\"EVENT\", \"s\", \x7b\"b\": 1, \"a\": [0], \"b\": -7\x7d ]\r"
    let read := RelayFrame.event "s" (.obj [("a", .arr [.num (.int 0)]), ("b", .num (.int (-7)))])
    Legible ClientFrame.encode ClientFrame.decode asked ∧
      Legible RelayFrame.encode RelayFrame.decode told ∧
      RelayFrame.decode text = .ok read ∧ RelayFrame.decode read.encode = .ok read := by
  intro deep bounds asked told text read
  have hbounds : bounds.Fits 125 := by
    refine .arr ?_
    simp only [List.forall_mem_cons]
    exact ⟨.num (by decide), .num (by decide), .str _, List.forall_mem_nil _⟩
  have hdeep : deep.Fits 125 := .nested .null 125
  have htold : ∀ f ∈ told, ∀ v ∈ f.payload?, v.Fits 126 := by
    have hpayload : (Json.obj [("", bounds), ("\n", deep)]).Fits 126 :=
      .obj (Json.sorted_of_names rfl (by decide : ["", "\n"].Pairwise (· < ·)))
        (by simp [hbounds, hdeep])
    simpa [told, RelayFrame.payload?] using hpayload
  have hint : ∀ v ∈ read.payload?, v.Integral := by
    have hitem : (Json.arr [.num (.int 0)]).Fits 1 :=
      .arr (List.forall_mem_singleton.mpr (.num (by decide)))
    have hpayload : (Json.obj [("a", .arr [.num (.int 0)]), ("b", .num (.int (-7)))]).Fits 2 :=
      .obj (Json.sorted_of_names rfl (by decide : ["a", "b"].Pairwise (· < ·)))
        (List.forall_mem_cons.mpr ⟨hitem, List.forall_mem_singleton.mpr (.num (by decide))⟩)
    simpa [read, RelayFrame.payload?] using hpayload.integral
  obtain ⟨hasked, htold, -, hagain⟩ := round_trip asked told htold
  have hread : RelayFrame.decode text = .ok read := by cbv
  exact ⟨hasked, htold, hread, hagain text read hread hint⟩

end Frame

end Harvest
