import Harvest.Log.Folder
import Harvest.Proofs.Log.Entry
import Harvest.Proofs.Store.Table
import Harvest.Proofs.Text.Utf8
import Mathlib.Data.List.Basic

/-! The logs lose no entry and make none up. Engines write to files of their own, a line for each
entry; what else gets into the files is passed over line by line. So a reader finds in each file
what was written to it, in that order, and sorts what it finds of all files by moments. -/

namespace Harvest.Log

open Text.Blank (lines unlines trim)

/-! ## Lines of a file -/

/-- What a reader makes of a line. -/
def entryOf? (line : List Char) : Option Entry :=
  if (trim line).isEmpty then none else Entry.ofLine? (String.ofList (trim line))

theorem entriesOf_eq (text : String) :
    Folder.entriesOf text = (lines text.toList).filterMap entryOf? := rfl

theorem entryOf?_line {e : Entry} (h : e.Plain) : entryOf? e.line.toList = some e := by
  have hne : e.line.toList.isEmpty = false := by
    rw [Entry.line, Json.text, String.toList_ofList, Entry.toJson_eq]
    rfl
  rw [entryOf?, Entry.trim_line, hne, String.ofList_toList, Entry.ofLine?_line h]
  rfl

/-- A text of whole lines, of which these are entries. -/
def Lined (text : String) (entries : List Entry) : Prop :=
  ∃ ls, text.toList = unlines ls ∧ (∀ cs ∈ ls, '\n' ∉ cs) ∧ ls.filterMap entryOf? = entries

/-- The text with a line put in behind so many of its lines. -/
def withLine (text : String) (place : Nat) (line : String) : String :=
  let ls := lines text.toList
  String.ofList (unlines (ls.take place ++ line.toList :: ls.drop place))

/-- A line that is blank, or else no entry, whatever blanks stand around it. -/
structure Stray (line : String) : Prop where
  single : '\n' ∉ line.toList
  unread : trim line.toList = [] ∨ Entry.ofLine? (String.ofList (trim line.toList)) = none

theorem Stray.entryOf? {line : String} (h : Stray line) : entryOf? line.toList = none := by
  rw [Log.entryOf?]
  rcases h.unread with hblank | hnone
  · rw [hblank]
    rfl
  · rw [hnone]
    split <;> rfl

namespace Lined

variable {text : String} {entries : List Entry}

theorem empty : Lined "" [] := ⟨[], rfl, fun _ h => absurd h List.not_mem_nil, rfl⟩

theorem entriesOf (h : Lined text entries) : Folder.entriesOf text = entries := by
  obtain ⟨ls, htext, hnl, hentries⟩ := h
  rw [entriesOf_eq, htext, Text.Blank.lines_unlines hnl, hentries]

theorem toList_append {ls : List (List Char)} (h : text.toList = unlines ls) (line : String) :
    (text ++ line ++ "\n").toList = unlines (ls ++ [line.toList]) := by
  rw [String.toList_append, String.toList_append, h, Text.Blank.unlines_append, List.append_assoc]
  simp [unlines]

/-- What is appended with a line feed behind it is one line more. -/
theorem lines_append (h : Lined text entries) {line : String} (hline : '\n' ∉ line.toList) :
    lines (text ++ line ++ "\n").toList = lines text.toList ++ [line.toList] := by
  obtain ⟨ls, htext, hnl, -⟩ := h
  have hall : ∀ cs ∈ ls ++ [line.toList], '\n' ∉ cs :=
    List.forall_mem_append.mpr ⟨hnl, List.forall_mem_singleton.mpr hline⟩
  rw [toList_append htext, htext, Text.Blank.lines_unlines hall, Text.Blank.lines_unlines hnl]

theorem append (h : Lined text entries) {e : Entry} (he : e.Plain) :
    Lined (text ++ e.line ++ "\n") (entries ++ [e]) := by
  obtain ⟨ls, htext, hnl, rfl⟩ := h
  refine ⟨ls ++ [e.line.toList], toList_append htext e.line, ?_, ?_⟩
  · exact List.forall_mem_append.mpr ⟨hnl, List.forall_mem_singleton.mpr e.newline_notMem_line⟩
  · simp [entryOf?_line he]

theorem withLine (h : Lined text entries) (place : Nat) {line : String} (hline : Stray line) :
    Lined (withLine text place line) entries := by
  obtain ⟨ls, htext, hnl, rfl⟩ := h
  rw [Log.withLine, htext, Text.Blank.lines_unlines hnl]
  refine ⟨ls.take place ++ line.toList :: ls.drop place, String.toList_ofList, ?_, ?_⟩
  · intro cs hcs
    rcases List.mem_append.mp hcs with hcs | hcs
    · exact hnl cs (List.mem_of_mem_take hcs)
    · rcases List.mem_cons.mp hcs with rfl | hcs
      · exact hline.single
      · exact hnl cs (List.mem_of_mem_drop hcs)
  · rw [List.filterMap_append, List.filterMap_cons_none hline.entryOf?, ← List.filterMap_append,
      List.take_append_drop]

end Lined

/-! ## Names of files -/

theorem isLog_fileName (now : Int) (source : String) : isLog (fileName now source) = true := by
  rw [isLog, fileName, Bool.and_eq_true]
  constructor
  · rw [← String.endsWith_toSlice, String.Slice.endsWith_string_iff, String.copy_toSlice,
      String.toList_append]
    exact List.suffix_append ..
  · simp only [String.length_append, decide_eq_true_eq]
    have : "_".length = 1 := rfl
    omega

theorem underscore_notMem_date (d : Calendar.Date) : '_' ∉ d.text.toList := by
  have hpadded (width n : Nat) : '_' ∉ (Calendar.padded width n).toList := by
    simp [Calendar.padded]
  have hyear : '_' ∉ (Calendar.yearText d.year).toList := by
    rw [Calendar.yearText]
    split
    · exact hpadded _ _
    · split <;> simp [hpadded]
  simp [Calendar.Date.text, hyear, hpadded]

/-- An engine is told by its file, whichever day it was: what stands up to the first underscore is
the date. -/
theorem fileName_inj {now now' : Int} {source source' : String}
    (h : fileName now source = fileName now' source') : source = source' := by
  have hdrop (now : Int) (source : String) : (fileName now source).toList.dropWhile (· != '_') =
      "_".toList ++ (source.toList ++ ".jsonl".toList) := by
    rw [fileName, String.toList_append, String.toList_append, String.toList_append,
      List.append_assoc, List.append_assoc, List.dropWhile_append_of_pos]
    · rfl
    · intro c hc
      simp only [bne_iff_ne]
      rintro rfl
      exact underscore_notMem_date _ hc
  have hrest := hdrop now source
  rw [h, hdrop now' source'] at hrest
  have hsources := List.append_cancel_right (List.append_cancel_left hrest)
  exact (String.toList_inj.mp hsources).symm

/-! ## What is done to a folder -/

/-- An engine that opened its log at a moment. A separator in its name would lead to another
folder. -/
structure Writer where
  source : String
  opened : Int
  plain : '/' ∉ source.toList

def Writer.file (w : Writer) : String := fileName w.opened w.source

/-- What happens to a folder: an engine opens its log or writes to it, or somebody puts a line into
a file, behind so many of its lines. -/
inductive Act
  | opens (w : Writer)
  | write (w : Writer) (e : Entry)
  | stray (name : String) (place : Nat) (line : String)

namespace Act

def Fair : Act → Prop
  | opens _ => True
  | write _ e => e.Plain
  | stray _ _ line => Stray line

/-- The entries that are written, each with the name of its file. -/
def written : Act → List (String × Entry)
  | write w e => [(w.file, e)]
  | opens _ | stray _ _ _ => []

end Act

/-- The entries of one file. -/
def ofFile (name : String) (written : List (String × Entry)) : List Entry :=
  (written.filter (·.1 = name)).map Prod.snd

theorem ofFile_concat (other name : String) (written : List (String × Entry)) (e : Entry) :
    ofFile other (written ++ [(name, e)]) =
      ofFile other written ++ (if other = name then [e] else []) := by
  rw [ofFile, List.filter_append, List.map_append, ofFile]
  by_cases h : other = name
  · simp [h]
  · simp [h, Ne.symm h]

theorem filter_eq_map (name : String) (written : List (String × Entry)) :
    written.filter (·.1 = name) = (ofFile name written).map (name, ·) := by
  have hsame : ∀ p ∈ written.filter (·.1 = name), (name, p.2) = p := by
    intro p hp
    rw [← of_decide_eq_true (List.mem_filter.mp hp).2]
  rw [ofFile, List.map_map]
  exact ((List.map_congr_left hsame).trans (List.map_id _)).symm

namespace Folder

def text (f : Folder) (name : String) : String := (f.files.get? name).getD ""

def put (f : Folder) (name text : String) : Folder := { files := f.files.set name text }

theorem text_put (f : Folder) (name text other : String) :
    (f.put name text).text other = if other = name then text else f.text other := by
  rw [Folder.text, put, Table.get?_set]
  split <;> rfl

def act (f : Folder) : Act → Folder
  | .opens w => f.openFile w.file
  | .write w e => f.append w.file e
  | .stray name place line => f.put name (withLine (f.text name) place line)

/-- The folder that was empty before all this. -/
def after (acts : List Act) : Folder := acts.foldl act {}

/-- A folder holds what was written: each file the entries that went to it. -/
structure Holds (f : Folder) (written : List (String × Entry)) : Prop where
  sorted : f.files.Sorted
  logs : ∀ p ∈ written, isLog p.1 = true
  lined : ∀ name, Lined (f.text name) (ofFile name written)

theorem holds_empty : Holds {} [] where
  sorted := Table.sorted_empty
  logs _ h := absurd h List.not_mem_nil
  lined _ := Lined.empty

namespace Holds

variable {f : Folder} {written : List (String × Entry)}

/-- A file may get another text that has the same entries. -/
theorem put (h : f.Holds written) {name text : String} (htext : Lined text (ofFile name written)) :
    (f.put name text).Holds written where
  sorted := h.sorted.set name text
  logs := h.logs
  lined other := by
    rw [text_put]
    split
    · subst other
      exact htext
    · exact h.lined other

theorem append (h : f.Holds written) {name : String} {e : Entry} (hlog : isLog name = true)
    (he : e.Plain) : (f.append name e).Holds (written ++ [(name, e)]) where
  sorted := h.sorted.set name _
  logs := List.forall_mem_append.mpr ⟨h.logs, List.forall_mem_singleton.mpr hlog⟩
  lined other := by
    show Lined ((f.put name (f.text name ++ e.line ++ "\n")).text other) _
    rw [text_put, ofFile_concat]
    split
    · subst other
      exact (h.lined name).append he
    · rw [List.append_nil]
      exact h.lined other

/-- Whatever happens to a folder leaves in it what was written, and adds what is written. -/
theorem act (h : f.Holds written) {a : Act} (ha : a.Fair) :
    (f.act a).Holds (written ++ a.written) := by
  cases a with
  | opens w =>
    show (f.put w.file (f.text w.file)).Holds (written ++ [])
    rw [List.append_nil]
    exact h.put (h.lined w.file)
  | write w e => exact h.append (isLog_fileName ..) ha
  | stray name place line =>
    show (f.put name (withLine (f.text name) place line)).Holds (written ++ [])
    rw [List.append_nil]
    exact h.put ((h.lined name).withLine place ha)

theorem foldl_act {acts : List Act} (h : f.Holds written) (hacts : ∀ a ∈ acts, a.Fair) :
    (acts.foldl Folder.act f).Holds (written ++ acts.flatMap Act.written) := by
  induction acts generalizing f written with
  | nil => rwa [List.flatMap_nil, List.append_nil]
  | cons a acts ih =>
    obtain ⟨ha, hrest⟩ := List.forall_mem_cons.mp hacts
    rw [List.flatMap_cons, ← List.append_assoc]
    exact ih (h.act ha) hrest

end Holds

/-! ## Reading -/

/-- The entries of the logs among some files, in the order of these, each with the name of its
file. -/
def named (files : List (String × String)) : List (String × Entry) :=
  (files.filter fun (name, _) => isLog name).flatMap fun (name, text) =>
    (entriesOf text).map (name, ·)

/-- What is read of some files, in whatever order they are listed. -/
def entriesAmong (files : List (String × String)) : List Entry :=
  ((files.filter fun (name, _) => isLog name).flatMap fun (_, text) =>
    entriesOf text).mergeSort fun a b => a.ts ≤ b.ts

theorem named_cons (name text : String) (files : List (String × String)) :
    named ((name, text) :: files) =
      (if isLog name then (entriesOf text).map (name, ·) else []) ++ named files := by
  rw [named, List.filter_cons]
  by_cases hlog : isLog name = true <;> simp [hlog, named]

/-- A file that is no log holds no entry. -/
theorem Holds.ofFile_of_other {f : Folder} {written : List (String × Entry)} (h : f.Holds written)
    {name : String} (hlog : isLog name = false) : ofFile name written = [] := by
  rw [ofFile, List.filter_eq_nil_iff.mpr, List.map_nil]
  intro p hp hname
  rw [← of_decide_eq_true hname, h.logs p hp] at hlog
  cases hlog

/-- A reader finds file by file what was written to each. -/
theorem Holds.named_eq {f : Folder} {written : List (String × Entry)} (h : f.Holds written)
    {files : List (String × String)} (hfiles : ∀ file ∈ files, file ∈ f.files.entries) :
    named files = (files.map Prod.fst).flatMap fun name => (ofFile name written).map (name, ·) := by
  induction files with
  | nil => rfl
  | cons file files ih =>
    obtain ⟨name, text⟩ := file
    obtain ⟨hfile, hrest⟩ := List.forall_mem_cons.mp hfiles
    have htext : f.text name = text := by
      rw [Folder.text, h.sorted.get?_of_mem hfile, Option.getD_some]
    have hread : entriesOf text = ofFile name written := htext ▸ (h.lined name).entriesOf
    rw [named_cons, ih hrest, List.map_cons, List.flatMap_cons]
    cases hlog : isLog name with
    | true => rw [if_pos rfl, hread]
    | false => rw [h.ofFile_of_other hlog]; rfl

/-- Of lists that are each marked with their own name, the marks single out one. -/
theorem filter_flatMap_names {g : String → List Entry} {names : List String} {name : String}
    (hnodup : names.Nodup) (hmiss : name ∉ names → g name = []) :
    (names.flatMap fun n => (g n).map (n, ·)).filter (·.1 = name) = (g name).map (name, ·) := by
  induction names with
  | nil => rw [hmiss List.not_mem_nil]; rfl
  | cons n names ih =>
    obtain ⟨hnew, hnodup⟩ := List.nodup_cons.mp hnodup
    rw [List.flatMap_cons, List.filter_append]
    by_cases hn : n = name
    · subst hn
      have hothers : (names.flatMap fun m => (g m).map (m, ·)).filter (·.1 = n) = [] := by
        rw [List.filter_eq_nil_iff]
        intro p hp hpn
        obtain ⟨m, hm, hp⟩ := List.mem_flatMap.mp hp
        obtain ⟨e, -, rfl⟩ := List.mem_map.mp hp
        exact hnew (of_decide_eq_true hpn ▸ hm)
      rw [hothers, List.append_nil, List.filter_eq_self]
      intro p hp
      obtain ⟨e, -, rfl⟩ := List.mem_map.mp hp
      exact decide_eq_true rfl
    · have hhead : ((g n).map (n, ·)).filter (·.1 = name) = [] := by simp [hn]
      rw [hhead, List.nil_append]
      exact ih hnodup fun hname => hmiss (List.not_mem_cons_of_ne_of_not_mem (Ne.symm hn) hname)

/-- In each file stands what was written to it, in whatever order the files are listed. -/
theorem Holds.filter_named {f : Folder} {written : List (String × Entry)} (h : f.Holds written)
    {files : List (String × String)} (hfiles : files.Perm f.files.entries) (name : String) :
    (named files).filter (·.1 = name) = written.filter (·.1 = name) := by
  have hnames : (files.map Prod.fst).Perm f.files.keys := hfiles.map Prod.fst
  have hmiss : name ∉ files.map Prod.fst → ofFile name written = [] := by
    intro hname
    rw [hnames.mem_iff, Table.mem_keys, Option.not_isSome_iff_eq_none] at hname
    rw [← (h.lined name).entriesOf, Folder.text, hname]
    rfl
  rw [h.named_eq fun _ => hfiles.mem_iff.mp, filter_eq_map name written]
  exact filter_flatMap_names (g := (ofFile · written)) (hnames.nodup_iff.mpr h.sorted.nodup) hmiss

/-- Where each file has the same entries, all entries are the same. -/
theorem perm_of_filter_eq {l m : List (String × Entry)}
    (h : ∀ name, l.filter (·.1 = name) = m.filter (·.1 = name)) : l.Perm m := by
  rw [List.perm_iff_count]
  intro p
  have hcount (l : List (String × Entry)) : (l.filter (·.1 = p.1)).count p = l.count p :=
    List.count_filter (decide_eq_true rfl)
  rw [← hcount l, h p.1, hcount m]

/-- A stable sort leaves those that it does not tell apart in their order. -/
theorem filter_mergeSort {α : Type} {le : α → α → Bool}
    (htrans : ∀ a b c, le a b = true → le b c = true → le a c = true)
    (htotal : ∀ a b, (le a b || le b a) = true) {p : α → Bool}
    (halike : ∀ a b, p a = true → p b = true → le a b = true) (l : List α) :
    (l.mergeSort le).filter p = l.filter p := by
  have hpairs : (l.filter p).Pairwise fun a b => le a b = true :=
    List.pairwise_of_forall_mem_list fun a ha b hb =>
      halike a b (List.mem_filter.mp ha).2 (List.mem_filter.mp hb).2
  have hsub := (List.sublist_mergeSort htrans htotal hpairs List.filter_sublist).filter p
  simp only [List.filter_filter, Bool.and_self] at hsub
  have hlength := ((List.mergeSort_perm l le).filter p).length_eq
  exact (hsub.eq_of_length hlength.symm).symm

/-- What was read is what was written, each entry as often as it was written and unchanged, in the
order of the moments. Entries of one file and one moment stand in the order in which they were
written. -/
def Exact (written : List (String × Entry)) (read : List Entry) : Prop :=
  ∃ found : List (String × Entry), found.map Prod.snd = read ∧ found.Perm written ∧
    (found.Pairwise fun a b => Text.bytes a.2.ts ≤ Text.bytes b.2.ts) ∧
    ∀ name ts, found.filter (fun p => p.1 = name ∧ p.2.ts = ts) =
      written.filter fun p => p.1 = name ∧ p.2.ts = ts

theorem map_named (files : List (String × String)) : (named files).map Prod.snd =
    (files.filter fun (name, _) => isLog name).flatMap fun (_, text) => entriesOf text := by
  simp [named, List.map_flatMap, Function.comp_def]

theorem Holds.exact {f : Folder} {written : List (String × Entry)} (h : f.Holds written)
    {files : List (String × String)} (hfiles : files.Perm f.files.entries) :
    Exact written (entriesAmong files) := by
  have htrans : ∀ a b c : String × Entry, decide (a.2.ts ≤ b.2.ts) = true →
      decide (b.2.ts ≤ c.2.ts) = true → decide (a.2.ts ≤ c.2.ts) = true := by
    intro a b c hab hbc
    exact decide_eq_true (String.le_trans (of_decide_eq_true hab) (of_decide_eq_true hbc))
  have htotal : ∀ a b : String × Entry,
      (decide (a.2.ts ≤ b.2.ts) || decide (b.2.ts ≤ a.2.ts)) = true := by
    intro a b
    simpa using String.le_total a.2.ts b.2.ts
  have hnamed := h.filter_named hfiles
  refine ⟨(named files).mergeSort fun a b => a.2.ts ≤ b.2.ts, ?_, ?_, ?_, ?_⟩
  · rw [entriesAmong, ← map_named]
    exact List.map_mergeSort fun _ _ _ _ => rfl
  · exact (List.mergeSort_perm ..).trans (perm_of_filter_eq hnamed)
  · refine (List.pairwise_mergeSort htrans htotal _).imp ?_
    intro a b hab
    exact Text.bytes_le (of_decide_eq_true hab)
  · intro name ts
    rw [filter_mergeSort htrans htotal]
    · have hsame := congrArg (List.filter (·.2.ts = ts)) (hnamed name)
      simpa only [List.filter_filter, Bool.decide_and, Bool.and_comm] using hsame
    · intro a b ha hb
      have hts : a.2.ts = b.2.ts := (of_decide_eq_true ha).2.trans (of_decide_eq_true hb).2.symm
      exact decide_eq_true (hts ▸ String.le_refl a.2.ts)

/-- One file has a line more, and no other file is changed. -/
structure GrowsBy (f g : Folder) (name line : String) : Prop where
  text : g.text name = f.text name ++ line ++ "\n"
  lines : lines (g.text name).toList = lines (f.text name).toList ++ [line.toList]
  others : ∀ other, other ≠ name → g.files.get? other = f.files.get? other

theorem Holds.growsBy_append {f : Folder} {written : List (String × Entry)} (h : f.Holds written)
    (name : String) (e : Entry) : f.GrowsBy (f.append name e) name e.line := by
  have htext : (f.append name e).text name = f.text name ++ e.line ++ "\n" :=
    (text_put f name _ name).trans (if_pos rfl)
  refine ⟨htext, ?_, fun other hother => ?_⟩
  · rw [htext, (h.lined name).lines_append e.newline_notMem_line]
  · rw [Folder.append, Table.get?_set, if_neg hother]

/-- **The logs lose no entry and make none up.** Whatever engines open logs and write entries to
them, one among the other, and whatever lines that are no entries get into the files: all entries
that were written are read, each as often as it was written and unchanged, in the order of their
moments, and those of one file and moment in the order in which they were written, however the
files are listed. Each write adds one line to one file, and engines of different names share no
file. -/
theorem entries_exact (acts : List Act) (hfair : ∀ a ∈ acts, a.Fair) :
    Exact (acts.flatMap Act.written) (after acts).entries ∧
      (∀ files, files.Perm (after acts).files.entries →
        Exact (acts.flatMap Act.written) (entriesAmong files)) ∧
      (∀ (w : Writer) (e : Entry),
        (after acts).GrowsBy ((after acts).append w.file e) w.file e.line) ∧
      ∀ v w : Writer, v.source ≠ w.source → v.file ≠ w.file := by
  have h : (after acts).Holds (acts.flatMap Act.written) := holds_empty.foldl_act hfair
  refine ⟨h.exact (.refl _), fun files hfiles => h.exact hfiles, ?_, ?_⟩
  · exact fun w e => h.growsBy_append w.file e
  · exact fun v w hne hfile => hne (fileName_inj hfile)

/-- Two engines whose files sort in the order of their days, entries of one moment in one file, a
message full of what a line must not hold, and lines that are blank or no entry among them. -/
theorem entries_exact_mixed :
    let east : Writer := ⟨"east", 0, by decide⟩
    let west : Writer := ⟨"east_2", 86400000, by decide⟩
    let fields := Json.obj [("", .arr [.obj []]), ("a", .num (.int (-0x8000000000000000)))]
    let early : Entry := ⟨"1", "info", "east_2", "", "", none, none⟩
    let first : Entry := ⟨"2", "warn", "east", "", " \n\"\\", some fields, none⟩
    let second : Entry := ⟨"2", "info", "east", "", "\r", none, some "a > b"⟩
    let acts : List Act :=
      [.opens east, .opens west, .write east first, .stray east.file 0 "\x7b\x7d",
        .write west early, .stray "junk.jsonl" 7 " \t", .write east second, .stray west.file 1 ""]
    (∀ a ∈ acts, a.Fair) ∧ (after acts).entries = [early, first, second] ∧
      Exact [(east.file, first), (west.file, early), (east.file, second)] (after acts).entries ∧
      (after acts).GrowsBy ((after acts).append west.file first) west.file first.line ∧
      east.file ≠ west.file := by
  intro east west fields early first second acts
  have hfields : fields.Fits (Json.Draft.deepest - 1) := by
    have hempty : (Json.obj []).Fits 124 := .obj List.Pairwise.nil (List.forall_mem_nil _)
    refine .obj (Json.sorted_of_names rfl (by decide : ["", "a"].Pairwise (· < ·))) ?_
    simp only [List.forall_mem_cons]
    exact ⟨.arr (List.forall_mem_singleton.mpr hempty), .num (by decide), List.forall_mem_nil _⟩
  have hplain {e : Entry} (he : e.fields = none) : e.Plain := by
    intro v hv
    rw [he] at hv
    cases hv
  have hblank {line : String} (h : '\n' ∉ line.toList ∧ trim line.toList = []) : Stray line :=
    ⟨h.1, .inl h.2⟩
  have hbraces : Stray "\x7b\x7d" := ⟨by decide, .inr (by decide +kernel)⟩
  have hfirst : first.Plain := fun v hv => Option.some.inj hv ▸ ⟨by decide, hfields⟩
  have hfair : ∀ a ∈ acts, a.Fair := by
    simp only [acts, List.forall_mem_cons]
    exact ⟨trivial, trivial, hfirst, hbraces, hplain rfl, hblank (by decide), hplain rfl,
      hblank (by decide), List.forall_mem_nil _⟩
  obtain ⟨hexact, -, hgrows, hfiles⟩ := entries_exact acts hfair
  have hholds : (after acts).Holds (acts.flatMap Act.written) := holds_empty.foldl_act hfair
  have hread : ((after acts).files.entries.filter fun (name, _) => isLog name).flatMap
      (fun (_, text) => entriesOf text) = [first, second, early] := by
    have hnames : (after acts).files.keys = [east.file, west.file, "junk.jsonl"] := by
      decide +kernel
    rw [Table.keys] at hnames
    rw [← map_named, hholds.named_eq fun _ hfile => hfile, hnames]
    decide +kernel
  have hsorted : (after acts).entries = [early, first, second] := by
    have hle : first.ts ≤ second.ts := by decide
    have hfe : ¬ first.ts ≤ early.ts := by decide
    rw [entries, hread]
    simp [List.mergeSort, hle, hfe]
  exact ⟨hfair, hsorted, hexact, hgrows west first, hfiles east west (by decide)⟩

end Folder

end Harvest.Log
