import Harvest.Log.Entry
import Harvest.Store.Table
import Harvest.Text.Blank

/-! The folder of the logs: each engine appends to a file of its own, one for the day on which it
was opened. To read the folder is to read all its log files; what is no entry is passed over. -/

namespace Harvest.Log

/-- The name of the file of an engine that opens its log at the moment `now`. -/
def fileName (now : Int) (source : String) : String :=
  (Calendar.Date.ofDays (now / 86400000)).text ++ "_" ++ source ++ ".jsonl"

def isLog (name : String) : Bool := name.endsWith ".jsonl" && name.length > ".jsonl".length

structure Folder where
  files : Table String String := {}

namespace Folder

/-- Opens a file: there is an empty one if there was none. -/
def openFile (f : Folder) (name : String) : Folder :=
  { files := f.files.set name ((f.files.get? name).getD "") }

def append (f : Folder) (name : String) (e : Entry) : Folder :=
  { files := f.files.set name ((f.files.get? name).getD "" ++ e.line ++ "\n") }

def entriesOf (text : String) : List Entry :=
  (Text.Blank.lines text.toList).filterMap fun cs =>
    let line := Text.Blank.trim cs
    if line.isEmpty then none else Entry.ofLine? (String.ofList line)

/-- All entries in the order of their moments; those of one file and moment stay in the order of
their lines. -/
def entries (f : Folder) : List Entry :=
  ((f.files.entries.filter fun (name, _) => isLog name).flatMap fun (_, text) =>
    entriesOf text).mergeSort fun a b => a.ts ≤ b.ts

end Folder

end Harvest.Log
