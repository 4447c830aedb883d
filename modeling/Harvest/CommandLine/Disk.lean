import Harvest.CommandLine.Command
import Harvest.Store
import Harvest.Store.Table

/-! What the program finds in files: texts, and stores that it has made. -/

namespace Harvest.CommandLine

def joined (dir name : String) : String :=
  if dir.endsWith "/" then dir ++ name else dir ++ "/" ++ name

/-- Where a call of the program keeps what it works on. -/
structure Paths where
  dir : String
  config : String
  store : String
  site : String
deriving DecidableEq, Repr

/-- Everything is in the data directory, but another configuration may be asked for. -/
def Invocation.paths (call : Invocation) (home : String) : Paths :=
  let dir := call.dataDir.getD (joined home ".relaysync")
  { dir
    config := call.config.getD (joined dir "config.json")
    store := joined dir "relaysync.redb"
    site := joined dir "site.json" }

structure Disk where
  texts : Table String String := {}
  stores : Table String Store := {}

namespace Disk

/-- Opens the store at a path; there is an empty one if there was none. A text is no store. -/
def store? (d : Disk) (path : String) : Option Store :=
  match d.texts.get? path with
  | some text => if text = "" then some ((d.stores.get? path).getD {}) else none
  | none => some ((d.stores.get? path).getD {})

def putStore (d : Disk) (path : String) (s : Store) : Disk :=
  { d with stores := d.stores.set path s }

end Disk

end Harvest.CommandLine
