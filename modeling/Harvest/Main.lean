import Harvest.CommandLine.Execution
import Harvest.Site.Reader
import Harvest.Store
import Harvest.Text.Crockford
import Std.Time.DateTime.Timestamp

/-! The program. Around the call of a command it reads the files that the command works on, and
afterwards it writes the store back. The relays that it can reach are those of the site that is
described in its data directory. -/

namespace Harvest.Program

open CommandLine

def text? (path : String) : IO (Option String) := do
  match ← (IO.FS.readFile path).toBaseIO with
  | .ok text => return some text
  | .error _ => return none

/-- Finds what a command works on. A file that stands in the place of the store but holds none is
taken for the text that it is. -/
def disk (paths : Paths) : IO Disk := do
  let texts := match ← text? paths.config with
    | some text => Table.set {} paths.config text
    | none => {}
  match ← text? paths.store with
  | none => return { texts }
  | some text =>
    match Store.ofText? text with
    | some store => return { texts, stores := Table.set {} paths.store store }
    | none => return { texts := texts.set paths.store text }

def save (paths : Paths) (d : Disk) : IO Unit := do
  match d.stores.get? paths.store with
  | none => return
  | some store =>
    IO.FS.createDirAll paths.dir
    IO.FS.writeFile paths.store store.toText

/-- A name for the next cycle: the instant, and as many random bits as there is room for. -/
def cycleName (millis : Nat) : IO String := do
  let bytes ← IO.getRandomBytes 10
  let chance := bytes.toList.foldl (fun n b => 256 * n + b.toNat) 0
  return Text.Crockford.cycleName millis chance

def show_ (finish : Finish) : IO UInt32 := do
  finish.lines.forM fun line => IO.println line
  match finish.fault with
  | some fault => IO.eprintln ("Error: " ++ fault)
  | none => pure ()
  return UInt32.ofNat finish.code

/-- A site stands still, so that there is nothing to find for a second cycle: the program that runs
cycles is interrupted after its first one. -/
def setting (home : String) (paths : Paths) : IO Setting := do
  let site := ((← text? paths.site).bind Site.ofText?).getD {}
  let now ← Std.Time.Timestamp.now
  let seconds := now.toSecondsSinceUnixEpoch.val.toNat
  let millis := now.toMillisecondsSinceUnixEpoch.val.toNat
  let cycle ← cycleName millis
  return { site, home, wall := UInt64.ofNat seconds, cycle, interrupted := true }

def run (args : List String) : IO UInt32 := do
  let home := (← IO.getEnv "HOME").getD "."
  match Invocation.ofArguments args with
  | .error usage => show_ (.ofUsage usage)
  | .ok call =>
    let paths := call.paths home
    match execute (← setting home paths) (← disk paths) args with
    | none => return 1
    | some (d, finish) =>
      save paths d
      show_ finish

end Harvest.Program

def main (args : List String) : IO UInt32 := Harvest.Program.run args
