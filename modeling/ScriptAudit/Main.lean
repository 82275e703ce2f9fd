import ScriptAudit.Command.Run

namespace ScriptAudit.Console

open ScriptAudit.Command

/-- A place as the system writes it. -/
def systemPath (place : Place) : String := "/" ++ "/".intercalate place

/-- The target of a link that leads nowhere: no file has such a name. -/
def nowhere : String := "\x00"

def hide (d : Disk) (place : Place) : Disk := { d with unreadable := place :: d.unreadable }

/-- Takes what stands at a place into a disk. A link is taken as a link to the place where it leads in the end. -/
def loadNode (place : Place) (d : Disk) : IO (Disk × Option Node) := do
  let file := (← IO.currentDir) / systemPath place
  let keep (d : Disk) (node : Node) : Disk × Option Node := (d.set place node, some node)
  match ← file.symlinkMetadata.toBaseIO with
  | .error _ => return (d, none)
  | .ok info =>
    match info.type with
    | .dir => return keep d .dir
    | .symlink =>
      if ← file.pathExists then return keep d (.link (← IO.FS.realPath file).toString)
      else return keep d (.link nowhere)
    | _ =>
      match ← (IO.FS.readBinFile file).toBaseIO with
      | .ok content => return keep d (.file content.toList)
      -- The size of a file is known even if its content is not.
      | .error _ => return keep (hide d place) (.file (List.replicate info.byteSize.toNat 0))

/-- Takes the names of a path into a disk one after the other, and the place where they lead. -/
partial def loadNames (links : Nat) (place : Place) (names : List String) (d : Disk) : IO (Disk × Place) := do
  match names with
  | [] => return (d, place)
  | name :: rest =>
    if name = ".." then loadNames links place.dropLast rest d
    else
      let next := place ++ [name]
      match ← loadNode next d with
      | (d, some (.link target)) =>
        if links = 0 || target = nowhere then return (d, next)
        else loadNames (links - 1) [] ((Path.ofText target).parts ++ rest) d
      | (d, _) => loadNames links next rest d

/-- Takes all that is below a directory into a disk. -/
partial def loadBelow (place : Place) (d : Disk) : IO Disk := do
  let dir := (← IO.currentDir) / systemPath place
  let listing ← dir.readDir.toBaseIO
  let d := match listing with
    | .ok _ => d
    | .error _ => if d.node? place = some .dir then hide d place else d
  (listing.toOption.getD #[]).foldlM (fun d entry => do
    let next := place ++ [entry.fileName]
    match ← loadNode next d with
    | (d, some .dir) => loadBelow next d
    | (d, some (.link target)) =>
      if target = nowhere then return d
      else return (← loadNames Disk.linkLimit [] (Path.ofText target).parts d).1
    | (d, _) => return d) d

def loadPath (p : Path) (deep : Bool) (d : Disk) : IO Disk := do
  let (d, place) ← loadNames Disk.linkLimit (d.origin p) p.parts d
  if deep then loadBelow place d else return d

/-- The part of the system's files that a task is about. -/
def loadTask (task : Task) (d : Disk) : IO Disk := do
  let paths := match task with
    | .tree t => [(t.audit.path, true)] ++ (t.audit.rules.file.toList ++ t.audit.out.toList).map (·, false)
    | .file s => ([s.path] ++ s.rules.file.toList ++ s.out.toList).map (·, false)
    | .list s => s.rules.file.toList.map (·, false)
  let paths := match task with
    | .tree { audit := { out := some dir, .. }, .. } | .file { out := some dir, .. } => paths ++ [(dir, true)]
    | _ => paths
  paths.foldlM (fun d (p, deep) => loadPath p deep d) d

/-- Makes the system's files what they are on a disk after a run. -/
def apply (before after : Disk) : IO Unit := do
  for (place, node) in after.entries do
    if before.node? place ≠ some node then
      match node with
      | .dir => IO.FS.createDirAll (systemPath place)
      | .file content => IO.FS.writeBinFile (systemPath place) (ByteArray.mk content.toArray)
      | .link _ => pure ()

def showNotice (started : Nat) : Notice → IO Unit
  | .record r => do
    let now ← IO.monoMsNow
    IO.eprintln s!"+{now - started}ms {r.tail}"
  | .line text => IO.eprintln text

def showProgress (p : ScriptAudit.Progress) : IO Unit :=
  IO.eprintln s!"{p.description}: {p.updates}/{p.total} {p.unit}"

def conclude : Ending → IO UInt32
  | .exit code => return code.toUInt32
  | .usage message => do
    IO.eprintln message
    return 2
  | .broken b => do
    IO.eprintln b.message
    return 1
  | .refused r => do
    IO.eprintln r.message
    return 1
  | .failed f => do
    IO.eprintln f.reason
    return 1

/-- Runs a command line on the system's files. -/
def runSystem (words : List String) : IO UInt32 := do
  let started ← IO.monoMsNow
  let here := (Path.ofText (← IO.currentDir).toString).parts
  let empty := Disk.empty here
  let before ← match read words with
    | .ok task => loadTask task empty
    | .error _ => pure empty
  let outcome := run words Guess.standIn before
  outcome.notices.forM (showNotice started)
  outcome.progress.forM showProgress
  IO.print outcome.output
  apply before outcome.disk
  conclude outcome.ending

end ScriptAudit.Console

def main (words : List String) : IO UInt32 := ScriptAudit.Console.runSystem words
