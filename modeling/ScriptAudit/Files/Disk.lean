import ScriptAudit.Encoding.Utf8
import ScriptAudit.Files.Path

namespace ScriptAudit

/-- What a name in a directory stands for. -/
inductive Node where
  | file (content : Bytes)
  | dir
  | link (target : String)
  deriving DecidableEq, Repr

def Node.isDir : Node → Bool
  | dir => true
  | _ => false

def Node.isFile : Node → Bool
  | file _ => true
  | _ => false

/-- Why the disk refuses an operation. -/
inductive DiskError where
  | noEntry
  | denied
  | exists
  | notADirectory
  | isADirectory
  | nameTooLong
  | tooManyLinks
  deriving DecidableEq, Repr

namespace DiskError

def number : DiskError → Nat
  | noEntry => 2
  | denied => 13
  | .exists => 17
  | notADirectory => 20
  | isADirectory => 21
  | nameTooLong => 36
  | tooManyLinks => 40

def text : DiskError → String
  | noEntry => "No such file or directory"
  | denied => "Permission denied"
  | .exists => "File exists"
  | notADirectory => "Not a directory"
  | isADirectory => "Is a directory"
  | nameTooLong => "File name too long"
  | tooManyLinks => "Too many levels of symbolic links"

/-- The kind of failure that an error is told as. -/
def kind : DiskError → String
  | noEntry => "FileNotFoundError"
  | denied => "PermissionError"
  | .exists => "FileExistsError"
  | notADirectory => "NotADirectoryError"
  | isADirectory => "IsADirectoryError"
  | nameTooLong | tooManyLinks => "OSError"

/-- Errors that say no more than that nothing is there. -/
def isAbsence : DiskError → Bool
  | noEntry | notADirectory | tooManyLinks => true
  | _ => false

/-- The error with its number and the path that it is about. -/
def message (e : DiskError) (path : Path) : String :=
  s!"[Errno {e.number}] {e.text}: {Text.quoted path.toText}"

end DiskError

/-- A place on the disk: the names from the root on. -/
abbrev Place := List String

/-- The entries of a disk, and the directory in which paths without a root start. The directories of each entry
are entries too. -/
structure Disk where
  here : Place
  entries : List (Place × Node)
  /-- The files that cannot be opened, and the directories that cannot be listed. -/
  unreadable : List Place := []
  /-- The files that cannot be changed, and the directories that take no new entries. -/
  unwritable : List Place := []
  /-- The directories in which no name can be looked up. -/
  unsearchable : List Place := []
  deriving DecidableEq, Repr

namespace Disk

def node? (d : Disk) (place : Place) : Option Node :=
  if place.isEmpty then some .dir else d.entries.lookup place

def set (d : Disk) (place : Place) (node : Node) : Disk :=
  if d.entries.any (·.1 == place) then
    { d with entries := d.entries.map fun e => if e.1 == place then (place, node) else e }
  else { d with entries := d.entries ++ [(place, node)] }

/-- Makes the missing directories above a place. -/
def withParents (d : Disk) (place : Place) : Disk :=
  (List.range place.length).foldl (fun d n =>
    if (d.node? (place.take n)).isNone then d.set (place.take n) .dir else d) d

/-- A disk with nothing but the working directory. -/
def empty (here : Place) : Disk :=
  let d := withParents { here, entries := [] } here
  if here.isEmpty then d else d.set here .dir

/-- The bytes that a name may have. -/
def nameLimit : Nat := 255

/-- Paths have fewer bytes than this. -/
def pathLimit : Nat := 4096

/-- Whether a name can be looked up in a directory, be it there or not. -/
def lookUp (d : Disk) (here : Place) (name : String) : Except DiskError Unit :=
  if d.unsearchable.contains here then .error .denied
  else if nameLimit < name.utf8ByteSize then .error .nameTooLong
  else .ok ()

/-- Follows names from a directory, and at most so many links. -/
def follow (d : Disk) : Nat → Place → List String → Except DiskError Place
  | _, here, [] => .ok here
  | links, here, name :: rest =>
    match d.lookUp here name with
    | .error e => .error e
    | .ok () =>
      if name = ".." then d.follow links here.dropLast rest
      else match d.node? (here ++ [name]), links with
        | none, _ => .error .noEntry
        | some .dir, links => d.follow links (here ++ [name]) rest
        | some (.file _), _ => if rest.isEmpty then .ok (here ++ [name]) else .error .notADirectory
        | some (.link _), 0 => .error .tooManyLinks
        | some (.link target), links + 1 =>
          let p := Path.ofText target
          d.follow links (if p.root.isEmpty then here else []) (p.parts ++ rest)
termination_by links _ names => (links, names.length)

def linkLimit : Nat := 40

/-- Where a path starts. -/
def origin (d : Disk) (p : Path) : Place := if p.root.isEmpty then d.here else []

/-- The place of a path, links followed. -/
def locate (d : Disk) (p : Path) : Except DiskError Place :=
  if pathLimit ≤ p.toText.utf8ByteSize then .error .nameTooLong
  else d.follow linkLimit (d.origin p) p.parts

/-- What stands at a path, links followed. -/
def find (d : Disk) (p : Path) : Except DiskError Node := do
  match d.node? (← d.locate p) with
  | some node => return node
  | none => throw .noEntry

/-- A refusal and the path that it is about. -/
structure Refused where
  error : DiskError
  path : Path
  deriving DecidableEq, Repr

def Refused.message (r : Refused) : String := r.error.message r.path

/-- Whether what stands at a path passes a test. That nothing is there is an answer; that it cannot be looked at is
none. -/
def passes (d : Disk) (test : Node → Bool) (p : Path) : Except Refused Bool :=
  match d.find p with
  | .ok node => .ok (test node)
  | .error e => if e.isAbsence then .ok false else .error ⟨e, p⟩

def isDir (d : Disk) (p : Path) : Except Refused Bool := d.passes Node.isDir p

def isFile (d : Disk) (p : Path) : Except Refused Bool := d.passes Node.isFile p

/-- The size that is told of a directory. -/
def dirSize : Nat := 4096

def size (d : Disk) (p : Path) : Except DiskError Nat := do
  match ← d.find p with
  | .file content => return content.length
  | _ => return dirSize

def read (d : Disk) (p : Path) : Except DiskError Bytes := do
  if d.unreadable.contains (← d.locate p) then throw .denied
  else match ← d.find p with
    | .file content => return content
    | _ => throw .isADirectory

/-- The entries below a directory, by their names from there on. -/
def below (d : Disk) (p : Path) : List (Place × Node) :=
  match d.locate p with
  | .ok place =>
    d.entries.filterMap fun (other, node) =>
      if place.isPrefixOf other && place.length < other.length then some (other.drop place.length, node) else none
  | .error _ => []

/-- Whether a walk lists a directory. One that may not be read is passed over. -/
def lists (d : Disk) (p : Path) : Except Refused Bool :=
  match d.locate p with
  | .ok place => .ok (!d.unreadable.contains place)
  | .error .denied => .ok false
  | .error e => .error ⟨e, p⟩

/-- Whether a walk from a directory comes along names: it has to list each directory on the way. -/
def reaches (d : Disk) : Path → List String → Except Refused Bool
  | _, [] => .ok true
  | p, name :: rest => do
    if ← d.lists p then d.reaches (p.child name) rest else return false

/-- Whether a walk from a directory comes to an entry. It lists a directory as soon as it has come to it. -/
def visits (d : Disk) (p : Path) (entry : Place × Node) : Except Refused Bool := do
  let reached ← d.reaches p entry.1
  if reached && entry.2.isDir then
    let _ ← d.lists (p.descendant entry.1)
  return reached

/-- Those of some entries that a walk from a directory comes to, by their names. -/
def visited (d : Disk) (p : Path) : List (Place × Node) → Except Refused (List Place)
  | [] => .ok []
  | entry :: rest => do
    let comes ← d.visits p entry
    let others ← d.visited p rest
    return if comes then entry.1 :: others else others

/-- The entries that a walk from a directory comes to, by their names from there on. -/
def walk (d : Disk) (p : Path) : Except Refused (List Place) := do
  if ← d.isDir p then d.visited p (d.below p) else return []

/-- Makes one directory. -/
def makeDir (d : Disk) (p : Path) : Except DiskError Disk :=
  match p.parts.getLast? with
  | none => .error .exists
  | some name => do
    if pathLimit ≤ p.toText.utf8ByteSize then throw .nameTooLong
    let place ← d.locate p.parent
    match d.node? place with
    | some .dir =>
      d.lookUp place name
      if name = ".." || (d.node? (place ++ [name])).isSome then throw .exists
      else if d.unwritable.contains place then throw .denied
      else return d.set (place ++ [name]) .dir
    | _ => throw .notADirectory

/-- The disk as it is if a directory that could not be made is there already. -/
def settleDir (d : Disk) (p : Path) (e : DiskError) : Except Refused Disk := do
  if ← d.isDir p then return d else throw ⟨e, p⟩

/-- Makes a directory unless it is there, as a second attempt. -/
def ensureDir (d : Disk) (p : Path) : Except Refused Disk :=
  match d.makeDir p with
  | .ok d => .ok d
  | .error .noEntry => .error ⟨.noEntry, p⟩
  | .error e => d.settleDir p e

/-- A disk after an attempt to change it, and what the attempt failed at. -/
def attempted (d : Disk) : Except Refused Disk → Disk × Option Refused
  | .ok d => (d, none)
  | .error e => (d, some e)

/-- Makes a directory and those above it, as far as they are missing. The disk is given even if this fails. -/
def makeDirs (d : Disk) (root : String) : (reversed : List String) → Disk × Option Refused
  | [] => d.attempted (d.ensureDir ⟨root, []⟩)
  | name :: above =>
    let p : Path := ⟨root, (name :: above).reverse⟩
    match d.makeDir p with
    | .ok d => (d, none)
    | .error .noEntry =>
      match makeDirs d root above with
      | (d, some e) => (d, some e)
      | (d, none) => d.attempted (d.ensureDir p)
    | .error e => d.attempted (d.settleDir p e)

/-- The place that a file at a path is written to; a link leads on to its target. -/
def writePlace (d : Disk) : Nat → Place → List String → Except DiskError Place
  | links, here, names =>
    match names.getLast? with
    | none => .error .isADirectory
    | some name => do
      let place ← d.follow linkLimit here names.dropLast
      match d.node? place with
      | some .dir =>
        d.lookUp place name
        if name = ".." then throw .isADirectory
        else match d.node? (place ++ [name]), links with
          | some .dir, _ => throw .isADirectory
          | some (.link _), 0 => throw .tooManyLinks
          | some (.link target), links + 1 =>
            let p := Path.ofText target
            d.writePlace links (if p.root.isEmpty then place else []) p.parts
          | some (.file _), _ =>
            if d.unwritable.contains (place ++ [name]) then throw .denied else return place ++ [name]
          | none, _ => if d.unwritable.contains place then throw .denied else return place ++ [name]
      | _ => throw .notADirectory

def write (d : Disk) (p : Path) (content : Bytes) : Except Refused Disk :=
  if pathLimit ≤ p.toText.utf8ByteSize then .error ⟨.nameTooLong, p⟩
  else match d.writePlace linkLimit (d.origin p) p.parts with
    | .ok place => .ok (d.set place (.file content))
    | .error e => .error ⟨e, p⟩

/-- The files of a disk that another did not have, or not with this content. -/
def changes (before after : Disk) : List (Place × Bytes) :=
  after.entries.filterMap fun (place, node) =>
    match node with
    | .file content => if before.node? place = some (.file content) then none else some (place, content)
    | _ => none

end Disk

end ScriptAudit
