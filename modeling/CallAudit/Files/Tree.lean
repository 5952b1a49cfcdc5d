import CallAudit.Files.Access
import CallAudit.Files.Path

/-!
# File trees in memory

A tree of files, each at a place given by the names on the way to it. A directory is there if it is
listed, if a file lies somewhere below it, or if it is the top of the tree or above that.
-/

namespace CallAudit

/-- The names on the way to a file or a directory. -/
abbrev Place := List String

/-- Files by place, and directories that may be empty. -/
structure FileTree where
  files : List (Place × ByteArray) := []
  directories : List Place := []
deriving Inhabited

namespace FileTree

def file? (t : FileTree) (place : Place) : Option ByteArray :=
  (t.files.find? (·.1 == place)).map Prod.snd

def isDirectory (t : FileTree) (place : Place) : Bool :=
  place.all (· == "..") || t.directories.contains place || t.files.any fun (other, _) =>
    place.isPrefixOf other && other.length != place.length

/-- Goes on by one part of a path. -/
def step (place : Place) (part : String) : Place :=
  if part.isEmpty || part == "." then place
  else if part == ".." && !place.all (· == "..") then place.dropLast
  else place ++ [part]

/-- Follows the parts of a path. Whatever it goes on from must be a directory, and no part may be too
long to be looked for in it. -/
def follow (t : FileTree) : Place → List String → Except FileFault Place
  | place, [] => .ok place
  | place, part :: rest =>
      if t.isDirectory place then
        if FileFault.maxPartLength < part.utf8ByteSize then .error .nameTooLong
        else follow t (step place part) rest
      else if (t.file? place).isSome then .error .notDirectory
      else .error .notFound

/-- The place a path leads to. Nothing is found at the root or at no path. -/
def locate (t : FileTree) (path : String) : Except FileFault Place :=
  match FileFault.ofPath? path with
  | some fault => .error fault
  | none =>
      if path.isEmpty || path.startsWith "/" then .error .notFound
      else t.follow [] ((Path.parts path.toList).map String.ofList)

def readBytes (t : FileTree) (path : String) : Except FileFault ByteArray := do
  let place ← t.locate path
  match t.file? place with
  | some bytes => return bytes
  | none => throw (if t.isDirectory place then .isDirectory else .notFound)

def contains (t : FileTree) (path : String) : Bool :=
  match t.locate path with
  | .ok place => (t.file? place).isSome || t.isDirectory place
  | .error _ => false

/-- Puts a file at a place, over one that may be there. -/
def put (t : FileTree) (place : Place) (bytes : ByteArray) : FileTree :=
  { t with files := (place, bytes) :: t.files.filter (·.1 != place) }

def write (t : FileTree) (path content : String) : Except FileFault FileTree := do
  let place ← t.locate path
  if t.isDirectory place then throw .isDirectory
  return t.put place content.toUTF8

/-- Puts a file where a path leads, with the directories on the way. -/
def plant (t : FileTree) (path : String) (bytes : ByteArray) : FileTree :=
  t.put (((Path.parts path.toList).map String.ofList).foldl step []) bytes

/-- Access to a tree that is part of a state. -/
def access : FileAccess (StateM FileTree) where
  exists? path := return (← get).contains path
  readBytes path := return (← get).readBytes path
  write path content := do
    match (← get).write path content with
    | .ok t => set t; return .ok ()
    | .error fault => return .error fault

end FileTree

end CallAudit
