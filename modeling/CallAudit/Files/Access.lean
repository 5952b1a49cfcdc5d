/-!
# Access to files

Loading and running are written for any way of getting at files: those of the machine, or a tree held
in memory.
-/

namespace CallAudit

/-- Why a file cannot be read or written. -/
inductive FileFault where
  | notFound
  | notDirectory
  | isDirectory
  | nameTooLong
  /-- The path has the character that ends a name. -/
  | endInName
  | notText
  | other (text : String)
deriving DecidableEq, Repr, Inhabited

/-- The fault in the words of the system. -/
def FileFault.message : FileFault → String
  | notFound => "No such file or directory (os error 2)"
  | notDirectory => "Not a directory (os error 20)"
  | isDirectory => "Is a directory (os error 21)"
  | nameTooLong => "File name too long (os error 36)"
  | endInName => "file name contained an unexpected NUL byte"
  | notText => "stream did not contain valid UTF-8"
  | other text => text

/-- The most bytes that one part of a path may take. -/
def FileFault.maxPartLength : Nat := 255

/-- The most bytes that a path may take. -/
def FileFault.maxPathLength : Nat := 4095

/-- What makes a path useless before any file is looked for. -/
def FileFault.ofPath? (path : String) : Option FileFault :=
  if path.contains (Char.ofNat 0) then some .endInName
  else if FileFault.maxPathLength < path.utf8ByteSize then some .nameTooLong
  else none

/-- A way of getting at files. -/
structure FileAccess (m : Type → Type) where
  exists? : (path : String) → m Bool
  readBytes : (path : String) → m (Except FileFault ByteArray)
  /-- Writes a file, in place of one that may be there. -/
  write : (path content : String) → m (Except FileFault Unit)

/-- Reads a file that holds a text. -/
def FileAccess.readText [Monad m] (files : FileAccess m) (path : String) :
    m (Except FileFault String) := do
  match ← files.readBytes path with
  | .error fault => return .error fault
  | .ok bytes =>
      match String.fromUTF8? bytes with
      | some text => return .ok text
      | none => return .error .notText

end CallAudit
