import CallAudit.Error

/-!
# Sinks

A sink takes a text piece by piece. It may hold a limited number of bytes, and then rejects a piece
that does not fit as a whole.
-/

namespace CallAudit

/-- What a text is written to. -/
structure Sink where
  written : String := ""
  /-- How many bytes there is room for, if that is limited. -/
  capacity : Option Nat := none
deriving DecidableEq, Repr, Inhabited

namespace Sink

/-- The failure of a write to a sink without room. -/
def full : AuditError := .sink "sink full"

/-- Whether there is room for a piece. -/
def hasRoom (s : Sink) (piece : String) : Bool :=
  s.capacity.all (s.written.utf8ByteSize + piece.utf8ByteSize ≤ ·)

/-- Writes a piece, if there is room for it. -/
def write (s : Sink) (piece : String) : Option Sink :=
  if s.hasRoom piece then some { s with written := s.written ++ piece } else none

end Sink

end CallAudit
