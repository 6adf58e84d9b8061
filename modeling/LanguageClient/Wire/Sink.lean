import LanguageClient.Wire.Frame

namespace LanguageClient.Wire

/-- How a pipe accepts what is written, and what it has taken so far, the newest piece first. -/
structure Sink where
  accept : Nat → Nat := fun _ => 65536
  /-- How many bytes are taken before writes are refused. -/
  room : Option Nat := none
  /-- The number of the flush that is refused, counted from one. -/
  badFlush : Option Nat := none
  pieces : List Bytes := []
  writes : Nat := 0
  taken : Nat := 0
  flushes : Nat := 0

namespace Sink

def written (s : Sink) : Bytes := s.pieces.reverse.flatten

def allowance (s : Sink) : Nat :=
  match s.room with
  | some room => min (room - s.taken) (s.accept s.writes)
  | none => s.accept s.writes

/-- Why a write takes nothing: a pipe with little room refuses it. -/
def stall (s : Sink) : Fault :=
  .io (if s.room.isSome then "write refused" else "failed to write whole buffer")

/-- Writes bytes until all are taken or a write takes none. -/
def writeAll (s : Sink) : Bytes → Except Fault Unit × Sink
  | [] => (.ok (), s)
  | b :: bytes =>
    if s.allowance = 0 then (.error s.stall, s)
    else
      let count := s.allowance - 1
      let piece := b :: bytes.take count
      writeAll
        { s with
          pieces := piece :: s.pieces
          writes := s.writes + 1
          taken := s.taken + piece.length }
        (bytes.drop count)
termination_by bytes => bytes.length
decreasing_by simp only [List.length_drop, List.length_cons]; omega

def flush (s : Sink) : Except Fault Unit × Sink :=
  let s := { s with flushes := s.flushes + 1 }
  if s.badFlush = some s.flushes then (.error (.io "flush refused"), s) else (.ok (), s)

def writeFrame (s : Sink) (body : Bytes) : Except Fault Unit × Sink :=
  match s.writeAll (Frame.encode body) with
  | (.ok (), s) => s.flush
  | (.error fault, s) => (.error fault, s)

end Sink

end LanguageClient.Wire
