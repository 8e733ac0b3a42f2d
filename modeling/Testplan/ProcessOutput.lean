import Testplan.JobQueue
/-!
# What a process prints

A process writes bytes to two streams and ends, by itself with an exit code or by a
signal without one.  Whoever watches it sees **lines**: the bytes of each stream are cut
at line feeds, a carriage return before the line feed is dropped, and what is left at the
end is a line too.  Bytes that are no text end the lines of their stream, with one line
that says so; what the stream holds after them is not seen.

The exit comes after all lines.  A process without an exit code counts as failed with
code 1.
-/
namespace Testplan

/-- The streams that a process writes to. -/
inductive OutputStream where
  | stdout
  | stderr
deriving DecidableEq, Repr

/-- The name of a stream in messages. -/
def OutputStream.name : OutputStream → String
  | stdout => "STDOUT"
  | stderr => "STDERR"

/-- What a process does while it runs. -/
inductive ProcessStep where
  | write (stream : OutputStream) (bytes : List UInt8)
  | pause (ms : Time)
deriving Repr

/-- **The run of a process.** -/
structure ProcessRun where
  steps : List ProcessStep
  /-- The exit code; none if a signal ended the process. -/
  exit : Option Nat
deriving Repr

/-- What is seen of a process. -/
inductive OutputEvent where
  | line (stream : OutputStream) (text : String)
  | pause (ms : Time)
  | exited (code : Nat)
deriving Repr

/-! ## Lines -/

/-- What has been read of a stream since its last line feed, and whether it can still be
read. -/
structure LineReader where
  pending : List UInt8 := []
  broken : Bool := false

/-- The line that says that a stream is no text. -/
def undecodableLine (stream : OutputStream) : String :=
  stream.name ++ " 읽기 오류: Unable to decode input as UTF8"

/-- The text of a line without a carriage return at its end. -/
def lineText? (bytes : List UInt8) : Option String :=
  let bytes := if bytes.getLast? = some 13 then bytes.dropLast else bytes
  String.fromUTF8? ⟨bytes.toArray⟩

/-- The pieces of bytes between line feeds, one more than there are line feeds: the first
and the others. -/
def pieces (bytes : List UInt8) : List UInt8 × List (List UInt8) :=
  bytes.foldr (fun b (first, others) =>
    if b = 10 then ([], first :: others) else (b :: first, others)) ([], [])

namespace LineReader

/-- Ends a line. -/
def endLine (stream : OutputStream) (r : LineReader) (bytes : List UInt8) :
    LineReader × List OutputEvent :=
  if r.broken then (r, [])
  else match lineText? bytes with
    | some s => ({ r with pending := [] }, [.line stream s])
    | none => ({ pending := [], broken := true }, [.line stream (undecodableLine stream)])

/-- Reads pieces, of which the last is not yet a line. -/
def readPieces (stream : OutputStream) (r : LineReader) (piece : List UInt8) :
    List (List UInt8) → LineReader × List OutputEvent
  | [] => ({ r with pending := piece }, [])
  | next :: others =>
    let (r, here) := r.endLine stream piece
    let (r, more) := r.readPieces stream next others
    (r, here ++ more)

/-- Reads bytes. -/
def read (stream : OutputStream) (r : LineReader) (bytes : List UInt8) :
    LineReader × List OutputEvent :=
  let (first, others) := pieces bytes
  r.readPieces stream (r.pending ++ first) others

/-- The last line, if the stream does not end with a line feed.  A carriage return alone
is no line. -/
def finish (stream : OutputStream) (r : LineReader) : List OutputEvent :=
  if r.pending.isEmpty || r.pending = [13] then [] else (r.endLine stream r.pending).2

end LineReader

/-! ## Events -/

/-- The events of the steps of a process, in their order, given what both streams hold
before. -/
def eventsFrom (out err : LineReader) : List ProcessStep → List OutputEvent
  | [] => out.finish .stdout ++ err.finish .stderr
  | .pause ms :: rest => .pause ms :: eventsFrom out err rest
  | .write .stdout bytes :: rest =>
    let (out, here) := out.read .stdout bytes
    here ++ eventsFrom out err rest
  | .write .stderr bytes :: rest =>
    let (err, here) := err.read .stderr bytes
    here ++ eventsFrom out err rest

/-- The exit code that counts. -/
def ProcessRun.code (p : ProcessRun) : Nat := p.exit.getD 1

/-- **What is seen of the run of a process.** -/
def ProcessRun.events (p : ProcessRun) : List OutputEvent :=
  eventsFrom {} {} p.steps ++ [.exited p.code]

end Testplan
