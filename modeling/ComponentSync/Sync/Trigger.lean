import ComponentSync.Sync.World
import ComponentSync.Text.Lossy
/-!
Running a command on the target and capturing what it prints. Output chunks from standard
output and standard error arrive on one stream in order. A scanner keeps the bytes of the line
not yet complete; each chunk goes after them, and every line it completes is cut off at its
newline byte and shown at once. When the output ends, a last piece without a newline is a line
too. Each line is decoded from UTF-8 with invalid bytes replaced, loses its trailing carriage
returns, and is shown on the console when output is shown; the captured output is every line
followed by a newline.
-/
namespace ComponentSync

/-- The pieces of a byte list between newline bytes; the last piece may be empty. -/
def splitNewlines (bytes : List UInt8) : List (List UInt8) :=
  bytes.splitOn 10

/-- The text of a line of output: its bytes decoded with invalid ones replaced, trailing
carriage returns dropped. -/
def lineText (piece : List UInt8) : String :=
  Text.dropTrailing '\r' (String.ofList (Text.decodeLossy piece))

/-- The lines of a command's output: the pieces of all its bytes between newlines, less the
empty piece after a final newline. -/
def outputLines (chunks : List ByteArray) : List String :=
  let bytes := chunks.flatMap ByteArray.toList
  let pieces := splitNewlines bytes
  let pieces := if pieces.getLast? == some [] then pieces.dropLast else pieces
  pieces.map lineText

/-- Cuts the complete lines off the front of the bytes received: the bytes before each newline
in turn, and what follows the last newline. -/
def drainLines (pending : List UInt8) : List (List UInt8) × List UInt8 :=
  match h : pending.dropWhile (· != 10) with
  | [] => ([], pending)
  | _ :: rest =>
    let drained := drainLines rest
    (pending.takeWhile (· != 10) :: drained.1, drained.2)
termination_by pending.length
decreasing_by
  have := (List.dropWhile_suffix (· != 10) (l := pending)).length_le
  rw [h] at this
  simp at this
  omega

/-- What the output scanner holds: the bytes of the line not yet complete, and the lines shown
so far. -/
structure LineScan where
  pending : List UInt8
  shown : List String

def LineScan.start : LineScan := ⟨[], []⟩

/-- Takes one chunk: its bytes go after the pending ones, and every line they complete is
shown. -/
def LineScan.feed (s : LineScan) (chunk : ByteArray) : LineScan :=
  let (complete, rest) := drainLines (s.pending ++ chunk.toList)
  ⟨rest, s.shown ++ complete.map lineText⟩

/-- The lines once the output has ended: a last line without a newline is shown too. -/
def LineScan.close (s : LineScan) : List String :=
  if s.pending.isEmpty then s.shown else s.shown ++ [lineText s.pending]

/-- The lines of a command's output, scanned chunk by chunk. -/
def scanLines (chunks : List ByteArray) : List String :=
  (chunks.foldl LineScan.feed LineScan.start).close

/-- Runs a command on an instance and returns its captured output. A failing command fails the
push with the command line, the output captured so far and the target's error. -/
def trigger {σ : Type} (t : Target σ) (inst : Instance) (container : String)
    (argv : List String) (showOutput : Bool) : PushM σ String := do
  let (chunks, ending) ← onTarget (t.exec inst container argv)
  let lines := scanLines chunks
  if showOutput then say fun c => lines.foldl Console.line c
  let output := String.join (lines.map (· ++ "\n"))
  orFail ending fun e => .remoteCommand (" ".intercalate argv) output e
  return output

end ComponentSync
