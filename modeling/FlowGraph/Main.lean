import FlowGraph.CommandLine.Execution
import Std.Time.Format

/-!
# The program

Commands run on the disk, with the clock and the standard streams of the process.
-/

namespace FlowGraph.Program

open CommandLine (FileFault Host RunLabel)

/-- A fault of the disk. -/
def faultOf : IO.Error → FileFault
  | .noFileOrDirectory _ _ _ => .notFound
  | .noSuchThing _ _ _ => .notFound
  | .alreadyExists _ code _ => if code = 21 then .isDirectory else .exists
  | .inappropriateType _ code _ => if code = 21 then .isDirectory else .notDirectory
  | .invalidArgument _ code details => if code = 36 then .nameTooLong else .other details
  | .userError _ => .notText
  | fault => .other (toString fault)

/-- An operation of the disk and its fault. -/
def attempt {α : Type} (operation : IO α) : IO (Except FileFault α) := do
  match ← operation.toBaseIO with
  | .ok a => return .ok a
  | .error fault => return .error (faultOf fault)

/-- Two hexadecimal digits. -/
def hexByte (byte : UInt8) : String :=
  String.ofList [Json.hexChar (byte.toNat / 16), Json.hexChar byte.toNat]

/-- A random id in five groups, marked as random. -/
def randomId : IO String := do
  let bytes ← IO.getRandomBytes 16
  let marked := (bytes.set! 6 (bytes[6]! &&& 0x0F ||| 0x40)).set! 8 (bytes[8]! &&& 0x3F ||| 0x80)
  let digits := marked.toList.map hexByte
  let group (start length : Nat) : String := String.join ((digits.drop start).take length)
  return "-".intercalate [group 0 4, group 4 2, group 6 2, group 8 2, group 10 6]

/-- An instant some milliseconds after another, in universal time. -/
def stampAfter (start : Std.Time.Timestamp) (ms : Nat) : String :=
  let instant := start.addMilliseconds (Std.Time.Millisecond.Offset.ofNat ms)
  let nanos := instant.toNanosecondsSinceUnixEpoch
  (Std.Time.PlainDateTime.ofWallTime (.ofNanoseconds nanos)).format
    "uuuu-MM-dd'T'HH:mm:ss.SSSSSSSSS'Z'"

/-- The process as a host. -/
def processHost : Host IO where
  readFile path := attempt (IO.FS.readFile path)
  readInput := attempt do
    let input ← IO.getStdin
    if ← input.isTty then return "" else input.readToEnd
  makeDirectory path := attempt (IO.FS.createDir path)
  isDirectory path := do ((← IO.currentDir) / path).isDir
  writeFile path text := attempt (IO.FS.writeFile path text)
  labelRun := do
    let start ← Std.Time.Timestamp.now
    return ⟨← randomId, stampAfter start⟩
  passTime ms := IO.sleep (UInt32.ofNat ms)

end FlowGraph.Program

/-- Carry out the command of the arguments. -/
def main (arguments : List String) : IO UInt32 := do
  let answer ← FlowGraph.CommandLine.answer FlowGraph.Program.processHost arguments
  (← IO.getStdout).putStr answer.output
  (← IO.getStderr).putStr answer.errors
  return UInt32.ofNat answer.exitCode
