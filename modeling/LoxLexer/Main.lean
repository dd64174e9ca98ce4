import LoxLexer.CommandLine.Invocation

namespace LoxLexer.Program

open CommandLine

def write (output errorOutput : List Char) : IO Unit := do
  let stdout ← IO.getStdout
  stdout.putStr (String.ofList output)
  stdout.flush
  (← IO.getStderr).putStr (String.ofList errorOutput)

/-- Codes of the system may come negated. -/
def systemError : IO.Error → SystemError
  | .noFileOrDirectory _ code details | .inappropriateType _ code details
  | .invalidArgument _ code details | .permissionDenied _ code details
  | .resourceExhausted _ code details => .ofNumber code.toInt32.toInt.natAbs details.toList
  | e => .ofNumber 0 (toString e).toList

def readScript (path : String) : IO (Except ReadFailure (List UInt8)) := do
  if '\x00' ∈ path.toList then return .error .embeddedNull
  try
    return .ok (← IO.FS.readBinFile path).toList
  catch e =>
    return .error (.system (systemError e))

/-- Reads up to a newline or the end, byte by byte so that nothing is decoded. -/
partial def readLine (input : IO.FS.Stream) (line : ByteArray) : IO ByteArray := do
  let byte ← input.read 1
  if byte.isEmpty then return line
  let line := line ++ byte
  if byte.toList = [10] then return line else readLine input line

def finish (level : Log.Level) (t : Transcript) : IO UInt32 := do
  write t.output (t.errorOutput level)
  match t.ending with
  | .ok status => return status.toUInt32
  | .error _ => return 1

partial def promptLoop (level : Log.Level) (input : IO.FS.Stream) : IO UInt32 := do
  write promptText []
  let line ← readLine input .empty
  if line.isEmpty then return 0
  let t := lineTranscript ((Input.bytes line.toList).lines.head?.getD [])
  match t.ending with
  | .ok _ =>
    write t.output (t.errorOutput level)
    promptLoop level input
  | .error _ => finish level t

def run (arguments : Arguments) : IO UInt32 := do
  match arguments.job with
  | .misuse => finish arguments.level misuseTranscript
  | .script path =>
    let read ← readScript (String.ofList path)
    finish arguments.level (scriptTranscript Entrance.program.logger path read)
  | .prompt => promptLoop arguments.level (← IO.getStdin)

def refuse (refusal : Refusal) : IO UInt32 := do
  let result := refusal.result .warning
  write result.output result.errorOutput
  match result.ending with
  | .returned status | .exited status => return status.toUInt32
  | .broken _ => return 1

end LoxLexer.Program

def main (arguments : List String) : IO UInt32 :=
  match LoxLexer.CommandLine.Arguments.parse (arguments.map String.toList) with
  | .error refusal => LoxLexer.Program.refuse refusal
  | .ok arguments => LoxLexer.Program.run arguments
