import PromptTemplate.Command.Run
import PromptTemplate.Response.Identifier

/-!
# Main — the command line

Reads the standard input and the files that are asked for, runs the program on them and writes
what it leaves.
-/

namespace PromptTemplate.Command

/-- The words for the reason why a file cannot be read, with the number of the reason, which may
have been given as a negative one. -/
def fileReason (e : IO.Error) : Text :=
  let numbered (code : UInt32) (details : String) : Text :=
    details.capitalize.toList ++ " (os error ".toList
      ++ Decimal.digits code.toInt32.toInt.natAbs ++ [')']
  match e with
  | .noFileOrDirectory _ code details => numbered code details
  | .permissionDenied _ code details => numbered code details
  | .inappropriateType _ code details => numbered code details
  | .invalidArgument _ code details =>
    numbered code (if details = "name too long" then "file name too long" else details)
  | e => (toString e).toList

/-- The bytes of a file, or the reason why there are none. -/
def readBytes (path : Text) : IO (Except Text ByteArray) := do
  try
    return .ok (← IO.FS.readBinFile (String.ofList path))
  catch e =>
    return .error (fileReason e)

/-- The files that the arguments name, read once each. -/
def readFiles (args : List Text) : IO (List (Text × Except Text ByteArray)) :=
  match parseArguments args with
  | .error _ => return []
  | .ok a =>
    [a.input, a.values, a.model, a.existing].reduceOption.mapM fun path => do
      return (path, ← readBytes path)

/-- A random identifier. -/
def randomIdentifier : IO Response.Identifier := do
  let bytes ← IO.getRandomBytes 16
  let n := bytes.toList.foldl (fun n b => 256 * n + b.toNat) 0
  return .ofRandom (BitVec.ofNat 128 n)

end PromptTemplate.Command

open PromptTemplate in
/-- Runs the program on the files that its arguments name and writes what it leaves. -/
def main (args : List String) : IO UInt32 := do
  let args := args.map String.toList
  let files ← Command.readFiles args
  let fromStdin := match Command.parseArguments args with
    | .ok a => a.input.isNone
    | .error _ => false
  let stdin ← if fromStdin then (← IO.getStdin).readBinToEnd else pure ByteArray.empty
  let world : Command.World := ⟨stdin, fun path =>
    ((files.find? (·.1 = path)).map (·.2)).getD (.error "No such file or directory".toList)⟩
  let contents := match Command.parseArguments args with
    | .ok a => ((Command.readInput world a.input).map Response.contents).toOption.getD []
    | .error _ => []
  let ids ← contents.mapM fun _ => Command.randomIdentifier
  let outcome := Command.run world (fun i => (ids.getD i 0).text) args
  (← IO.getStdout).putStr (String.ofList outcome.stdout)
  (← IO.getStderr).putStr (String.ofList outcome.stderr)
  return outcome.code.toUInt32
