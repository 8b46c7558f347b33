import AttributeExchange.CommandLine.Run

/-!
# The program

Reads the arguments and the file of settings, prints the transcript of the run and exits with its
code.
-/

namespace AttributeExchange.CommandLine

def fileFault : IO.Error → FileFault
  | .noFileOrDirectory _ number meaning | .inappropriateType _ number meaning
  | .invalidArgument _ number meaning | .permissionDenied _ number meaning
  | .otherError number meaning => ⟨number.toNat, meaning⟩
  | _ => .unreadable

def readFile (path : String) : IO FileReading := do
  match ← (IO.FS.Handle.mk path .read).toBaseIO with
  | .error fault => return .unopened (fileFault fault)
  | .ok handle =>
    match ← handle.readBinToEnd.toBaseIO with
    | .error fault => return .unread (fileFault fault)
    | .ok bytes => return .contents bytes.data.toList

def program (arguments : List String) : IO UInt32 := do
  let settingsPath ← IO.getEnv "ATTRIBUTE_REQUEST_CONFIG"
  let reading ←
    match Options.ofArguments arguments settingsPath with
    | .ok options =>
      match options.settingsPath with
      | some path => readFile path
      | none => pure (.unopened .noSuchFile)
    | .error _ => pure (.unopened .noSuchFile)
  let transcript := runArguments arguments ⟨settingsPath, fun _ => reading, true⟩
  IO.print transcript.outputText
  IO.eprint transcript.failureText
  return UInt32.ofNat transcript.exitCode

end AttributeExchange.CommandLine

def main (arguments : List String) : IO UInt32 :=
  AttributeExchange.CommandLine.program arguments
