import GettextTemplate.Program
import Std.Time.DateTime.Timestamp

/-!
The command line program on the file system of the machine. All that is decided is decided in
`Program.run`; here its operations are carried out.
-/

namespace GettextTemplate.Machine

/-- A refusal by its number, which may come as a negative one, with the words of the system for
one that has no name here. -/
def fileErrorOfCode (code : UInt32) (reason : String) : FileError :=
  match code.toInt32.toInt.natAbs with
  | 2 => .notFound
  | 17 => .exists
  | 20 => .notDirectory
  | 21 => .isDirectory
  | 22 => .invalidArgument
  | 36 => .nameTooLong
  | number => .other (reason ++ " (os error " ++ number.repr ++ ")")

def fileError : IO.Error → FileError
  | .alreadyExists _ code reason => fileErrorOfCode code reason
  | .otherError code reason => fileErrorOfCode code reason
  | .resourceBusy code reason => fileErrorOfCode code reason
  | .resourceVanished code reason => fileErrorOfCode code reason
  | .unsupportedOperation code reason => fileErrorOfCode code reason
  | .hardwareFault code reason => fileErrorOfCode code reason
  | .unsatisfiedConstraints code reason => fileErrorOfCode code reason
  | .illegalOperation code reason => fileErrorOfCode code reason
  | .protocolError code reason => fileErrorOfCode code reason
  | .timeExpired code reason => fileErrorOfCode code reason
  | .interrupted _ code reason => fileErrorOfCode code reason
  | .noFileOrDirectory _ code reason => fileErrorOfCode code reason
  | .invalidArgument _ code reason => fileErrorOfCode code reason
  | .permissionDenied _ code reason => fileErrorOfCode code reason
  | .resourceExhausted _ code reason => fileErrorOfCode code reason
  | .inappropriateType _ code reason => fileErrorOfCode code reason
  | .noSuchThing _ code reason => fileErrorOfCode code reason
  | .unexpectedEof => .other "unexpected end of file"
  | .userError reason => .other reason

/-- Carries out an action, unless a name on its path cannot exist. -/
def attempt {α : Type} (path : Path) (onNull : FileError) (action : IO α) :
    ExceptT FileError IO α :=
  ExceptT.mk do
    if path.hasNull then
      return .error onNull
    try
      return .ok (← action)
    catch e =>
      return .error (fileError e)

/-- Writes a new file under a random name, a few times if the name is in use. -/
def writeNew (directory : Path) (content : Json.Bytes) : (tries : Nat) → IO String
  | 0 => throw (.userError "no free name for a staged file")
  | tries + 1 => do
    let path := directory.text ++ "/.tmp" ++ (← IO.rand 100000 999999).repr
    try
      let handle ← IO.FS.Handle.mk path .writeNew
      handle.write content.toByteArray
      handle.flush
      return path
    catch e =>
      match fileError e with
      | .exists => writeNew directory content tries
      | _ => throw e

/-- The file system of the machine. Staged files are known by their paths. -/
def files : Files IO String where
  read path := attempt path .nullInName do
    return (← IO.FS.readBinFile path.text).data.toList
  isDirectory path := do
    match ← (attempt path .nullInName (IO.FS.realPath path.text)).run with
    | .ok real => real.isDir
    | .error _ => return false
  makeDirectory path := attempt path .nullInName (IO.FS.createDir path.text)
  stage directory content := attempt directory .nullInName (writeNew directory content 100)
  commit staged path := tryCatch
    (attempt path .invalidArgument (IO.FS.rename staged path.text))
    fun e => do
      try
        IO.FS.removeFile staged
      catch _ =>
        pure ()
      throw e
  now := do return (← Std.Time.Timestamp.now).toSecondsSinceUnixEpoch.val

end GettextTemplate.Machine

def main (arguments : List String) : IO UInt32 := do
  let output ← GettextTemplate.Program.run GettextTemplate.Machine.files arguments
  IO.print output.stdout
  IO.eprint output.stderr
  return output.exitCode.toUInt32
