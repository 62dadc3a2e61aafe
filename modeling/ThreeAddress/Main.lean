import ThreeAddress.Command.Run

/-!
# Command line program

Reads the files and variables that a command line asks for, runs it on them, and writes
what it leaves behind.
-/

namespace ThreeAddress

/-- What the file system holds under a path. -/
def lookUp (path : Text) : IO Stored := do
  let some name := String.fromUTF8? ⟨path.toArray⟩ | return .missing
  let found ← (IO.FS.readBinFile name).toBaseIO
  match found with
  | .ok content => return .file content.toList
  | .error (.noFileOrDirectory ..) => return .missing
  | .error (.noSuchThing ..) => return .missing
  | .error (.permissionDenied ..) => return .closed "permission denied"
  | .error _ => return .directory

def lookUpKey (key : Key) : IO (Option Text) := do
  let some name := String.fromUTF8? ⟨key.name.toArray⟩ | return none
  return (← IO.getEnv name).map utf8

/-- The world as far as a request asks about it. -/
def observe (r : Request) : IO World := do
  let files ← r.paths.mapM fun path => return (path, ← lookUp path)
  let bindings ← Key.all.mapM fun key => return (key, ← lookUpKey key)
  return {
    stored := fun path => (files.lookup path).getD .missing
    environment := fun key => (bindings.lookup key).join }

end ThreeAddress

open ThreeAddress in
def main (arguments : List String) : IO UInt32 := do
  let request := Request.ofArguments (arguments.map utf8)
  let output := request.perform (← observe request)
  (← IO.getStdout).write ⟨output.stdout.toArray⟩
  (← IO.getStderr).write ⟨output.stderr.toArray⟩
  return output.exit.toUInt32
