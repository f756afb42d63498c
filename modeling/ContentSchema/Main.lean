import ContentSchema.Command.Run

/-!
# The program

The command line on the files of a disk.
-/

namespace ContentSchema
namespace Disk

/-- The number of a system error, which some calls report as its negation. -/
def systemNumber (code : UInt32) : UInt32 :=
  if code < 0x80000000 then code else 0 - code

/-- The error of a file that an error of the system tells. -/
def fileError : IO.Error → FileError
  | .noFileOrDirectory _ _ _ => .notFound
  | .inappropriateType _ code details =>
      let number := systemNumber code
      if number = 20 then .notADirectory
      else if number = 21 then .isADirectory
      else .other details
  | error => .other (toString error)

/-- Do something with files, or tell why that is impossible. -/
def attempt {α : Type} (action : IO α) : IO (Except FileError α) := do
  match ← action.toBaseIO with
  | .ok a => return .ok a
  | .error error => return .error (fileError error)

/-- The directory that a path leads to, as an entry of its own. -/
def entry (path : String) : IO.FS.DirEntry :=
  ⟨path, ""⟩

/-- Whether a path leads to something of a type. -/
def hasType (path : String) (type : IO.FS.FileType) : IO Bool := do
  match ← (entry path).root.metadata.toBaseIO with
  | .ok metadata => return metadata.type == type
  | .error _ => return false

instance : Files IO where
  names path := attempt do
    return (← (entry path).root.readDir).toList.map IO.FS.DirEntry.fileName
  isDirectory path := hasType path .dir
  isFile path := hasType path .file
  content path := attempt (IO.FS.readBinFile path)
  write path content := attempt (IO.FS.writeBinFile path content)

end Disk
end ContentSchema

/-- Run the command line. -/
def main (arguments : List String) : IO UInt32 := do
  let outcome : ContentSchema.Outcome ← ContentSchema.Command.runArguments arguments
  IO.print outcome.stdout
  IO.eprint outcome.stderr
  return outcome.exit.toUInt32
