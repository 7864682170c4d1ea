import WafRules.Command

/-!
# The command line

The outer layer of the program: it looks up on disk what a command may ask for, runs the
command, and prints what it leaves behind.
-/

namespace WafRules.CommandLine

/-- The number of an error, which some calls give with the opposite sign. -/
def errorNumber (code : UInt32) : UInt32 := if code < 0x80000000 then code else 0 - code

/-- A refusal that the operating system gives a number and a reason for. -/
def numberedError (code : UInt32) (reason : String) : StorageError :=
  match errorNumber code with
  | 2 => .notFound
  | 20 => .notADirectory
  | 21 => .isADirectory
  | 36 => .nameTooLong
  | number => .refused (reason ++ " (os error " ++ toString number ++ ")")

/-- A refusal of the operating system. -/
def storageError (e : IO.Error) : StorageError :=
  match e with
  | .noFileOrDirectory .. | .noSuchThing .. => .notFound
  | .inappropriateType _ code reason | .invalidArgument _ code reason =>
    numberedError code reason
  | .permissionDenied _ code _ => numberedError code "Permission denied"
  | e => .refused (toString e)

/-- The result of an action, or why the operating system refused it. -/
def attempt {α : Type} (action : IO α) : IO (Except StorageError α) := do
  try return .ok (← action)
  catch e => return .error (storageError e)

/-- The entries of a directory on disk. -/
def entries (directory : String) : IO (List DirectoryEntry) := do
  let found ← (System.mkFilePath [directory]).readDir
  found.toList.mapM fun entry => do
    let isFile ← try pure ((← entry.path.metadata).type == .file) catch _ => pure false
    return ⟨entry.fileName, isFile⟩

/-- The storage that holds what is on disk at a path and, for a directory, in its files. -/
def snapshot (path : String) : IO Storage := do
  let content ← attempt (IO.FS.readBinFile path)
  let listing ← attempt (entries path)
  let files := (listing.toOption.getD []).filter fun entry => entry.isFile
  let contents ← files.mapM fun entry => do
    let file := joinPath path entry.name
    return (file, ← attempt (IO.FS.readBinFile file))
  return {
    read := fun p => if p = path then content else (contents.lookup p).getD (.error .notFound)
    list := fun p => if p = path then listing else .error .notFound }

/-- All bytes of a stream, after those read before. -/
partial def readAll (stream : IO.FS.Stream) (before : ByteArray) : IO ByteArray := do
  let bytes ← stream.read 65536
  if bytes.isEmpty then return before else readAll stream (before ++ bytes)

/-- A command with what it may ask for. -/
def prepare (command : Command) : IO Outcome := do
  match command with
  | .parse path _ | .validate path _ | .tokens path =>
    return command.run (← snapshot path) .empty
  | .stdin _ => return command.run (← snapshot "") (← readAll (← IO.getStdin) .empty)

/-- How the program is called. -/
def usage : String :=
  "usage: secrule parse PATH [--pretty] | validate DIRECTORY [--verbose] | tokens PATH | " ++
    "stdin [--pretty]"

end WafRules.CommandLine

/-- Run the command that the arguments ask for. -/
def main (arguments : List String) : IO UInt32 := do
  match WafRules.Command.ofArguments? arguments with
  | none =>
    IO.eprintln WafRules.CommandLine.usage
    return 2
  | some command =>
    let outcome ← WafRules.CommandLine.prepare command
    IO.print outcome.output
    IO.eprint outcome.errors
    return UInt32.ofNat outcome.exitCode
