import Prospectus.Command.Run

/-!
# The command line

Runs the command that the arguments ask for on the files of the machine.
-/

namespace Prospectus

open Store (FileAccess FileError Path)

/-- What an error of the machine means for a path. -/
def fileErrorOf : IO.Error → FileError
  | .noFileOrDirectory .. => .notFound
  | .alreadyExists .. => .alreadyExists
  | .inappropriateType .. => .isDirectory
  | .invalidArgument .. => .badPath
  | _ => .notDirectory

/-- Do something with files and keep the error as a value. -/
def withFiles {α : Type} (x : IO α) : IO (Except FileError α) := do
  try
    return .ok (← x)
  catch e =>
    return .error (fileErrorOf e)

/-- The files of the machine, seen from the working directory. -/
instance : FileAccess IO where
  contains p := return !p.text.isEmpty && (← ((← IO.currentDir).join p.text).pathExists)
  isFile p := do
    let file := (← IO.currentDir).join p.text
    return !p.text.isEmpty && (← file.pathExists) && !(← file.isDir)
  namesIn p := withFiles do
    return (← ((← IO.currentDir).join p.text).readDir).toList.map fun entry => entry.fileName
  readText p := do
    match ← withFiles (IO.FS.readBinFile p.text) with
    | .error e => return .error e
    | .ok bytes =>
      match String.fromUTF8? bytes with
      | some text => return .ok text
      | none => return .error .notText
  makeDirectory p := withFiles (IO.FS.createDirAll p.text)
  writeText p text := withFiles (IO.FS.writeFile p.text text)

/-- Run a command: its lines go to the standard output, and an error to the standard error. -/
def runOnMachine (c : Command) : IO UInt32 := do
  let (result, lines) ← (c.run (m := IO)).run.run []
  for line in lines do IO.println line
  match result with
  | .ok () => return 0
  | .error e =>
    IO.eprintln ("Error: " ++ e.message)
    return 1

end Prospectus

def main (words : List String) : IO UInt32 := do
  match Prospectus.Command.ofWords? words with
  | some c => Prospectus.runOnMachine c
  | none =>
    IO.eprintln "usage: rebuild, clean, available or config-hash, with their options"
    return 2
