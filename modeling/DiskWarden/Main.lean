import DiskWarden.CommandLine.Run

/-!
The program itself: it looks up the files that a command depends on, runs the command on them,
writes what it has written, and keeps the files that it has made.
-/

open DiskWarden DiskWarden.CommandLine

namespace DiskWarden.Main

/-- A tree that holds nothing but the working directory. -/
def workTree : IO FileTree := do
  let here : Path := ⟨(← IO.currentDir).toString⟩
  let start : FileTree := ⟨[], here.pieces.filter (· ≠ "")⟩
  pure ((FileTree.makeDirectories here).run.run start).2

/-- What lies at a path: nothing, a directory, or a file. -/
def lookUp (path : Path) : IO (Option (Option ByteArray)) := do
  try
    let found ← IO.FS.realPath path.text
    if ← found.isDir then pure (some none)
    else pure (some (some (← IO.FS.readBinFile path.text)))
  catch _ => pure none

/-- Puts into a tree what lies at a path, or else the nearest directory above it. -/
def putNearest (tree : FileTree) : List Path → IO FileTree
  | [] => pure tree
  | path :: parents => do
      match ← lookUp path with
      | none => putNearest tree parents
      | some none => pure ((FileTree.makeDirectories path).run.run tree).2
      | some (some octets) =>
          let action : FileAction Unit := do
            if let some parent := path.parent? then FileTree.makeDirectories parent
            FileTree.writeFile path octets.toList
          pure (action.run.run tree).2

def keep (before after : FileTree) (path : Path) : IO Unit := do
  if before.pathExists path then pure ()
  else
    match after.find path with
    | .ok (.file _ octets) =>
        if let some parent := path.parent? then
          if parent.text ≠ "" then IO.FS.createDirAll parent.text
        IO.FS.writeBinFile path.text ⟨octets.toArray⟩
    | _ => pure ()

/-- All that is left of an input. -/
partial def readAll (stream : IO.FS.Stream) (earlier : ByteArray) : IO ByteArray := do
  let octets ← stream.read 65536
  if octets.isEmpty then pure earlier else readAll stream (earlier ++ octets)

/-- Helpers are not started from here. -/
def noHelpers : Helper.Runner Unit := fun _ state =>
  (.notStarted "helpers cannot be started from here", state)

/-- Runs the program, and gives its exit code. -/
def run (words : List String) : IO UInt32 := do
  let machine : Machine Unit := ⟨← IO.getEnv "DISKENC_CONFIG", noHelpers⟩
  let invocation := (Invocation.read words).toOption
  let paths :=
    match invocation with
    | some invocation => invocation.command.paths (invocation.configPath machine)
    | none => []
  let files ← paths.foldlM (fun tree path => putNearest tree (path :: path.parents)) (← workTree)
  let readsInput := (invocation.map fun invocation => invocation.command.readsInput).getD false
  let input ← if readsInput then readAll (← IO.getStdin) ByteArray.empty else pure ByteArray.empty
  let (report, surroundings) := CommandLine.run machine words ⟨files, input.toList, ()⟩
  paths.forM (keep files surroundings.files)
  (← IO.getStderr).putStr report.messages
  (← IO.getStdout).putStr report.output
  pure report.exitCode.toUInt32

end DiskWarden.Main

def main (words : List String) : IO UInt32 := DiskWarden.Main.run words
