import ProcessPlan.Command.Run

/-!
# The program

Reads the arguments, the variables and the files that the command looks at, runs the command, and
does what its report says.
-/

namespace ProcessPlan

/-- What the machine holds at a path, as far as it can be read. Only a directory has itself below
it. -/
def readNode? (path : String) : IO (Option FileNode) := do
  try return some (.file (← IO.FS.readBinFile path))
  catch _ =>
    try
      let _ ← IO.FS.realPath (Path.join path ".")
      return some .directory
    catch _ => return none

/-- A file system with what the machine holds at a path and at every directory on the way. -/
def observe (fs : FileSystem) (path : String) : IO FileSystem := do
  let mut fs := fs
  let mut location := if Path.isAbsolute path then [] else fs.workDirectory
  let mut text := if Path.isAbsolute path then "/" else ""
  for part in Path.parts path do
    text := Path.join text part
    location :=
      if part = "." then location
      else if part = ".." then location.dropLast
      else location ++ [part]
    if let some node ← readNode? text then
      if location ≠ [] then fs := fs.put location node
  return fs

/-- The variables of the machine. -/
def readEnvironment : IO Environment := do
  return {
    configPath := ← IO.getEnv "PROCFLOW_CONFIG_PATH"
    version := ← IO.getEnv "PROCFLOW_DEPLOYMENT_VERSION"
    settings := ← IO.getEnv "XDG_CONFIG_HOME"
    home := ← IO.getEnv "HOME" }

/-- The part of the file system of the machine that a list of arguments looks at. -/
def readFiles (env : Environment) (arguments : List String) : IO FileSystem := do
  let directory := (← IO.currentDir).toString
  let work := Path.parts directory
  let empty : FileSystem := ⟨[], work⟩
  let start := if work = [] then empty else empty.put work .directory
  match Command.ofArguments? env arguments with
  | some command => (command.paths env directory).foldlM observe start
  | none => return start

end ProcessPlan

open ProcessPlan in
/-- Run the command that the arguments name. -/
def main (arguments : List String) : IO UInt32 := do
  let env ← readEnvironment
  let fs ← readFiles env arguments
  let report := runArguments fs env arguments
  if let some (location, text) := report.created then
    let file ← IO.FS.Handle.mk (FileSystem.absolutePath location) .writeNew
    file.putStr text
  (← IO.getStdout).putStr report.output
  (← IO.getStderr).putStr report.errors
  return report.code
