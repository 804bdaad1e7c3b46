import ProcessPlan.Command.Help
import ProcessPlan.Files.Loading

/-!
# Running commands

A command is run on a file system and yields a report of what it prints and of the one file that it
may create. No command changes a file that is there.

## Main definitions

* `Report`: what a command prints and leaves
* `CommandFault`, `CommandFault.message`: why a command fails, and its wording
* `Command.run`: the report of a command
* `Command.paths`: the paths that a command looks at
* `runArguments`: the report of a list of arguments
-/

namespace ProcessPlan

/-- What a command prints, the code it ends with, and the file that it creates. -/
structure Report where
  code : UInt32
  output : String
  errors : String
  created : Option (Location × String)
deriving DecidableEq

/-- The file system after a command. -/
def Report.filesAfter (report : Report) (fs : FileSystem) : FileSystem :=
  match report.created with
  | some (location, text) => fs.put location (.file text.toUTF8)
  | none => fs

/-- The code of a command that fails. -/
def failureCode : UInt32 := 1

/-- The code where the arguments are no command. -/
def usageCode : UInt32 := 2

/-- Why a command fails. -/
inductive CommandFault where
  | undiscovered (fault : DiscoveryFault)
  | unbuilt (process : String) (fault : Fault)
  | alreadyThere (path : String)
  | uncreated (path : String) (error : OsError)
deriving DecidableEq

namespace CommandFault

/-- What is said where no configuration file is found. -/
def undiscoveredMessage : String := "設定ファイルの検出に失敗しました"

/-- What failed. -/
def summary : CommandFault → String
  | undiscovered _ => undiscoveredMessage
  | unbuilt process _ => "プロセス '" ++ process ++ "' の作成に失敗しました"
  | alreadyThere path => "file already exists: " ++ path
  | uncreated path _ => "ファイルを作成できません: " ++ path

/-- Why it failed, and the cause of that. -/
def causes : CommandFault → List String
  | undiscovered fault => [fault.message]
  | unbuilt _ fault =>
    match fault with
    | .notKdl => [fault.message, Fault.notKdlReason]
    | _ => [fault.message]
  | alreadyThere _ => []
  | uncreated _ error => [error.message]

/-- A text whose lines start at a column, after a mark on the first of them. -/
def indented (mark : String) (column : Nat) (text : String) : String :=
  let lines := (Text.pieces '\n' text.toList).map String.ofList
  mark ++ Text.join ("\n" ++ String.ofList (List.replicate column ' ')) lines ++ "\n"

/-- Causes that have to be told apart, each with its number. -/
def numbered (causes : List String) : String :=
  String.join (causes.zipIdx.map fun (text, n) => indented ("    " ++ toString n ++ ": ") 7 text)

/-- The wording of a fault. -/
def message (fault : CommandFault) : String :=
  "Error: " ++ fault.summary ++ "\n" ++
    match fault.causes with
    | [] => ""
    | [cause] => "\nCaused by:\n" ++ indented "    " 4 cause
    | causes => "\nCaused by:\n" ++ numbered causes

end CommandFault

/-- The report of a command that prints nothing but its fault. -/
def Report.failure (fault : CommandFault) : Report where
  code := failureCode
  output := ""
  errors := fault.message
  created := none

/-- The report of a command that succeeds. -/
def Report.success (output : String) (created : Option (Location × String)) : Report where
  code := 0
  output := output
  errors := ""
  created := created

/-- How to write a command. -/
def usageText : String :=
  "Usage: procflow build <process> [-c <path>] [-v <version>] [--format yaml|json]\n" ++
  "       procflow export <process> [-f <path>] [-c <path>] [-v <version>] [--format yaml|json]\n" ++
  "       procflow validate [-c <path>] [-v <version>]\n" ++
  "       procflow version\n"

/-- The report for arguments that are no command. -/
def Report.usage : Report where
  code := usageCode
  output := ""
  errors := usageText
  created := none

namespace Selection

/-- The path of the selected configuration file, or of the one that is found. -/
def path (selection : Selection) (fs : FileSystem) (env : Environment) :
    Except DiscoveryFault String :=
  match selection.config with
  | some path => .ok path
  | none => fs.findConfig env

/-- The descriptor of a process in the selected configuration. -/
def descriptor (selection : Selection) (fs : FileSystem) (env : Environment) (process : String) :
    Except CommandFault Descriptor :=
  match selection.path fs env with
  | .error fault => .error (.undiscovered fault)
  | .ok path =>
    match fs.loadProcess path process selection.version with
    | .error fault => .error (.unbuilt process fault)
    | .ok d => .ok d

end Selection

namespace Command

/-- Show a descriptor. -/
def runBuild (fs : FileSystem) (env : Environment) (process : String) (selection : Selection)
    (format : Format) : Report :=
  match selection.descriptor fs env process with
  | .error fault => .failure fault
  | .ok d => .success (d.render format) none

/-- The path of the file for a process where none is given. -/
def defaultFile (process : String) (format : Format) : String := process ++ "." ++ format.name

/-- Write a descriptor to a new file. Whether there is one already is asked before anything else. -/
def runSave (fs : FileSystem) (env : Environment) (process : String) (file : Option String)
    (selection : Selection) (format : Format) : Report :=
  let path := file.getD (defaultFile process format)
  if fs.contains path then .failure (.alreadyThere path)
  else
    match selection.descriptor fs env process with
    | .error fault => .failure fault
    | .ok d =>
      match fs.vacancy path with
      | .error error => .failure (.uncreated path error)
      | .ok location =>
        .success ("✓ " ++ process ++ " → " ++ path ++ "\n") (some (location, d.render format))

/-- Whether a descriptor could not be built. -/
def isFailure (result : String × Except Fault Descriptor) : Bool :=
  match result.2 with
  | .ok _ => false
  | .error _ => true

/-- The line on a process: how many ports and variables it has, or why it cannot be built. -/
def validationLine (result : String × Except Fault Descriptor) : String :=
  match result.2 with
  | .ok d =>
    "  ✓ " ++ result.1 ++ " (ポート: " ++ toString d.containerPorts.length ++ "個, 環境変数: " ++
      toString d.environment.length ++ "個)\n"
  | .error fault => "  ✗ " ++ result.1 ++ ": " ++ fault.message ++ "\n"

/-- Check all descriptors. -/
def runValidate (fs : FileSystem) (env : Environment) (selection : Selection) : Report :=
  let opening := "設定を検証中...\n"
  match selection.path fs env with
  | .error fault =>
    { code := failureCode
      output := opening
      errors := "\n✗ 設定ファイルが見つかりません\n  " ++ CommandFault.undiscoveredMessage ++ ": " ++
        fault.message ++ "\n"
      created := none }
  | .ok path =>
    let opening := opening ++ "設定ファイル: " ++ path ++ "\n"
    match fs.loadAll path selection.version with
    | .error fault =>
      { code := failureCode
        output := opening
        errors := "\n✗ 設定エラー\n  " ++ fault.message ++ "\n"
        created := none }
    | .ok results =>
      let body := opening ++ "\nプロセス: " ++ toString results.length ++ "個\n" ++
        String.join (results.map validationLine) ++ "\n"
      match results.countP isFailure with
      | 0 => .success (body ++ "✓ 設定ファイルは正常です！\n") none
      | failures =>
        { code := failureCode
          output := body
          errors := "✗ " ++ toString failures ++ "個のプロセスでエラーがあります\n"
          created := none }

/-- The name and the version of this program. -/
def versionLine : String := "procflow 0.3.0\n"

/-- The report of a command. -/
def run (fs : FileSystem) (env : Environment) : Command → Report
  | build process selection format => runBuild fs env process selection format
  | save process file selection format => runSave fs env process file selection format
  | validate selection => runValidate fs env selection
  | version => .success versionLine none
  | help topic => .success (topic.text env) none

end Command

/-! ### The paths that a command looks at

To run a command it is enough to know what these paths lead to. -/

/-- The paths that can be the configuration file, looked for from a directory. -/
def Environment.configPaths (env : Environment) (directory : String) : List String :=
  env.configPath.toList ++
    [directory, Path.join directory ".procflow"].flatMap
      (fun place => FileSystem.configNames.map (Path.join place)) ++
    (env.configDirectory?.map fun place => Path.join place FileSystem.configName).toList

/-- The paths that a selection looks at. -/
def Selection.paths (selection : Selection) (env : Environment) (directory : String) :
    List String :=
  match selection.config with
  | some path => [path]
  | none => env.configPaths directory

/-- The paths that a command looks at, run from a directory. -/
def Command.paths (env : Environment) (directory : String) : Command → List String
  | build _ selection _ | validate selection => selection.paths env directory
  | save process file selection format =>
    file.getD (defaultFile process format) :: selection.paths env directory
  | version | help _ => []

/-! ### Arguments -/

/-- The report of a list of arguments. -/
def runArguments (fs : FileSystem) (env : Environment) (arguments : List String) : Report :=
  match Command.ofArguments? env arguments with
  | some command => command.run fs env
  | none => .usage

end ProcessPlan
