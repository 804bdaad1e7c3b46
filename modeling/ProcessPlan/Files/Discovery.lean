import ProcessPlan.Files.Basic

/-!
# Finding the configuration file

A variable can name the configuration file outright. Otherwise it is looked for under four names in
a directory, under the same names in a directory of its own below that one, and at last among the
settings of the user.

## Main definitions

* `Environment`: the variables that matter
* `DiscoveryFault`, `DiscoveryFault.message`: what can be wrong, and its wording
* `Environment.configDirectory?`: the directory with the settings of the user
* `FileSystem.findConfig`: the path of the configuration file
-/

namespace ProcessPlan

/-- The variables that matter, each if it is set. -/
structure Environment where
  configPath : Option String
  version : Option String
  settings : Option String
  home : Option String
deriving DecidableEq

/-- Why there is no configuration file or no directory for one. -/
inductive DiscoveryFault where
  | noSettings
  | noConfig
  | missing (path : String)
deriving DecidableEq

/-- The wording of a fault. -/
def DiscoveryFault.message : DiscoveryFault → String
  | noSettings => "設定ディレクトリが見つかりません"
  | noConfig =>
    "設定ファイルが見つかりません。以下の場所を確認してください:\n" ++
      "- カレントディレクトリ: procflow.local.kdl, .procflow.local.kdl, procflow.kdl, .procflow.kdl\n" ++
      "- ./.procflow/ ディレクトリ\n" ++
      "- ~/.config/procflow/procflow.kdl\n" ++
      "または PROCFLOW_CONFIG_PATH 環境変数で直接指定できます"
  | missing path => "PROCFLOW_CONFIG_PATH に指定されたファイルが存在しません: " ++ path

namespace Environment

/-- The directory with the settings of all programs: the one that is given as an absolute path, or
else the usual one at home. -/
def settingsDirectory? (env : Environment) : Option String :=
  match env.settings.filter Path.isAbsolute with
  | some directory => some directory
  | none => (env.home.filter (!·.isEmpty)).map fun home => Path.join home ".config"

/-- The directory with the settings of this program. -/
def configDirectory? (env : Environment) : Option String :=
  env.settingsDirectory?.map fun directory => Path.join directory "procflow"

/-- The directory with the settings of this program, or the fault that there is none. -/
def configDirectory (env : Environment) : Except DiscoveryFault String :=
  match env.configDirectory? with
  | some directory => .ok directory
  | none => .error .noSettings

end Environment

namespace FileSystem

/-- The name of the configuration file among the settings of the user. -/
def configName : String := "procflow.kdl"

/-- The names of the configuration file in a directory, the first before the others. -/
def configNames : List String :=
  ["procflow.local.kdl", ".procflow.local.kdl", configName, ".procflow.kdl"]

/-- The first configuration file that exists in a directory. -/
def configIn? (fs : FileSystem) (directory : String) : Option String :=
  (configNames.map (Path.join directory)).find? fs.contains

/-- The first configuration file that exists in the directory for it below another. -/
def configBelow? (fs : FileSystem) (directory : String) : Option String :=
  let below := Path.join directory ".procflow"
  if fs.isDirectory below then fs.configIn? below else none

/-- The configuration file among the settings of the user, if it exists. -/
def configOfUser? (fs : FileSystem) (env : Environment) : Option String :=
  (env.configDirectory?.map fun directory => Path.join directory configName).filter fs.contains

/-- The path of the configuration file, looked for from a directory. A variable that names a file
rules out all others. -/
def findConfigFrom (fs : FileSystem) (env : Environment) (directory : String) :
    Except DiscoveryFault String :=
  match env.configPath with
  | some path => if fs.contains path then .ok path else .error (.missing path)
  | none =>
    match ((fs.configIn? directory).or (fs.configBelow? directory)).or (fs.configOfUser? env) with
    | some path => .ok path
    | none => .error .noConfig

/-- The path of the configuration file, looked for from the directory where relative paths start. -/
def findConfig (fs : FileSystem) (env : Environment) : Except DiscoveryFault String :=
  fs.findConfigFrom env (absolutePath fs.workDirectory)

end FileSystem

end ProcessPlan
