import ProcessPlan.Command.Arguments

/-!
# Help

Help on a topic says what it is about and how it is written, and lists commands, operands and
options with their meanings. The meanings stand in a column of their own, or, where options take
values, each on a line of its own; the version option shows the variable that stands in for it.

## Main definitions

* `Topic.text`: the help on a topic
-/

namespace ProcessPlan

/-! ### Layout -/

namespace Topic

/-- An entry of a list, and its meaning. -/
abbrev Entry := String × String

/-- A list with the meanings in a column behind the entries. -/
def beside (entries : List Entry) : String :=
  let width := (entries.map (·.1.length)).foldl max 0
  let padding (text : String) := String.ofList (List.replicate (width - text.length) ' ')
  String.join (entries.map fun (entry, meaning) =>
    "  " ++ entry ++ padding entry ++ "  " ++ meaning ++ "\n")

/-- A list with each meaning on a line below its entry. -/
def below (entries : List Entry) : String :=
  String.join (entries.map fun (entry, meaning) =>
    "  " ++ entry ++ "\n          " ++ meaning ++ "\n")

/-- What is said on a topic: what it is about, how it is written, and lists with their titles. -/
def page (about usage : String) (lists : List (String × String)) : String :=
  about ++ "\n\nUsage: procflow " ++ usage ++ "\n" ++
    String.join (lists.map fun (title, list) => "\n" ++ title ++ ":\n" ++ list)

end Topic

/-! ### Options and commands -/

namespace Arguments.Setting

/-- How an option is written: its names, and its value in capitals. -/
def usage (setting : Setting) : String :=
  let short := match setting.shortName? with
    | some c => "-" ++ String.singleton c ++ ", "
    | none => "    "
  let value := setting.longName.map fun c => if c = '-' then '_' else c.toUpper
  short ++ "--" ++ setting.longName ++ " <" ++ value ++ ">"

/-- The meaning of an option. -/
def meaning (env : Environment) : Setting → String
  | config => "設定ファイルのパス（省略時は自動検出）"
  | version =>
    "デプロイメントバージョン（省略時は設定ファイルの値） [env: PROCFLOW_DEPLOYMENT_VERSION=" ++
      env.version.getD "" ++ "]"
  | format => "出力形式 [default: yaml] [possible values: yaml, json]"
  | file => "出力先ファイル（省略時は <プロセス名>.<形式>）"

end Arguments.Setting

/-- What a command is about. -/
def Verb.about : Verb → String
  | build => "プロセス記述子を作成して標準出力に表示"
  | save => "プロセス記述子をファイルに書き出す"
  | validate => "設定を検証（全プロセスを作成してみる）"
  | version => "バージョン情報を表示"

namespace Topic

/-! ### Texts -/

/-- What help is about. -/
def helpAbout : String := "Print this message or the help of the given subcommand(s)"

/-- The request for help, which is listed among the options. -/
def helpEntry : Entry := ("-h, --help", "Print help")

/-- The only operand that a command has. -/
def processEntry : Entry := ("<PROCESS>", "プロセス名 (web, worker など)")

/-- The help on the program. -/
def programText : String :=
  page "プロセス定義から、デプロイ記述子へ。" "<COMMAND>"
    [("Commands", beside
        (Verb.all.map (fun verb => (verb.name, verb.about)) ++ [(Command.helpWord, helpAbout)])),
      ("Options", beside [helpEntry])]

/-- The help on a command. -/
def verbText (env : Environment) (verb : Verb) : String :=
  let operands := List.replicate verb.operands processEntry
  let settings := verb.settings.map fun setting => (setting.usage, setting.meaning env)
  page verb.about
    (Text.join " " ([verb.name] ++ (if settings.isEmpty then [] else ["[OPTIONS]"]) ++
      operands.map (·.1)))
    ((if operands.isEmpty then [] else [("Arguments", beside operands)]) ++
      [("Options", if settings.isEmpty then beside [helpEntry]
        else below (settings ++ [helpEntry]))])

/-- The help on help. -/
def helpText : String :=
  page helpAbout (Command.helpWord ++ " [COMMAND]...")
    [("Arguments", beside [("[COMMAND]...", "Print help for the subcommand(s)")])]

/-- The help on a topic. -/
def text (env : Environment) : Topic → String
  | program => programText
  | verb v => verbText env v
  | help => helpText

example : text ⟨none, none, none, none⟩ (.verb .version)
    = "バージョン情報を表示\n\nUsage: procflow version\n\nOptions:\n  -h, --help  Print help\n" := by
  decide +kernel

end Topic

end ProcessPlan
