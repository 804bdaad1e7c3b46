import ProcessPlan.Files.Discovery
import ProcessPlan.Metadata.Item
import ProcessPlan.Number.Digits
import ProcessPlan.Number.Range
import ProcessPlan.Rendering
import ProcessPlan.Text.Basic

/-!
# Commands and their arguments

The first argument names the command. Options, each with a value, and operands follow in any order;
after two dashes there are only operands. A request for help ends the reading of arguments: what
stands before it has to be in order, and what stands after it is not looked at.

## Main definitions

* `Command`: what can be asked for
* `Arguments.given?`: the options and operands of a list of arguments
* `Command.ofArguments?`: the command of a list of arguments
-/

namespace ProcessPlan

/-- Where a configuration comes from, and the version that stands before the one it declares. -/
structure Selection where
  config : Option String
  version : Option Version
deriving DecidableEq

/-- The words that name a command. -/
inductive Verb where
  | build
  | save
  | validate
  | version
deriving DecidableEq

/-- What there is help on: the program as a whole, one of its commands, or help itself. -/
inductive Topic where
  | program
  | verb (verb : Verb)
  | help
deriving DecidableEq

/-- What can be asked for: to show the descriptor of a process, to write it to a new file, to check
that all descriptors can be built, to tell the version of this program, and to explain it. -/
inductive Command where
  | build (process : String) (selection : Selection) (format : Format)
  | save (process : String) (file : Option String) (selection : Selection) (format : Format)
  | validate (selection : Selection)
  | version
  | help (topic : Topic)
deriving DecidableEq

namespace Arguments

/-! ### Options -/

/-- The options. -/
inductive Setting where
  | config
  | version
  | format
  | file
deriving DecidableEq

/-- A path, which is never empty. -/
def path? (value : String) : Option String := if value.isEmpty then none else some value

/-- A version in decimal. -/
def version? (value : String) : Option Version :=
  (Digits.decimal? value.toList).bind Range.word32?

namespace Setting

/-- The name of an option after two dashes. -/
def longName : Setting → String
  | config => "config"
  | version => "deployment-version"
  | format => "format"
  | file => "file"

/-- The name of an option after one dash, if it has one. -/
def shortName? : Setting → Option Char
  | config => some 'c'
  | version => some 'v'
  | format => none
  | file => some 'f'

/-- Whether a text is the value of an option. -/
def accepts (value : String) : Setting → Bool
  | config | file => (path? value).isSome
  | version => (version? value).isSome
  | format => (Format.ofName? value).isSome

end Setting

/-! ### Words -/

/-- What an argument is by itself. -/
inductive Word where
  | operand
  | onlyOperandsFollow
  | setting (setting : Setting) (value : Option String)
  | help
  | unknown
deriving DecidableEq

/-- An option, if it is one, with the value that comes with it. -/
def Word.ofSetting? (value : Option String) : Option Setting → Word
  | some s => setting s value
  | none => unknown

/-- What an argument is, for a command with certain options. A dash alone is an operand. Help takes
no value, but after one dash it is asked for whatever stands behind its letter. -/
def Word.of (settings : List Setting) (argument : String) : Word :=
  match argument.toList with
  | ['-', '-'] => onlyOperandsFollow
  | ['-', '-', 'h', 'e', 'l', 'p'] => help
  | '-' :: '-' :: cs =>
    let (name, value) := match Text.cutChars '=' cs with
      | some (name, value) => (name, some (String.ofList value))
      | none => (cs, none)
    ofSetting? value (settings.find? (·.longName.toList = name))
  | '-' :: 'h' :: _ => help
  | '-' :: c :: cs =>
    let value := match cs with
      | [] => none
      | '=' :: value => some (String.ofList value)
      | value => some (String.ofList value)
    ofSetting? value (settings.find? (·.shortName? = some c))
  | _ => operand

/-- Whether an argument can be the value of the option before it. -/
def isValue (argument : String) : Bool :=
  match argument.toList with
  | '-' :: _ :: _ => false
  | _ => true

/-! ### What is given -/

/-- Options with their values, and operands, in order, up to a request for help, if there is one. -/
structure Given where
  settings : List (Setting × String)
  operands : List String
  help : Bool
deriving DecidableEq

/-- The options and operands of a list of arguments. -/
def collect? (settings : List Setting) : List String → Option Given
  | [] => some ⟨[], [], false⟩
  | argument :: rest =>
    match Word.of settings argument with
    | .operand =>
      (collect? settings rest).map fun g => { g with operands := argument :: g.operands }
    | .onlyOperandsFollow => some ⟨[], rest, false⟩
    | .setting setting (some value) =>
      (collect? settings rest).map fun g => { g with settings := (setting, value) :: g.settings }
    | .setting setting none =>
      match rest with
      | [] => none
      | value :: rest =>
        if isValue value then
          (collect? settings rest).map fun g =>
            { g with settings := (setting, value) :: g.settings }
        else none
    | .help => some ⟨[], [], true⟩
    | .unknown => none

/-- No option is given twice, and each has a value that it accepts; and there are as many operands
as there have to be, or no more than that if help is asked for. -/
def Given.isInOrder (g : Given) (operands : Nat) : Bool :=
  decide ((g.settings.map (·.1)).Nodup) &&
    g.settings.all (fun (setting, value) => setting.accepts value) &&
      if g.help then g.operands.length ≤ operands else g.operands.length == operands

/-- The options and operands of a list of arguments, if they are in order. -/
def given? (settings : List Setting) (operands : Nat) (arguments : List String) : Option Given :=
  (collect? settings arguments).filter (·.isInOrder operands)

/-- The value of an option, read in its way, if it is given. -/
def Given.read {α : Type} (g : Given) (setting : Setting) (read : String → Option α) : Option α :=
  (g.settings.lookup setting).bind read

/-- The selection of options. A variable stands in for the version; it must be readable. -/
def Given.selection? (g : Given) (env : Environment) : Option Selection := do
  let version ← match g.settings.lookup .version, env.version with
    | none, some value => (version? value).map some
    | _, _ => some (g.read .version version?)
  return { config := g.read .config path?, version }

end Arguments

/-! ### Commands -/

namespace Verb

open Arguments (Setting)

/-- The commands, in the order in which they are listed. -/
def all : List Verb := [build, save, validate, version]

/-- The word for a command. -/
def name : Verb → String
  | build => "build"
  | save => "export"
  | validate => "validate"
  | version => "version"

/-- The options of a command, in the order in which they are listed. -/
def settings : Verb → List Setting
  | build => [.config, .version, .format]
  | save => [.file, .config, .version, .format]
  | validate => [.config, .version]
  | version => []

/-- The number of operands of a command. -/
def operands : Verb → Nat
  | build | save => 1
  | validate | version => 0

/-- The command of a word. -/
def ofName? (word : String) : Option Verb := all.find? (·.name = word)

end Verb

namespace Command

open Arguments

/-- The command that options and operands make of a word for one. -/
def ofGiven? (env : Environment) (g : Given) : Verb → Option Command
  | .build => do
    let selection ← g.selection? env
    let process ← g.operands.head?
    return build process selection ((g.read .format Format.ofName?).getD .yaml)
  | .save => do
    let selection ← g.selection? env
    let process ← g.operands.head?
    return save process (g.read .file path?) selection
      ((g.read .format Format.ofName?).getD .yaml)
  | .validate => (g.selection? env).map validate
  | .version => some version

/-- The command of a word for one and the arguments after it. -/
def ofVerb? (env : Environment) (verb : Verb) (arguments : List String) : Option Command :=
  match given? verb.settings verb.operands arguments with
  | none => none
  | some g => if g.help then some (help (.verb verb)) else ofGiven? env g verb

/-- The word that asks for help on another one, or on itself. -/
def helpWord : String := "help"

/-- The request for help on the word that follows, or else on the program. -/
def ofHelp? : List String → Option Command
  | [] => some (help .program)
  | [word] =>
    if word = helpWord then some (help .help)
    else (Verb.ofName? word).map fun verb => help (.verb verb)
  | _ => none

/-- The command of a list of arguments, if it is one. -/
def ofArguments? (env : Environment) : List String → Option Command
  | [] => none
  | word :: arguments =>
    match Word.of [] word with
    | .help => some (help .program)
    | .operand =>
      if word = helpWord then ofHelp? arguments
      else
        match Verb.ofName? word with
        | some verb => ofVerb? env verb arguments
        | none => none
    | _ => none

example : ofArguments? ⟨none, some "", none, none⟩ ["build", "--format", "json", "-h", "--deep"]
    = some (help (.verb .build)) := by decide

example : ofArguments? ⟨none, none, none, none⟩ ["build", "web", "--format", "--help"] = none := by
  decide

end Command

end ProcessPlan
