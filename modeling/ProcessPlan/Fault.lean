import ProcessPlan.Kdl.Printing
import ProcessPlan.Metadata.Grammar
import ProcessPlan.Workload.Placement
import ProcessPlan.Workload.Probe

/-!
# Faults

Whatever can go wrong between a configuration file and a descriptor, by cause. The wording stands in
one place for each type of cause.

## Main definitions

* `OsError`: why a file cannot be read or created
* `ConfigFault`: what is wrong with a declaration
* `PortFault`: why there are no probes
* `Fault`, `Fault.message`: all faults, and their wording
-/

namespace ProcessPlan

/-- Why a file cannot be read or created. -/
inductive OsError where
  | notFound
  | alreadyExists
  | notDirectory
  | isDirectory
  | nameTooLong
  | notText
  | nulInPath
deriving DecidableEq

/-- The wording of an error of the operating system. -/
def OsError.message : OsError → String
  | notFound => "No such file or directory (os error 2)"
  | alreadyExists => "File exists (os error 17)"
  | notDirectory => "Not a directory (os error 20)"
  | isDirectory => "Is a directory (os error 21)"
  | nameTooLong => "File name too long (os error 36)"
  | notText => "stream did not contain valid UTF-8"
  | nulInPath => "file name contained an unexpected NUL byte"

/-- The ranges that a number of a configuration can be confined to. -/
inductive NumberRange where
  | port
  | count
  | signed
deriving DecidableEq

/-- What is wrong with a declaration. -/
inductive ConfigFault where
  | missingName (node : String)
  | badNumber (range : NumberRange) (field : String) (value : Kdl.Value)
  | duplicateProcess (process : String)
  | zeroUnits (process : String)
  | noUnits (process : String)
  | missingPort
  | unknownProtocol (name : String)
  | emptyProbe (kind : String)
  | missingSetting (kind : String) (node : String)
  | missingAction (kind : String)
  | missingKey
  | unknownOperator (name : String)
  | missingValues (key : String) (operator : SelectorOperator)
  | missingMountPath (mount : String)
  | missingHookPort
  | missingTarget
  | unknownTarget (name : String)
deriving DecidableEq

/-- The wording of a fault of a declaration. -/
def ConfigFault.message : ConfigFault → String
  | missingName node => node ++ " requires a name"
  | badNumber .port field value => field ++ " は 0〜65535 の整数です: " ++ value.written
  | badNumber .count field value => field ++ " は 0 以上の整数です: " ++ value.written
  | badNumber .signed field value => field ++ " は整数です: " ++ value.written
  | duplicateProcess process => "プロセス '" ++ process ++ "' が重複しています"
  | zeroUnits process => "プロセス '" ++ process ++ "' の units は 1 以上である必要があります"
  | noUnits process => "プロセス '" ++ process ++ "' のユニット数は1以上が必要です"
  | missingPort => "port requires a port number"
  | unknownProtocol name => "未知のプロトコル: " ++ name
  | emptyProbe kind => kind ++ " プローブの内容がありません"
  | missingSetting kind node => kind ++ "." ++ node ++ " requires a value"
  | missingAction kind =>
    kind ++ " プローブには http-get / tcp-socket / exec のいずれかが必要です"
  | missingKey => "expression requires key"
  | unknownOperator name => "未知のオペレーター: " ++ name
  | missingValues key operator =>
    "expression '" ++ key ++ "' (" ++ operator.name ++ ") requires at least one value"
  | missingMountPath mount => "volume-mount '" ++ mount ++ "' requires path"
  | missingHookPort => "lifecycle http-get requires port"
  | missingTarget => "item requires target"
  | unknownTarget name => "未知のターゲット: " ++ name ++ " (deployment / service / pod)"

/-- Why a source of ports has no probes to offer. -/
inductive PortFault where
  | badProbe (kind : String) (fault : ProbeFault)
  | other (reason : String)
deriving DecidableEq

/-- The wording of a fault of a source of ports. -/
def PortFault.message : PortFault → String
  | badProbe kind fault => fault.message kind
  | other reason => reason

/-- What can go wrong between a configuration file and a descriptor. -/
inductive Fault where
  | missingPorts (process : String)
  | badItem (fault : ItemFault)
  | badPorts (fault : PortFault)
  | notKdl
  | unreadable (path : String) (error : OsError)
  | badConfig (fault : ConfigFault)
  | unknownProcess (process : String)
deriving DecidableEq

namespace Fault

/-- What is said of any text that is no KDL document. -/
def notKdlReason : String := "Failed to parse KDL document"

/-- The wording of a fault. -/
def message : Fault → String
  | missingPorts process =>
    "ルーティング対象のプロセス '" ++ process ++ "' にポートがありません\n" ++
      "ヒント: コンテナポートとサービスポートを少なくとも1つずつ設定してください"
  | badItem fault =>
    let key := match fault.key? with
      | some key => " '" ++ key ++ "'"
      | none => ""
    "無効なメタデータ項目" ++ key ++ ": " ++ fault.reason
  | badPorts fault => "ポート設定エラー: " ++ fault.message
  | notKdl => "KDLパースエラー: " ++ notKdlReason
  | unreadable path error => "IO エラー: " ++ path ++ "\n理由: " ++ error.message
  | badConfig fault => "無効な設定: " ++ fault.message
  | unknownProcess process => "プロセスが見つかりません: " ++ process

end Fault

end ProcessPlan
