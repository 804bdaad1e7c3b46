import ProcessPlan.App
import ProcessPlan.Config.Scalar
import ProcessPlan.Text.Basic

/-!
# Reading processes

The block of a process is a list of settings in any order. Some replace what came before, some add
to it, and some count only if they have a block of their own. All of them are read before any is
applied.

## Main definitions

* `Config.ProcessSetting`, `Config.readProcessSetting`: one setting of a process
* `Config.ProcessSetting.apply`: what a setting makes of a declaration
* `Config.readProcess`: a process
-/

namespace ProcessPlan.Config

open Kdl (Node)

/-- One setting of a process. -/
inductive ProcessSetting where
  | command (words : List String)
  | units (count : UInt32)
  | routable (value : Bool)
  | environment (vars : List EnvVar)
  | securityContext (context : SecurityContext)
  | resources (quantities : Resources)
  | nodeSelector (terms : List SelectorTerm)
  | volume (v : Volume)
  | volumeMount (mount : VolumeMount)
  | lifecycle (hooks : Lifecycle)
deriving DecidableEq

/-! ### Environment -/

/-- The variable of a node: its name, and the text of its first argument or else the empty text. -/
def envVarOfNode (node : Node) : EnvVar :=
  ⟨node.name, (argumentPlainText? node).getD ""⟩

/-- The variable of a text of the form `NAME=value`, without the white space around both. -/
def envVarOfText? (text : String) : Option EnvVar :=
  (Text.cut '=' text).map fun (name, value) => ⟨Text.trim name, Text.trim value⟩

/-- The variables of a node: one for each node of its block, or else that of its first argument. -/
def readEnvironment (node : Node) : List EnvVar :=
  match node.children with
  | some block => block.map envVarOfNode
  | none => (node.argumentText?.bind envVarOfText?).toList

/-! ### Rights and resources -/

/-- The rights of a container. -/
def readSecurityContext (node : Node) : Read SecurityContext := do
  let runAsUser ← optional (readSigned "run-as-user") (node.property? "run-as-user")
  let runAsGroup ← optional (readSigned "run-as-group") (node.property? "run-as-group")
  return {
    runAsUser
    runAsGroup
    runAsNonRoot := node.propertyBool? "run-as-non-root"
    privileged := node.propertyBool? "privileged"
    readOnlyRootFilesystem := node.propertyBool? "read-only-root-filesystem"
    allowPrivilegeEscalation := node.propertyBool? "allow-privilege-escalation" }

/-- The quantity of a node, if its first argument has a text. -/
def quantity? (node : Node) : Option (String × String) :=
  (argumentPlainText? node).map (node.name, ·)

/-- The quantities of all nodes of a name. -/
def quantities (name : String) (block : List Node) : Table String :=
  .ofList ((block.filter (·.name = name)).flatMap fun node => node.childNodes.filterMap quantity?)

/-- The resources of a block. -/
def resourcesOfBlock (block : List Node) : Resources :=
  ⟨quantities "limits" block, quantities "requests" block⟩

/-! ### Placement -/

/-- A condition: its values are the arguments of its node and those of the `values` nodes below. -/
def readExpression (node : Node) : Read SelectorExpression :=
  match node.propertyText? "key" with
  | none => .error .missingKey
  | some key =>
    let name := (node.propertyText? "operator").getD SelectorOperator.isIn.name
    match SelectorOperator.ofName? name with
    | none => .error (.unknownOperator name)
    | some operator =>
      let values := node.argumentTexts ++
        (node.childNodes.filter (·.name = "values")).flatMap (·.argumentTexts)
      if values.isEmpty && operator.needsValues then .error (.missingValues key operator)
      else .ok { key, operator, values }

/-- Conditions that hold together. -/
def readTerm (node : Node) : Read SelectorTerm :=
  ((node.childNodes.filter (·.name = "expression")).mapM readExpression).map fun expressions =>
    { expressions }

/-- The conditions of a block. -/
def readTerms (block : List Node) : Read (List SelectorTerm) :=
  (block.filter (·.name = "term")).mapM readTerm

/-- Where the content of a volume comes from: the first of four properties that is a string decides,
and without any the volume is empty. -/
def volumeSource (node : Node) : VolumeSource :=
  let sources := [
    (node.propertyText? "pvc").map .persistentVolumeClaim,
    (node.propertyText? "config-map").map .configMap,
    (node.propertyText? "secret").map .secret,
    (node.propertyText? "host-path").map .hostPath]
  (sources.findSome? id).getD .emptyDir

/-- A volume. -/
def readVolume (node : Node) : Read Volume :=
  (readName "volume" node).map fun name => { name, source := volumeSource node }

/-- Where a volume is mounted. -/
def readVolumeMount (node : Node) : Read VolumeMount := do
  let name ← readName "volume-mount" node
  match node.propertyText? "path" with
  | none => .error (.missingMountPath name)
  | some path =>
    return {
      name
      path
      readOnly := (node.propertyBool? "read-only").getD false
      subPath := node.propertyText? "sub-path" }

/-! ### Hooks -/

/-- The action of a hook. A node with another name is none. -/
def readHookAction (node : Node) : Read (Option HookAction) :=
  match node.name with
  | "exec" => .ok (some (.exec node.argumentTexts))
  | "http-get" | "http_get" =>
    match node.property? "port" with
    | none => .error .missingHookPort
    | some value => do
      let port ← readPort "http-get port" value
      return some (.httpGet ((node.propertyText? "path").getD "/") port)
  | _ => .ok none

/-- The two moments at which a hook runs. -/
inductive HookMoment where
  | postStart
  | preStop
deriving DecidableEq

/-- The moment of a name, in either spelling. -/
def HookMoment.ofName? : String → Option HookMoment
  | "post-start" | "post_start" => some .postStart
  | "pre-stop" | "pre_stop" => some .preStop
  | _ => none

/-- The actions of a node for the moment that it names. A node with another name has none. -/
def readHooks (node : Node) : Read (List (HookMoment × HookAction)) :=
  match HookMoment.ofName? node.name with
  | none => .ok []
  | some moment =>
    (node.childNodes.mapM readHookAction).map fun actions => (actions.filterMap id).map (moment, ·)

/-- The hooks of a block. Of several actions for one moment, the last counts. -/
def readLifecycle (block : List Node) : Read Lifecycle := do
  let hooks := (← block.mapM readHooks).flatten
  let last (moment : HookMoment) := (hooks.findRev? (·.1 = moment)).map (·.2)
  return { postStart := last .postStart, preStop := last .preStop }

/-! ### The process -/

/-- The number of instances of a process, which has to be positive. -/
def readUnits (process : String) (value : Kdl.Value) : Read UInt32 := do
  let count ← readCount "units" value
  if count = 0 then .error (.zeroUnits process) else return count

/-- The setting of a node that counts only with a block. -/
def readBlock {α : Type} (node : Node) (read : List Node → Read α) (setting : α → ProcessSetting) :
    Read (Option ProcessSetting) :=
  optional (fun block => (read block).map setting) node.children

/-- The setting of a node in the block of a process. A node with another name is none. -/
def readProcessSetting (process : String) (node : Node) : Read (Option ProcessSetting) :=
  match node.name with
  | "command" | "cmd" => .ok (some (.command node.argumentTexts))
  | "units" | "instances" =>
    optional (fun value => (readUnits process value).map .units) node.argument?
  | "routable" => .ok (some (.routable ((node.argument?.bind Kdl.Value.bool?).getD true)))
  | "environment" | "env" => .ok (some (.environment (readEnvironment node)))
  | "security-context" | "security_context" =>
    (readSecurityContext node).map fun context => some (.securityContext context)
  | "resources" => readBlock node (fun block => .ok (resourcesOfBlock block)) .resources
  | "node-selector" | "node_selector" => readBlock node readTerms .nodeSelector
  | "volume" => (readVolume node).map fun volume => some (.volume volume)
  | "volume-mount" | "volume_mount" =>
    (readVolumeMount node).map fun mount => some (.volumeMount mount)
  | "lifecycle" => readBlock node readLifecycle .lifecycle
  | _ => .ok none

/-- What a setting makes of a declaration. -/
def ProcessSetting.apply (spec : ProcessSpec) : ProcessSetting → ProcessSpec
  | command words => { spec with command := words }
  | units count => { spec with units := some count }
  | routable value => { spec with routable := value }
  | environment vars => { spec with environment := spec.environment ++ vars }
  | securityContext context => { spec with securityContext := some context }
  | resources quantities => { spec with resources := some quantities }
  | nodeSelector terms => { spec with nodeSelector := terms }
  | volume v => { spec with volumes := spec.volumes ++ [v] }
  | volumeMount mount => { spec with volumeMounts := spec.volumeMounts ++ [mount] }
  | lifecycle hooks => { spec with lifecycle := some hooks }

/-- A process. -/
def readProcess (node : Node) : Read ProcessSpec := do
  let name ← readName "process" node
  let settings ← node.childNodes.mapM (readProcessSetting name)
  let blank := ProcessSpec.blank name ((node.propertyBool? "routable").getD false)
  return (settings.filterMap id).foldl ProcessSetting.apply blank

end ProcessPlan.Config
