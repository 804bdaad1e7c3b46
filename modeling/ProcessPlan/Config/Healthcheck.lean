import ProcessPlan.Config.Scalar
import ProcessPlan.Workload.Probe

/-!
# Reading probes

The block of a probe is a list of settings, of which the last of each field counts. All of them are
read, so one that a later one overrides still has to be in order. Whether the probe is well formed
is not checked before it is used.

## Main definitions

* `Config.ProbeSetting`, `Config.readProbeSetting`: one setting of a probe
* `Config.readProbe`, `Config.readProbes`: a probe, and those of a section
-/

namespace ProcessPlan.Config

open Kdl (Node)

/-- A count that a probe has. -/
inductive ProbeCount where
  | initialDelay
  | period
  | timeout
  | successThreshold
  | failureThreshold
deriving DecidableEq

/-- The count of a name, in either spelling. -/
def ProbeCount.ofName? : String → Option ProbeCount
  | "initial-delay" | "initial_delay" => some .initialDelay
  | "period" => some .period
  | "timeout" => some .timeout
  | "success-threshold" | "success_threshold" => some .successThreshold
  | "failure-threshold" | "failure_threshold" => some .failureThreshold
  | _ => none

/-- The first spelling of a count. -/
def ProbeCount.name : ProbeCount → String
  | initialDelay => "initial-delay"
  | period => "period"
  | timeout => "timeout"
  | successThreshold => "success-threshold"
  | failureThreshold => "failure-threshold"

/-- One setting of a probe. -/
inductive ProbeSetting where
  | action (action : ProbeAction)
  | count (field : ProbeCount) (value : UInt32)
deriving DecidableEq

/-- The port of an action, zero if none is given. -/
def readActionPort (field : String) (node : Node) : Read UInt16 :=
  (optional (readPort field) (node.property? "port")).map (·.getD 0)

/-- The action of a node, if its name is that of one. -/
def readProbeAction? (node : Node) : Option (Read ProbeAction) :=
  match node.name with
  | "http-get" | "http_get" => some do
    let port ← readActionPort "http-get port" node
    return .httpGet ((node.propertyText? "path").getD "/") port (node.propertyText? "scheme")
  | "tcp-socket" | "tcp_socket" => some do
    let port ← readActionPort "tcp-socket port" node
    return .tcpSocket port
  | "exec" => some (.ok (.exec node.argumentTexts))
  | _ => none

/-- The setting of a node. A node with another name is none. -/
def readProbeSetting (kind : String) (node : Node) : Read (Option ProbeSetting) :=
  match readProbeAction? node with
  | some read => read.map fun action => some (.action action)
  | none =>
    match ProbeCount.ofName? node.name with
    | none => .ok none
    | some field =>
      match node.argument? with
      | none => .error (.missingSetting kind node.name)
      | some value => (readCount field.name value).map fun n => some (.count field n)

/-- The action of the last setting that is one. -/
def lastAction (settings : List ProbeSetting) : Option ProbeAction :=
  settings.reverse.findSome? fun
    | .action action => some action
    | .count _ _ => none

/-- The value of the last setting of a count. -/
def lastCount (field : ProbeCount) (settings : List ProbeSetting) : Option UInt32 :=
  settings.reverse.findSome? fun
    | .action _ => none
    | .count field' value => if field' = field then some value else none

/-- The probe of a block. -/
def readProbe (kind : String) (block : List Node) : Read Probe := do
  let settings := (← block.mapM (readProbeSetting kind)).filterMap id
  match lastAction settings with
  | none => .error (.missingAction kind)
  | some action =>
    return {
      action
      initialDelay := lastCount .initialDelay settings
      period := lastCount .period settings
      timeout := lastCount .timeout settings
      successThreshold := lastCount .successThreshold settings
      failureThreshold := lastCount .failureThreshold settings }

/-- The kinds of probe. -/
def probeKinds : List String := ["readiness", "liveness", "startup"]

/-- The probe of a node under the name of its kind. It has to have a block. -/
def readNamedProbe (node : Node) : Read (String × Probe) :=
  match node.children with
  | none => .error (.emptyProbe node.name)
  | some block => (readProbe node.name block).map (node.name, ·)

/-- The probes of a section. Of several of one kind, the last counts. -/
def readProbes (node : Node) : Read Probes := do
  let named ← (node.childNodes.filter (probeKinds.contains ·.name)).mapM readNamedProbe
  let last (kind : String) := (named.findRev? (·.1 = kind)).map (·.2)
  return { readiness := last "readiness", liveness := last "liveness", startup := last "startup" }

end ProcessPlan.Config
