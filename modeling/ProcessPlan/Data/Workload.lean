import ProcessPlan.Data.Fields
import ProcessPlan.Workload.Container
import ProcessPlan.Workload.Placement
import ProcessPlan.Workload.Port
import ProcessPlan.Workload.Probe

/-!
# Data of ports, probes, containers and volumes

Every type has `toData`, which writes it, and `ofData?`, which reads it back and refuses what is not
of the type.

The action of a probe and the source of a volume stand among the other fields, under the name of
their alternative; where several are given, the first by name counts. The action of a hook is a
variant.
-/

namespace ProcessPlan

open Data

/-! ### Ports -/

namespace Protocol

/-- The protocols. -/
def all : List Protocol := [tcp, udp, sctp]

/-- The data of a protocol. -/
def toData (p : Protocol) : Data := .text p.name

/-- The protocol of data. Its name is compared as it stands. -/
def ofData? (d : Data) : Option Protocol := d.unitName?.bind fun name => all.find? (·.name = name)

end Protocol

namespace ContainerPort

/-- The data of a container port. -/
def toData (p : ContainerPort) : Data :=
  .record (optional "name" .text p.name ++
    [("containerPort", word16 p.number), ("protocol", p.protocol.toData)])

/-- The container port of data. -/
def ofData? (d : Data) : Option ContainerPort := do
  let fields ← d.fields? [("name", true), ("containerPort", false), ("protocol", true)]
  let name ← settable fields "name" text?
  let number ← required fields "containerPort" word16?
  let protocol ← standard fields "protocol" Protocol.ofData? .standard
  return { name, number, protocol }

end ContainerPort

namespace ServicePort

/-- The data of a service port. -/
def toData (p : ServicePort) : Data :=
  .record (optional "name" .text p.name ++ [("port", word16 p.number)] ++
    optional "targetPort" word16 p.target ++ [("protocol", p.protocol.toData)])

/-- The service port of data. -/
def ofData? (d : Data) : Option ServicePort := do
  let fields ← d.fields?
    [("name", true), ("port", false), ("targetPort", true), ("protocol", true)]
  let name ← settable fields "name" text?
  let number ← required fields "port" word16?
  let target ← settable fields "targetPort" word16?
  let protocol ← standard fields "protocol" Protocol.ofData? .standard
  return { name, number, target, protocol }

end ServicePort

namespace PortDeclaration

/-- The data of a declaration. -/
def toData (p : PortDeclaration) : Data :=
  .record (optional "name" .text p.name ++
    [("protocol", p.protocol.toData), ("port", word16 p.number)] ++
    optional "targetPort" word16 p.target)

/-- The declaration of data. -/
def ofData? (d : Data) : Option PortDeclaration := do
  let fields ← d.fields?
    [("name", true), ("protocol", true), ("port", false), ("targetPort", true)]
  let name ← settable fields "name" text?
  let protocol ← standard fields "protocol" Protocol.ofData? .standard
  let number ← required fields "port" word16?
  let target ← settable fields "targetPort" word16?
  return { name, protocol, number, target }

end PortDeclaration

/-! ### Probes -/

/-- A command that is the only field of a record. -/
def commandOfData? (d : Data) : Option (List String) := do
  let fields ← d.fields? [("command", false)]
  required fields "command" (list? text?)

namespace ProbeAction

/-- The field of an action: the name of its alternative, and what it holds. -/
def toField : ProbeAction → String × Data
  | httpGet path port scheme =>
    ("httpGet", .record ([("path", .text path), ("port", word16 port)] ++
      optional "scheme" .text scheme))
  | tcpSocket port => ("tcpSocket", .record [("port", word16 port)])
  | exec command => ("exec", .record [("command", texts command)])

/-- What the alternative `httpGet` holds. -/
def httpGetOfData? (d : Data) : Option ProbeAction := do
  let fields ← d.fields? [("path", false), ("port", false), ("scheme", true)]
  let path ← required fields "path" text?
  let port ← required fields "port" word16?
  let scheme ← settable fields "scheme" text?
  return httpGet path port scheme

/-- What the alternative `tcpSocket` holds. -/
def tcpSocketOfData? (d : Data) : Option ProbeAction := do
  let fields ← d.fields? [("port", false)]
  let port ← required fields "port" word16?
  return tcpSocket port

/-- The alternatives by name. -/
def alternatives : List (String × (Data → Option ProbeAction)) :=
  [("exec", fun d => (commandOfData? d).map exec), ("httpGet", httpGetOfData?),
    ("tcpSocket", tcpSocketOfData?)]

/-- The data of an action on its own. -/
def toData (a : ProbeAction) : Data := .variant a.toField.1 a.toField.2

/-- The action of data on its own. -/
def ofData? (d : Data) : Option ProbeAction := do
  let (name, payload) ← d.variant?
  let read ← alternatives.lookup name
  read payload

end ProbeAction

namespace Probe

/-- The data of a probe. -/
def toData (p : Probe) : Data :=
  .record ([p.action.toField] ++ optional "initialDelaySeconds" word32 p.initialDelay ++
    optional "periodSeconds" word32 p.period ++ optional "timeoutSeconds" word32 p.timeout ++
    optional "successThreshold" word32 p.successThreshold ++
    optional "failureThreshold" word32 p.failureThreshold)

/-- The probe of data. -/
def ofData? (d : Data) : Option Probe := do
  let fields ← d.recordFields?
  let action ← alternative? fields ProbeAction.alternatives
  let initialDelay ← settable fields "initialDelaySeconds" word32?
  let period ← settable fields "periodSeconds" word32?
  let timeout ← settable fields "timeoutSeconds" word32?
  let successThreshold ← settable fields "successThreshold" word32?
  let failureThreshold ← settable fields "failureThreshold" word32?
  return { action, initialDelay, period, timeout, successThreshold, failureThreshold }

/-- The data of a probe that may be unset. -/
def optionToData : Option Probe → Data
  | none => .null
  | some probe => probe.toData

end Probe

namespace Probes

/-- The data of the probes, where an unset one is null. -/
def toData (ps : Probes) : Data :=
  .record [("readiness", Probe.optionToData ps.readiness),
    ("liveness", Probe.optionToData ps.liveness), ("startup", Probe.optionToData ps.startup)]

/-- The probes of data. -/
def ofData? (d : Data) : Option Probes := do
  let fields ← d.fields? [("readiness", false), ("liveness", false), ("startup", false)]
  let readiness ← settable fields "readiness" Probe.ofData?
  let liveness ← settable fields "liveness" Probe.ofData?
  let startup ← settable fields "startup" Probe.ofData?
  return { readiness, liveness, startup }

end Probes

/-! ### Containers -/

namespace EnvVar

/-- The data of an environment variable. -/
def toData (v : EnvVar) : Data := .record [("name", .text v.name), ("value", .text v.value)]

/-- The environment variable of data. -/
def ofData? (d : Data) : Option EnvVar := do
  let fields ← d.fields? [("name", false), ("value", false)]
  let name ← required fields "name" text?
  let value ← required fields "value" text?
  return { name, value }

end EnvVar

namespace SecurityContext

/-- The data of the rights of a container. -/
def toData (c : SecurityContext) : Data :=
  .record (optional "runAsUser" signed64 c.runAsUser ++
    optional "runAsGroup" signed64 c.runAsGroup ++
    optional "runAsNonRoot" .bool c.runAsNonRoot ++ optional "privileged" .bool c.privileged ++
    optional "readOnlyRootFilesystem" .bool c.readOnlyRootFilesystem ++
    optional "allowPrivilegeEscalation" .bool c.allowPrivilegeEscalation)

/-- The rights of data. -/
def ofData? (d : Data) : Option SecurityContext := do
  let fields ← d.fields?
    [("runAsUser", true), ("runAsGroup", true), ("runAsNonRoot", true), ("privileged", true),
      ("readOnlyRootFilesystem", true), ("allowPrivilegeEscalation", true)]
  let runAsUser ← settable fields "runAsUser" signed64?
  let runAsGroup ← settable fields "runAsGroup" signed64?
  let runAsNonRoot ← settable fields "runAsNonRoot" bool?
  let privileged ← settable fields "privileged" bool?
  let readOnlyRootFilesystem ← settable fields "readOnlyRootFilesystem" bool?
  let allowPrivilegeEscalation ← settable fields "allowPrivilegeEscalation" bool?
  return {
    runAsUser, runAsGroup, runAsNonRoot, privileged, readOnlyRootFilesystem,
    allowPrivilegeEscalation }

end SecurityContext

namespace Resources

/-- A field with a table that is left out if the table is empty. -/
def tableField (key : String) (entries : Table String) : List (String × Data) :=
  if entries.isEmpty then [] else [(key, table entries)]

/-- The data of resources. -/
def toData (r : Resources) : Data :=
  .record (tableField "limits" r.limits ++ tableField "requests" r.requests)

/-- The resources of data. -/
def ofData? (d : Data) : Option Resources := do
  let fields ← d.fields? [("limits", true), ("requests", true)]
  let limits ← standard fields "limits" table? ∅
  let requests ← standard fields "requests" table? ∅
  return { limits, requests }

end Resources

namespace HookAction

/-- The data of the action of a hook. -/
def toData : HookAction → Data
  | exec command => .variant "exec" (.record [("command", texts command)])
  | httpGet path port =>
    .variant "httpGet" (.record [("path", .text path), ("port", word16 port)])

/-- What the alternative `exec` holds, which has to be a record. -/
def execOfData? (d : Data) : Option HookAction := do
  let fields ← d.recordFields?
  let command ← required fields "command" (list? text?)
  return exec command

/-- What the alternative `httpGet` holds, which has to be a record. -/
def httpGetOfData? (d : Data) : Option HookAction := do
  let fields ← d.recordFields?
  let path ← required fields "path" text?
  let port ← required fields "port" word16?
  return httpGet path port

/-- The action of data. -/
def ofData? (d : Data) : Option HookAction :=
  match d.variant? with
  | some ("exec", payload) => execOfData? payload
  | some ("httpGet", payload) => httpGetOfData? payload
  | _ => none

end HookAction

namespace Lifecycle

/-- The data of hooks. -/
def toData (l : Lifecycle) : Data :=
  .record (optional "postStart" HookAction.toData l.postStart ++
    optional "preStop" HookAction.toData l.preStop)

/-- The hooks of data. -/
def ofData? (d : Data) : Option Lifecycle := do
  let fields ← d.fields? [("postStart", true), ("preStop", true)]
  let postStart ← settable fields "postStart" HookAction.ofData?
  let preStop ← settable fields "preStop" HookAction.ofData?
  return { postStart, preStop }

end Lifecycle

/-! ### Placement -/

namespace SelectorOperator

/-- The data of an operator. -/
def toData (op : SelectorOperator) : Data := .text op.name

/-- The operator of data. -/
def ofData? (d : Data) : Option SelectorOperator := d.unitName?.bind ofName?

end SelectorOperator

namespace SelectorExpression

/-- The data of a condition. -/
def toData (e : SelectorExpression) : Data :=
  .record ([("key", .text e.key), ("operator", e.operator.toData)] ++
    nonempty "values" .text e.values)

/-- The condition of data. -/
def ofData? (d : Data) : Option SelectorExpression := do
  let fields ← d.fields? [("key", false), ("operator", false), ("values", true)]
  let key ← required fields "key" text?
  let operator ← required fields "operator" SelectorOperator.ofData?
  let values ← standard fields "values" (list? text?) []
  return { key, operator, values }

end SelectorExpression

namespace SelectorTerm

/-- The data of conditions that hold together. -/
def toData (t : SelectorTerm) : Data :=
  .record [("matchExpressions", .list (t.expressions.map SelectorExpression.toData))]

/-- The conditions of data. -/
def ofData? (d : Data) : Option SelectorTerm := do
  let fields ← d.fields? [("matchExpressions", false)]
  let expressions ← required fields "matchExpressions" (list? SelectorExpression.ofData?)
  return { expressions }

end SelectorTerm

namespace VolumeSource

/-- The field of a source: the name of its alternative, and what it holds. -/
def toField : VolumeSource → String × Data
  | emptyDir => ("emptyDir", .record [])
  | configMap name => ("configMap", .record [("name", .text name)])
  | secret name => ("secret", .record [("secretName", .text name)])
  | persistentVolumeClaim name => ("persistentVolumeClaim", .record [("claimName", .text name)])
  | hostPath path => ("hostPath", .record [("path", .text path)])

/-- A text that is the only field of a record. -/
def onlyText? (key : String) (d : Data) : Option String := do
  let fields ← d.fields? [(key, false)]
  required fields key text?

/-- The alternatives by name. -/
def alternatives : List (String × (Data → Option VolumeSource)) :=
  [("configMap", fun d => (onlyText? "name" d).map configMap),
    ("emptyDir", fun d => (d.fields? []).map fun _ => emptyDir),
    ("hostPath", fun d => (onlyText? "path" d).map hostPath),
    ("persistentVolumeClaim", fun d => (onlyText? "claimName" d).map persistentVolumeClaim),
    ("secret", fun d => (onlyText? "secretName" d).map secret)]

/-- The data of a source on its own. -/
def toData (s : VolumeSource) : Data := .variant s.toField.1 s.toField.2

/-- The source of data on its own. -/
def ofData? (d : Data) : Option VolumeSource := do
  let (name, payload) ← d.variant?
  let read ← alternatives.lookup name
  let _ ← payload.recordFields?
  read payload

end VolumeSource

namespace Volume

/-- The data of a volume. -/
def toData (v : Volume) : Data := .record [("name", .text v.name), v.source.toField]

/-- The volume of data. -/
def ofData? (d : Data) : Option Volume := do
  let fields ← d.recordFields?
  let name ← required fields "name" text?
  let source ← alternative? fields VolumeSource.alternatives
  return { name, source }

end Volume

namespace VolumeMount

/-- The data of a mount. -/
def toData (m : VolumeMount) : Data :=
  .record ([("name", .text m.name), ("mountPath", .text m.path), ("readOnly", .bool m.readOnly)] ++
    optional "subPath" .text m.subPath)

/-- The mount of data. -/
def ofData? (d : Data) : Option VolumeMount := do
  let fields ← d.fields?
    [("name", false), ("mountPath", false), ("readOnly", true), ("subPath", true)]
  let name ← required fields "name" text?
  let path ← required fields "mountPath" text?
  let readOnly ← standard fields "readOnly" bool? false
  let subPath ← settable fields "subPath" text?
  return { name, path, readOnly, subPath }

end VolumeMount

end ProcessPlan
