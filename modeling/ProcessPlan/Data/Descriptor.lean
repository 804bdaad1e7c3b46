import ProcessPlan.Data.Workload
import ProcessPlan.Descriptor

/-!
# Data of metadata and descriptors

## Main definitions

* `MetadataItem.toData`, `MetadataItem.ofData?`: items
* `MetadataMaps.toData`, `MetadataMaps.ofData?`: the metadata of a resource
* `Descriptor.toData`, `Descriptor.ofData?`: descriptors
-/

namespace ProcessPlan

open Data

namespace Target

/-- The targets. -/
def all : List Target := [deployment, service, pod]

/-- The data of a target. -/
def toData (t : Target) : Data := .text t.name

/-- The target of data. Its name is compared as it stands. -/
def ofData? (d : Data) : Option Target := d.unitName?.bind fun name => all.find? (·.name = name)

end Target

namespace MetadataItem

/-- The data of an item. -/
def toData (item : MetadataItem) : Data :=
  .record ([("target", item.target.toData)] ++ optional "processName" .text item.process ++
    optional "deploymentVersion" word32 item.version ++ [("apply", table item.entries)])

/-- The item of data. -/
def ofData? (d : Data) : Option MetadataItem := do
  let fields ← d.fields?
    [("target", false), ("processName", true), ("deploymentVersion", true), ("apply", false)]
  let target ← required fields "target" Target.ofData?
  let process ← settable fields "processName" text?
  let version ← settable fields "deploymentVersion" word32?
  let entries ← required fields "apply" table?
  return { target, process, version, entries }

end MetadataItem

namespace MetadataMaps

/-- The data of the metadata of a resource. -/
def toData (m : MetadataMaps) : Data :=
  .record [("labels", table m.labels), ("annotations", table m.annotations)]

/-- The metadata of data. -/
def ofData? (d : Data) : Option MetadataMaps := do
  let fields ← d.fields? [("labels", false), ("annotations", false)]
  let labels ← required fields "labels" table?
  let annotations ← required fields "annotations" table?
  return { labels, annotations }

end MetadataMaps

namespace Descriptor

/-- The fields of a descriptor in order. -/
def layout : Layout :=
  [("name", false), ("command", false), ("instanceCount", false), ("routable", false),
    ("containerPorts", false), ("servicePorts", false), ("publicServicePort", true),
    ("environment", false), ("securityContext", true), ("resourceRequirements", true),
    ("nodeSelector", true), ("volumes", true), ("volumeMounts", true), ("readinessProbe", true),
    ("livenessProbe", true), ("startupProbe", true), ("lifecycleHooks", true),
    ("deploymentMetadata", true), ("serviceMetadata", true), ("podMetadata", true)]

/-- The data of a descriptor. -/
def toData (d : Descriptor) : Data :=
  .record (
    [("name", .text d.name), ("command", texts d.command),
      ("instanceCount", word32 d.instanceCount), ("routable", .bool d.routable),
      ("containerPorts", .list (d.containerPorts.map ContainerPort.toData)),
      ("servicePorts", .list (d.servicePorts.map ServicePort.toData))] ++
    optional "publicServicePort" word16 d.publicServicePort ++
    [("environment", .list (d.environment.map EnvVar.toData))] ++
    optional "securityContext" SecurityContext.toData d.securityContext ++
    optional "resourceRequirements" Resources.toData d.resources ++
    nonempty "nodeSelector" SelectorTerm.toData d.nodeSelector ++
    nonempty "volumes" Volume.toData d.volumes ++
    nonempty "volumeMounts" VolumeMount.toData d.volumeMounts ++
    optional "readinessProbe" Probe.toData d.readinessProbe ++
    optional "livenessProbe" Probe.toData d.livenessProbe ++
    optional "startupProbe" Probe.toData d.startupProbe ++
    optional "lifecycleHooks" Lifecycle.toData d.lifecycle ++
    [("deploymentMetadata", d.deploymentMetadata.toData),
      ("serviceMetadata", d.serviceMetadata.toData), ("podMetadata", d.podMetadata.toData)])

/-- The descriptor of data. -/
def ofData? (d : Data) : Option Descriptor := do
  let fields ← d.fields? layout
  let name ← required fields "name" text?
  let command ← required fields "command" (list? text?)
  let instanceCount ← required fields "instanceCount" word32?
  let routable ← required fields "routable" bool?
  let containerPorts ← required fields "containerPorts" (list? ContainerPort.ofData?)
  let servicePorts ← required fields "servicePorts" (list? ServicePort.ofData?)
  let publicServicePort ← settable fields "publicServicePort" word16?
  let environment ← required fields "environment" (list? EnvVar.ofData?)
  let securityContext ← settable fields "securityContext" SecurityContext.ofData?
  let resources ← settable fields "resourceRequirements" Resources.ofData?
  let nodeSelector ← standard fields "nodeSelector" (list? SelectorTerm.ofData?) []
  let volumes ← standard fields "volumes" (list? Volume.ofData?) []
  let volumeMounts ← standard fields "volumeMounts" (list? VolumeMount.ofData?) []
  let readinessProbe ← settable fields "readinessProbe" Probe.ofData?
  let livenessProbe ← settable fields "livenessProbe" Probe.ofData?
  let startupProbe ← settable fields "startupProbe" Probe.ofData?
  let lifecycle ← settable fields "lifecycleHooks" Lifecycle.ofData?
  let deploymentMetadata ← standard fields "deploymentMetadata" MetadataMaps.ofData? .empty
  let serviceMetadata ← standard fields "serviceMetadata" MetadataMaps.ofData? .empty
  let podMetadata ← standard fields "podMetadata" MetadataMaps.ofData? .empty
  return {
    name, command, instanceCount, routable, containerPorts, servicePorts, publicServicePort,
    environment, securityContext, resources, nodeSelector, volumes, volumeMounts, readinessProbe,
    livenessProbe, startupProbe, lifecycle, deploymentMetadata, serviceMetadata, podMetadata }

end Descriptor

end ProcessPlan
