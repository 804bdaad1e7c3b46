import ProcessPlan.Metadata.Item
import ProcessPlan.Workload.Container
import ProcessPlan.Workload.Placement
import ProcessPlan.Workload.Port
import ProcessPlan.Workload.Probe

/-!
# Descriptors

A descriptor says how one process of an application is deployed. It is the input from which the
manifests of its deployment, its service and its pods are written.

## Main definitions

* `Descriptor`, `Descriptor.blank`: descriptors, and the one to start from
* `MetadataMaps`, `Descriptor.metadata`, `Descriptor.setMetadata`: the metadata of the three
  resources
* `Descriptor.hasOpenPort`: whether traffic can reach the process
-/

namespace ProcessPlan

/-- The metadata of one resource. -/
structure MetadataMaps where
  labels : Table String
  annotations : Table String
deriving DecidableEq

namespace MetadataMaps

/-- No metadata. -/
def empty : MetadataMaps := ⟨∅, ∅⟩

/-- Whether there is no metadata. -/
def isEmpty (m : MetadataMaps) : Bool := m.labels.isEmpty && m.annotations.isEmpty

/-- The entries of a kind. -/
def get (m : MetadataMaps) : MetadataKind → Table String
  | .labels => m.labels
  | .annotations => m.annotations

/-- The metadata with other entries of a kind. -/
def set (m : MetadataMaps) (kind : MetadataKind) (entries : Table String) : MetadataMaps :=
  match kind with
  | .labels => { m with labels := entries }
  | .annotations => { m with annotations := entries }

@[simp] theorem get_set_self (m : MetadataMaps) (kind : MetadataKind) (entries : Table String) :
    (m.set kind entries).get kind = entries := by cases kind <;> rfl

theorem get_set_of_ne (m : MetadataMaps) {kind kind' : MetadataKind} (entries : Table String)
    (h : kind' ≠ kind) : (m.set kind entries).get kind' = m.get kind' := by
  cases kind <;> cases kind' <;> simp_all [set, get]

end MetadataMaps

/-- How one process is deployed. -/
structure Descriptor where
  name : String
  command : List String
  instanceCount : UInt32
  routable : Bool
  containerPorts : List ContainerPort
  servicePorts : List ServicePort
  publicServicePort : Option UInt16
  environment : List EnvVar
  securityContext : Option SecurityContext
  resources : Option Resources
  nodeSelector : List SelectorTerm
  volumes : List Volume
  volumeMounts : List VolumeMount
  readinessProbe : Option Probe
  livenessProbe : Option Probe
  startupProbe : Option Probe
  lifecycle : Option Lifecycle
  deploymentMetadata : MetadataMaps
  serviceMetadata : MetadataMaps
  podMetadata : MetadataMaps
deriving DecidableEq

namespace Descriptor

/-- The number of instances where none is declared. -/
def standardInstanceCount : UInt32 := 1

/-- A descriptor that says no more than the name of a process and whether it takes traffic. -/
def blank (name : String) (routable : Bool) : Descriptor where
  name := name
  command := []
  instanceCount := standardInstanceCount
  routable := routable
  containerPorts := []
  servicePorts := []
  publicServicePort := none
  environment := []
  securityContext := none
  resources := none
  nodeSelector := []
  volumes := []
  volumeMounts := []
  readinessProbe := none
  livenessProbe := none
  startupProbe := none
  lifecycle := none
  deploymentMetadata := .empty
  serviceMetadata := .empty
  podMetadata := .empty

/-- Whether traffic can reach the process: a service port and a container port are there. -/
def hasOpenPort (d : Descriptor) : Bool := !d.containerPorts.isEmpty && !d.servicePorts.isEmpty

/-- The value of an environment variable. -/
def env? (d : Descriptor) (name : String) : Option String := EnvVar.resolve d.environment name

/-- The metadata of a resource. -/
def metadata (d : Descriptor) : Target → MetadataMaps
  | .deployment => d.deploymentMetadata
  | .service => d.serviceMetadata
  | .pod => d.podMetadata

/-- The descriptor with other metadata of a resource. -/
def setMetadata (d : Descriptor) (target : Target) (m : MetadataMaps) : Descriptor :=
  match target with
  | .deployment => { d with deploymentMetadata := m }
  | .service => { d with serviceMetadata := m }
  | .pod => { d with podMetadata := m }

@[simp] theorem metadata_setMetadata_self (d : Descriptor) (target : Target) (m : MetadataMaps) :
    (d.setMetadata target m).metadata target = m := by cases target <;> rfl

theorem metadata_setMetadata_of_ne (d : Descriptor) {target target' : Target} (m : MetadataMaps)
    (h : target' ≠ target) : (d.setMetadata target m).metadata target' = d.metadata target' := by
  cases target <;> cases target' <;> simp_all [setMetadata, metadata]

@[simp] theorem name_setMetadata (d : Descriptor) (target : Target) (m : MetadataMaps) :
    (d.setMetadata target m).name = d.name := by cases target <;> rfl

end Descriptor

end ProcessPlan
