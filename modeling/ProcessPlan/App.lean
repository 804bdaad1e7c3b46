import ProcessPlan.Overlay
import ProcessPlan.Ports.Declared

/-!
# Applications

An application declares processes, their ports, and items of metadata. Every process has its list of
overlays, from which its descriptor is built; a version given on the outside stands before the one
that the application declares.

## Main definitions

* `App`, `ProcessSpec`: the declarations
* `App.overlays`, `App.buildProcess`, `App.buildAll`: the overlays and the descriptors of the
  processes
-/

namespace ProcessPlan

/-- The declaration of a process. -/
structure ProcessSpec where
  name : String
  routable : Bool
  command : List String
  units : Option UInt32
  environment : List EnvVar
  securityContext : Option SecurityContext
  resources : Option Resources
  nodeSelector : List SelectorTerm
  lifecycle : Option Lifecycle
  volumes : List Volume
  volumeMounts : List VolumeMount
deriving DecidableEq

/-- The declaration of a process that says no more than its name and whether it takes traffic. -/
def ProcessSpec.blank (name : String) (routable : Bool) : ProcessSpec where
  name := name
  routable := routable
  command := []
  units := none
  environment := []
  securityContext := none
  resources := none
  nodeSelector := []
  lifecycle := none
  volumes := []
  volumeMounts := []

/-- The declarations of an application. -/
structure App where
  name : String
  version : Version
  processes : List ProcessSpec
  ports : DeclaredPorts
  labels : List MetadataItem
  annotations : List MetadataItem
deriving DecidableEq

namespace App

/-- The version where none is declared. -/
def firstVersion : Version := 1

/-- An application that declares nothing but its name. -/
def blank (name : String) : App where
  name := name
  version := firstVersion
  processes := []
  ports := .empty
  labels := []
  annotations := []

/-- The process of a name. -/
def process? (app : App) (name : String) : Option ProcessSpec :=
  app.processes.find? (·.name = name)

/-- The overlays of a process: labels follow the ports, and annotations come last. -/
def overlays (app : App) (spec : ProcessSpec) (version : Version) : List Overlay :=
  [.units spec.units, .command spec.command, .environment spec.environment,
    .securityContext spec.securityContext, .resources spec.resources,
    .nodeSelector spec.nodeSelector, .lifecycle spec.lifecycle, .volumes spec.volumes,
    .volumeMounts spec.volumeMounts, .portsAndProbes app.ports.source,
    .metadata .labels app.labels version, .metadata .annotations app.annotations version]

/-- The descriptor of a declared process. -/
def buildSpec (app : App) (spec : ProcessSpec) (version : Option Version) :
    Except Fault Descriptor :=
  build spec.name spec.routable (app.overlays spec (version.getD app.version))

/-- The descriptor of the process of a name. -/
def buildProcess (app : App) (name : String) (version : Option Version) :
    Except Fault Descriptor :=
  match app.process? name with
  | none => .error (.unknownProcess name)
  | some spec => app.buildSpec spec version

/-- The descriptors of all processes in order, each under its name. A process that cannot be built
does not stop the others. -/
def buildAll (app : App) (version : Option Version) :
    List (String × Except Fault Descriptor) :=
  app.processes.map fun spec => (spec.name, app.buildProcess spec.name version)

end App

end ProcessPlan
