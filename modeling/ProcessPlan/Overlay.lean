import ProcessPlan.Descriptor
import ProcessPlan.Fault
import ProcessPlan.Ports.Source

/-!
# Overlays

An overlay is one change of a descriptor. It holds only the values it sets, so a list of overlays
can be built before there is a descriptor, and applied in any order.

## Main definitions

* `Applied`: a descriptor as far as a change got, and the fault that ended it, if any
* `Descriptor.applyItems`: a descriptor with the items in scope, up to the first with a fault
* `Overlay`, `Overlay.apply`: overlays and what they do
* `Overlay.applyAll`, `Overlay.trace`: a list of them, up to the first that fails, and each step of
  it
* `build`: the descriptor that overlays make of a blank one
-/

namespace ProcessPlan

/-- The outcome of a change that keeps what it did before a fault. -/
structure Applied where
  state : Descriptor
  fault : Option Fault
deriving DecidableEq

/-! ### Merging metadata

The items in scope are merged one after the other, so that of several entries with one key the last
stays. An item with a fault ends the merge; what came before it stays merged. -/

namespace Descriptor

/-- The descriptor with the entries of an item added to its target. -/
def merge (d : Descriptor) (kind : MetadataKind) (item : MetadataItem) : Descriptor :=
  let m := d.metadata item.target
  d.setMetadata item.target (m.set kind ((m.get kind).insertAll item.entries.entries))

/-- The descriptor with all items in scope merged in order, up to the first one with a fault. -/
def applyItems (d : Descriptor) (kind : MetadataKind) (version : Version) :
    List MetadataItem → Applied
  | [] => ⟨d, none⟩
  | item :: rest =>
    if item.InScope d.name version then
      match item.fault? kind with
      | some fault => ⟨d, some (.badItem fault)⟩
      | none => (d.merge kind item).applyItems kind version rest
    else d.applyItems kind version rest

end Descriptor

/-! ### Overlays -/

/-- One change of a descriptor. -/
inductive Overlay where
  | units (count : Option UInt32)
  | command (words : List String)
  | environment (vars : List EnvVar)
  | securityContext (context : Option SecurityContext)
  | resources (quantities : Option Resources)
  | nodeSelector (terms : List SelectorTerm)
  | lifecycle (hooks : Option Lifecycle)
  | volumes (list : List Volume)
  | volumeMounts (mounts : List VolumeMount)
  | portsAndProbes (source : PortSource)
  | metadata (kind : MetadataKind) (items : List MetadataItem) (version : Version)

namespace Overlay

/-- The name of what an overlay changes. -/
def kind : Overlay → String
  | units _ => "units"
  | command _ => "command"
  | environment _ => "env"
  | securityContext _ => "security-context"
  | resources _ => "resources"
  | nodeSelector _ => "node-selector"
  | lifecycle _ => "lifecycle"
  | volumes _ => "volumes"
  | volumeMounts _ => "volume-mounts"
  | portsAndProbes _ => "ports-and-probes"
  | metadata .labels _ _ => "labels"
  | metadata .annotations _ _ => "annotations"

/-- The descriptor with the ports of a source. Only where there are ports on both sides does it get
the probes and a public port, which is the first service port. -/
def wirePorts (source : PortSource) (d : Descriptor) : Applied :=
  let wired := { d with
    servicePorts := source.servicePorts d.name
    containerPorts := source.containerPorts d.name }
  if wired.hasOpenPort then
    match source.probes with
    | .error fault => ⟨wired, some fault⟩
    | .ok probes =>
      ⟨{ wired with
          publicServicePort := wired.servicePorts.head?.map (·.number)
          readinessProbe := probes.readiness
          livenessProbe := probes.liveness
          startupProbe := probes.startup }, none⟩
  else ⟨wired, none⟩

/-- What an overlay makes of a descriptor. -/
def apply (overlay : Overlay) (d : Descriptor) : Applied :=
  match overlay with
  | units none => ⟨d, none⟩
  | units (some count) =>
    if count = 0 then ⟨d, some (.badConfig (.noUnits d.name))⟩
    else ⟨{ d with instanceCount := count }, none⟩
  | command words => ⟨{ d with command := words }, none⟩
  | environment vars => ⟨{ d with environment := vars }, none⟩
  | securityContext context => ⟨{ d with securityContext := context }, none⟩
  | resources quantities => ⟨{ d with resources := quantities }, none⟩
  | nodeSelector terms => ⟨{ d with nodeSelector := terms }, none⟩
  | lifecycle hooks => ⟨{ d with lifecycle := hooks }, none⟩
  | volumes list => ⟨{ d with volumes := list }, none⟩
  | volumeMounts mounts => ⟨{ d with volumeMounts := mounts }, none⟩
  | portsAndProbes source => wirePorts source d
  | metadata kind items version => d.applyItems kind version items

/-- What a list of overlays makes of a descriptor, up to the first that fails. -/
def applyAll : List Overlay → Descriptor → Applied
  | [], d => ⟨d, none⟩
  | overlay :: rest, d =>
    match overlay.apply d with
    | ⟨state, none⟩ => applyAll rest state
    | failed => failed

/-- The overlays that are applied, each with its outcome; one that fails is the last. -/
def trace : List Overlay → Descriptor → List (Overlay × Applied)
  | [], _ => []
  | overlay :: rest, d =>
    let outcome := overlay.apply d
    (overlay, outcome) :: if outcome.fault.isNone then trace rest outcome.state else []

end Overlay

namespace Descriptor

/-- The descriptor with the variables that tell the process its ports after its own. -/
def withPortVariables (d : Descriptor) : Descriptor :=
  { d with environment := d.environment ++ portVariables d.name d.containerPorts }

end Descriptor

/-- The descriptor that overlays make of a blank one. The first overlay that fails ends it; a
process that takes traffic has to have an open port in the end. -/
def build (name : String) (routable : Bool) (overlays : List Overlay) : Except Fault Descriptor :=
  match Overlay.applyAll overlays (.blank name routable) with
  | ⟨_, some fault⟩ => .error fault
  | ⟨state, none⟩ =>
    let finished := state.withPortVariables
    if finished.routable && !finished.hasOpenPort then .error (.missingPorts finished.name)
    else .ok finished

end ProcessPlan
