import ProcessPlan.App
import ProcessPlan.Command.Arguments
import ProcessPlan.Command.Help
import ProcessPlan.Command.Run
import ProcessPlan.Config.Healthcheck
import ProcessPlan.Config.Ports
import ProcessPlan.Config.Process
import ProcessPlan.Config.Scalar
import ProcessPlan.Config.Sections
import ProcessPlan.Data.Descriptor
import ProcessPlan.Data.Fields
import ProcessPlan.Data.Json
import ProcessPlan.Data.Tree
import ProcessPlan.Data.Workload
import ProcessPlan.Data.Yaml.Character
import ProcessPlan.Data.Yaml.Document
import ProcessPlan.Data.Yaml.Implicit
import ProcessPlan.Data.Yaml.Scalar
import ProcessPlan.Descriptor
import ProcessPlan.Fault
import ProcessPlan.Files.Basic
import ProcessPlan.Files.Discovery
import ProcessPlan.Files.Loading
import ProcessPlan.Kdl.Document
import ProcessPlan.Kdl.Node
import ProcessPlan.Kdl.Numeral
import ProcessPlan.Kdl.Printing
import ProcessPlan.Kdl.Quoted
import ProcessPlan.Kdl.Scan
import ProcessPlan.Main
import ProcessPlan.Metadata.Grammar
import ProcessPlan.Metadata.Item
import ProcessPlan.Number.Binary64
import ProcessPlan.Number.Digits
import ProcessPlan.Number.Range
import ProcessPlan.Number.Shortest
import ProcessPlan.Overlay
import ProcessPlan.Ports.Declared
import ProcessPlan.Ports.Source
import ProcessPlan.Rendering
import ProcessPlan.Table
import ProcessPlan.Text.Basic
import ProcessPlan.Text.Pattern
import ProcessPlan.Workload.Container
import ProcessPlan.Workload.Placement
import ProcessPlan.Workload.Port
import ProcessPlan.Workload.Probe
import ProcessPlan.Proofs.Text.Bytes
import ProcessPlan.Proofs.Text.Pattern
import ProcessPlan.Proofs.Metadata.Grammar
import ProcessPlan.Proofs.Metadata.Merge
import ProcessPlan.Proofs.Overlay.Run
import ProcessPlan.Proofs.Overlay.Wiring
import ProcessPlan.Proofs.WellFormed
import ProcessPlan.Proofs.Overlay.Finished
import ProcessPlan.Proofs.Overlay.PublicPort
import ProcessPlan.Proofs.Ports.Declared
import ProcessPlan.Proofs.App.Outcome
import ProcessPlan.Proofs.App.BuildAll
import ProcessPlan.Proofs.App.Locality
import ProcessPlan.Proofs.Overlay.Independence
import ProcessPlan.Proofs.Overlay.Metadata
import ProcessPlan.Proofs.Config.Composition
import ProcessPlan.Proofs.Data.Json
import ProcessPlan.Proofs.Data.Renderings
import ProcessPlan.Proofs.Success
import ProcessPlan.Proofs.Config.Items
import ProcessPlan.Proofs.Data.Value
import ProcessPlan.Proofs.Data.RoundTrip
import ProcessPlan.Proofs.Files.Growth
import ProcessPlan.Proofs.Command.Effects
import ProcessPlan.Proofs.Config.Specs
import ProcessPlan.Proofs.App.Faults
import ProcessPlan.Proofs.App.Declared
import ProcessPlan.Proofs.Command.Validate
import ProcessPlan.Proofs.Config.NormalForm
import ProcessPlan.Proofs.Config.Spelling
import ProcessPlan.Proofs.Metadata.Validity
import ProcessPlan.Proofs.Metadata.ScopedMerge
import ProcessPlan.Proofs.Overlay.Environment
import ProcessPlan.Proofs.Ports.Matching
import ProcessPlan.Proofs.Config.Scalar
import ProcessPlan.Proofs.Config.Settings
import ProcessPlan.Proofs.Last
import ProcessPlan.Proofs.Config.Described
import ProcessPlan.Proofs.Config.Healthcheck
import ProcessPlan.Proofs.Config.Values
import ProcessPlan.Proofs.Config.Words
import ProcessPlan.Proofs.Files.Discovery
import ProcessPlan.Proofs.Config.Positions
import ProcessPlan.Proofs.Config.Sources
import ProcessPlan.Proofs.Config.Numbers
