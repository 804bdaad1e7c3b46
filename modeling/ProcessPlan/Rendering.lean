import ProcessPlan.Data.Descriptor
import ProcessPlan.Data.Json
import ProcessPlan.Data.Yaml.Document

/-!
# Rendering descriptors

## Main definitions

* `Format`: the formats that a descriptor can be written in
* `Descriptor.render`: the text of a descriptor in a format
-/

namespace ProcessPlan

/-- The formats that a descriptor can be written in. -/
inductive Format where
  | yaml
  | json
deriving DecidableEq

namespace Format

/-- The name of a format, which is also the extension of its files. -/
def name : Format → String
  | yaml => "yaml"
  | json => "json"

/-- The format of a name. -/
def ofName? (s : String) : Option Format := [yaml, json].find? (·.name = s)

/-- A tree of data in a format. -/
def write : Format → Data → String
  | yaml => Yaml.document
  | json => Json.document

end Format

/-- The text of a descriptor in a format. -/
def Descriptor.render (d : Descriptor) (format : Format) : String := format.write d.toData

end ProcessPlan
