import ProcessPlan.Table
import ProcessPlan.Text.Basic

/-!
# Metadata items

An item adds labels or annotations to one of the three resources of a process. Whether it holds
labels or annotations follows from the list it stands in, and its scope says which processes and
versions it is meant for.

## Main definitions

* `Target`, `MetadataKind`, `MetadataItem`: items and what they add to
* `MetadataItem.InScope`: whether an item is meant for a process at a version
-/

namespace ProcessPlan

/-- The resource that an item adds to. -/
inductive Target where
  | deployment
  | service
  | pod
deriving DecidableEq

namespace Target

/-- The target of a name, in any case. -/
def ofName? (name : String) : Option Target :=
  match Text.lower name with
  | "deployment" => some .deployment
  | "service" => some .service
  | "pod" => some .pod
  | _ => none

/-- The written name. -/
def name : Target → String
  | deployment => "Deployment"
  | service => "Service"
  | pod => "Pod"

end Target

/-- The two kinds of metadata. -/
inductive MetadataKind where
  | labels
  | annotations
deriving DecidableEq

/-- The number of a deployment. The first one has number 1. -/
abbrev Version := UInt32

/-- An item: the entries it adds, and what they are meant for. -/
structure MetadataItem where
  target : Target
  process : Option String
  version : Option Version
  entries : Table String
deriving DecidableEq

/-- An item without a version, or with version 0, is meant for every version, and one without a
process, or with the empty name, for every process. -/
def MetadataItem.InScope (item : MetadataItem) (process : String) (version : Version) : Prop :=
  (item.version = none ∨ item.version = some 0 ∨ item.version = some version) ∧
    (item.process = none ∨ item.process = some "" ∨ item.process = some process)

instance (item : MetadataItem) (process : String) (version : Version) :
    Decidable (item.InScope process version) :=
  inferInstanceAs (Decidable (_ ∧ _))

end ProcessPlan
