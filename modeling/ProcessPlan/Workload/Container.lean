import ProcessPlan.Table

/-!
# The container of a process

Its environment, its rights, the resources it may use, and what runs when it starts and stops.

## Main definitions

* `EnvVar`, `EnvVar.resolve`: an environment variable, and the value that an environment gives a
  name
* `SecurityContext`, `Resources`, `Lifecycle`: rights, resources and hooks
-/

namespace ProcessPlan

/-- An environment variable. An environment may name one several times. -/
structure EnvVar where
  name : String
  value : String
deriving DecidableEq

/-- The value that an environment gives a name: of several, the last. -/
def EnvVar.resolve (environment : List EnvVar) (name : String) : Option String :=
  (environment.findRev? (·.name = name)).map (·.value)

/-- The rights of a container. -/
structure SecurityContext where
  runAsUser : Option Int64
  runAsGroup : Option Int64
  runAsNonRoot : Option Bool
  privileged : Option Bool
  readOnlyRootFilesystem : Option Bool
  allowPrivilegeEscalation : Option Bool
deriving DecidableEq

/-- Quantities of resources, such as `500m` or `256Mi`, by name. -/
structure Resources where
  limits : Table String
  requests : Table String
deriving DecidableEq

/-- What a hook does. -/
inductive HookAction where
  | exec (command : List String)
  | httpGet (path : String) (port : UInt16)
deriving DecidableEq

/-- The hooks of a container. -/
structure Lifecycle where
  postStart : Option HookAction
  preStop : Option HookAction
deriving DecidableEq

end ProcessPlan
