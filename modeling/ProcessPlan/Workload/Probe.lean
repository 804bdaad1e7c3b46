/-!
# Health probes

A probe asks a container for its health, and is well formed if its action can be carried out at all
and no setting that counts something is zero.

## Main definitions

* `Probe`, `ProbeAction`, `Probes`: probes, what they do, and the three kinds of them
* `Probe.fault?`, `Probes.check`: the first fault of a probe, and of a set of probes
-/

namespace ProcessPlan

/-- What a probe does. -/
inductive ProbeAction where
  | httpGet (path : String) (port : UInt16) (scheme : Option String)
  | tcpSocket (port : UInt16)
  | exec (command : List String)
deriving DecidableEq

/-- A probe. -/
structure Probe where
  action : ProbeAction
  initialDelay : Option UInt32
  period : Option UInt32
  timeout : Option UInt32
  successThreshold : Option UInt32
  failureThreshold : Option UInt32
deriving DecidableEq

/-- The probes of a container. -/
structure Probes where
  readiness : Option Probe
  liveness : Option Probe
  startup : Option Probe
deriving DecidableEq

/-- What is wrong with a probe. -/
inductive ProbeFault where
  | httpPortZero
  | relativePath (path : String)
  | tcpPortZero
  | emptyCommand
  | zeroSetting (setting : String)
deriving DecidableEq

namespace ProbeFault

/-- The fault of a probe of the given kind, in words. -/
def message (kind : String) : ProbeFault → String
  | httpPortZero => kind ++ " プローブの httpGet.port が 0 です"
  | relativePath path => kind ++ " プローブの httpGet.path は '/' で始まる必要があります: " ++ path
  | tcpPortZero => kind ++ " プローブの tcpSocket.port が 0 です"
  | emptyCommand => kind ++ " プローブの exec.command が空です"
  | zeroSetting setting => kind ++ " プローブの " ++ setting ++ " は 1 以上である必要があります"

end ProbeFault

/-- What is wrong with an action. -/
def ProbeAction.fault? : ProbeAction → Option ProbeFault
  | httpGet path port _ =>
    if port = 0 then some .httpPortZero
    else if path.toList.head? ≠ some '/' then some (.relativePath path)
    else none
  | tcpSocket port => if port = 0 then some .tcpPortZero else none
  | exec command => if command.isEmpty then some .emptyCommand else none

namespace Probe

/-- The settings that may not be zero, by name. The initial delay is not among them. -/
def positiveSettings (p : Probe) : List (String × Option UInt32) :=
  [("periodSeconds", p.period), ("timeoutSeconds", p.timeout),
    ("successThreshold", p.successThreshold), ("failureThreshold", p.failureThreshold)]

/-- What is wrong with a probe: its action first, then the first setting that is zero. -/
def fault? (p : Probe) : Option ProbeFault :=
  p.action.fault?.or <|
    (p.positiveSettings.find? (·.2 = some 0)).map fun setting => .zeroSetting setting.1

end Probe

namespace Probes

/-- No probe at all. -/
def none : Probes := ⟨.none, .none, .none⟩

/-- The probes that are set, each with the name of its kind. -/
def named (ps : Probes) : List (String × Probe) :=
  [("readiness", ps.readiness), ("liveness", ps.liveness), ("startup", ps.startup)].filterMap
    fun (kind, probe) => probe.map (kind, ·)

/-- The first fault among the probes, with the kind of probe it is in. -/
def fault? (ps : Probes) : Option (String × ProbeFault) :=
  ps.named.findSome? fun (kind, probe) => probe.fault?.map (kind, ·)

end Probes

end ProcessPlan
