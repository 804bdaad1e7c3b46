import ProcessPlan.Proofs.App.Outcome
import ProcessPlan.Proofs.Metadata.LastValue
import ProcessPlan.Proofs.Overlay.Independence

/-!
# The declared descriptor

Every kind of overlay stands once among the overlays of a process, and writes an aspect of its own.
So none of them takes back or changes what another has written, and what is built can be said field
by field from the declarations, without a run: what the process declares is there unchanged, its
ports are those of the declared source, its probes are there if it has ports, and every label and
annotation is the last one declared for it.

## Main definitions

* `Descriptor.DeclaredBy`: a descriptor is the one that an application declares for a process

## Main results

* `Overlay.Runs.apply_of_mem`: what a run leaves of each of its overlays
* `Descriptor.DeclaredBy.unique`: there is one declared descriptor
* `App.buildProcess_eq_declared`: it is the one that is built
-/

namespace ProcessPlan

/-! ### Overlays that do not meet -/

namespace Overlay

variable {overlay : Overlay} {overlays : List Overlay} {d d' s : Descriptor}

/-- Where every kind of overlay stands at most once, each of them alone makes up its aspect. -/
theorem Runs.apply_of_mem (h : Runs overlays d s) (hnodup : (overlays.map Overlay.aspect).Nodup)
    (hmem : overlay ∈ overlays) :
    overlay.apply (d.only overlay.aspect) = ⟨s.only overlay.aspect, none⟩ := by
  have hfilter : overlays.filter (·.aspect = overlay.aspect) = [overlay] := by
    obtain ⟨before, after, rfl⟩ := List.append_of_mem hmem
    have hothers : ∀ other ∈ before ++ after, other.aspect ≠ overlay.aspect := by
      simp only [List.map_append, List.map_cons, List.nodup_middle, List.nodup_cons] at hnodup
      exact fun other hother heq => hnodup.1 (heq ▸ by simpa using List.mem_map_of_mem hother)
    have hnone (others : List Overlay) (h : ∀ other ∈ others, other.aspect ≠ overlay.aspect) :
        others.filter (·.aspect = overlay.aspect) = [] :=
      List.filter_eq_nil_iff.2 (by simpa using h)
    rw [List.forall_mem_append] at hothers
    rw [List.filter_append, List.filter_cons_of_pos (by simp), hnone _ hothers.1,
      hnone _ hothers.2, List.nil_append]
  have hrun := h.only overlay.aspect
  rw [hfilter] at hrun
  cases hrun with
  | step hfirst hrest =>
    cases hrest
    exact hfirst

theorem instanceCount_of_apply_units {count : Option UInt32}
    (h : (units count).apply d = ⟨d', none⟩) : d'.instanceCount = count.getD d.instanceCount := by
  rcases count with _ | count
  · cases h
    rfl
  · by_cases hcount : count = 0
    · simp [apply, hcount] at h
    · simp only [apply, hcount, if_false, Applied.mk.injEq, and_true] at h
      exact h ▸ rfl

end Overlay

/-! ### The declared descriptor -/

/-- The descriptor that an application declares for a process at a version, field by field. A label
or an annotation of a target is the value that the last item to give any gives it. -/
structure Descriptor.DeclaredBy (app : App) (spec : ProcessSpec) (version : Version)
    (d : Descriptor) : Prop where
  name : d.name = spec.name
  routable : d.routable = spec.routable
  command : d.command = spec.command
  securityContext : d.securityContext = spec.securityContext
  resources : d.resources = spec.resources
  nodeSelector : d.nodeSelector = spec.nodeSelector
  lifecycle : d.lifecycle = spec.lifecycle
  volumes : d.volumes = spec.volumes
  volumeMounts : d.volumeMounts = spec.volumeMounts
  instanceCount : d.instanceCount = spec.units.getD 1
  containerPorts : d.containerPorts = app.ports.source.containerPorts spec.name
  servicePorts : d.servicePorts = app.ports.source.servicePorts spec.name
  wired : d.containerPorts ≠ [] →
    (∃ first rest, d.servicePorts = first :: rest ∧ d.publicServicePort = some first.number) ∧
      d.readinessProbe = app.ports.healthcheck.readiness ∧
      d.livenessProbe = app.ports.healthcheck.liveness ∧
      d.startupProbe = app.ports.healthcheck.startup
  unwired : d.containerPorts = [] → d.servicePorts = [] ∧ d.publicServicePort = none ∧
    d.readinessProbe = none ∧ d.livenessProbe = none ∧ d.startupProbe = none
  environment : d.environment = spec.environment ++ portVariables spec.name d.containerPorts
  metadata : ∀ target kind key value, ((d.metadata target).get kind).find? key = some value ↔
    ∃ before item after, app.items kind = before ++ item :: after ∧
      (item.InScope spec.name version ∧ item.target = target ∧
        item.entries.find? key = some value) ∧
      ∀ later ∈ after, later.InScope spec.name version → later.target = target →
        later.entries.find? key = none

namespace Descriptor.DeclaredBy

variable {app : App} {spec : ProcessSpec} {version : Version} {d d' : Descriptor}

/-- One wiring is declared: whether there are ports decides about the public port and the probes. -/
theorem wiring_eq (h : d.DeclaredBy app spec version) (h' : d'.DeclaredBy app spec version) :
    d.wiring = d'.wiring := by
  have hcontainer := h.containerPorts.trans h'.containerPorts.symm
  have hservice := h.servicePorts.trans h'.servicePorts.symm
  by_cases hports : d.containerPorts = []
  · have hd := h.unwired hports
    have hd' := h'.unwired (hcontainer ▸ hports)
    simp only [wiring, hcontainer, hd, hd']
  · obtain ⟨⟨first, rest, hcons, hpublic⟩, hprobes⟩ := h.wired hports
    obtain ⟨⟨first', rest', hcons', hpublic'⟩, hprobes'⟩ := h'.wired (hcontainer ▸ hports)
    obtain ⟨rfl, -⟩ := List.cons.inj (hcons.symm.trans (hservice.trans hcons'))
    simp only [wiring, hcontainer, hservice, hpublic, hpublic', hprobes, hprobes']

/-- A key has one declared value, if any. -/
theorem metadata_eq (h : d.DeclaredBy app spec version) (h' : d'.DeclaredBy app spec version)
    (target : Target) : d.metadata target = d'.metadata target := by
  have hmap (kind : MetadataKind) : (d.metadata target).get kind = (d'.metadata target).get kind :=
    Table.ext_find? fun key => Option.ext fun value => by
      rw [h.metadata, h'.metadata]
  exact congrArg₂ MetadataMaps.mk (hmap .labels) (hmap .annotations)

/-- There is one declared descriptor. -/
theorem unique (h : d.DeclaredBy app spec version) (h' : d'.DeclaredBy app spec version) :
    d = d' := by
  have hcontainer := h.containerPorts.trans h'.containerPorts.symm
  have henvironment : d.environment = d'.environment := by
    rw [h.environment, h'.environment, hcontainer]
  have hwiring := h.wiring_eq h'
  have hdeployment := h.metadata_eq h' .deployment
  have hservice := h.metadata_eq h' .service
  have hpod := h.metadata_eq h' .pod
  cases d
  cases d'
  rw [Descriptor.mk.injEq]
  exact ⟨h.name.trans h'.name.symm, h.command.trans h'.command.symm,
    h.instanceCount.trans h'.instanceCount.symm, h.routable.trans h'.routable.symm, hcontainer,
    congrArg (·.servicePorts) hwiring, congrArg (·.publicServicePort) hwiring, henvironment,
    h.securityContext.trans h'.securityContext.symm, h.resources.trans h'.resources.symm,
    h.nodeSelector.trans h'.nodeSelector.symm, h.volumes.trans h'.volumes.symm,
    h.volumeMounts.trans h'.volumeMounts.symm, congrArg (·.probes.readiness) hwiring,
    congrArg (·.probes.liveness) hwiring, congrArg (·.probes.startup) hwiring,
    h.lifecycle.trans h'.lifecycle.symm, hdeployment, hservice, hpod⟩

end Descriptor.DeclaredBy

/-! ### The end of a run -/

/-- Declared ports have no probes to offer but those of the healthcheck. -/
theorem DeclaredPorts.eq_of_probes {p : DeclaredPorts} {probes : Probes}
    (h : p.source.probes = .ok probes) : probes = p.healthcheck := by
  have hprobes : p.probes.mapError Fault.badPorts = .ok probes := h
  rw [DeclaredPorts.probes] at hprobes
  split at hprobes
  · cases hprobes
  · exact (Except.ok.inj hprobes).symm

namespace App

section Runs

variable {app : App} {spec : ProcessSpec} {version : Version} {s : Descriptor}

theorem nodup_aspects_overlays (app : App) (spec : ProcessSpec) (version : Version) :
    ((app.overlays spec version).map Overlay.aspect).Nodup := by
  show Aspect.all.Nodup
  decide

/-- Each overlay of a process makes its aspect of a blank descriptor. -/
theorem apply_overlay_of_runs
    (h : Overlay.Runs (app.overlays spec version) (.blank spec.name spec.routable) s)
    (overlay : Overlay) (hmem : overlay ∈ app.overlays spec version) :
    overlay.apply (.blank spec.name spec.routable) = ⟨s.only overlay.aspect, none⟩ := by
  have happly := h.apply_of_mem (nodup_aspects_overlays app spec version) hmem
  rwa [Descriptor.only_blank] at happly

/-- What the overlays of a process lead to has the ports and probes of the declared source. -/
theorem wiring_of_runs
    (h : Overlay.Runs (app.overlays spec version) (.blank spec.name spec.routable) s) :
    s.wiring = if app.ports.declarations spec.name = [] then Wiring.empty
      else Overlay.fullWiring app.ports.source spec.name app.ports.healthcheck := by
  have hports : Overlay.wirePorts app.ports.source (.blank spec.name spec.routable)
      = ⟨s.only .portsAndProbes, none⟩ :=
    apply_overlay_of_runs h (.portsAndProbes app.ports.source) (by simp [overlays])
  have hstate := congrArg (·.state.wiring) hports
  have hwiring : (Overlay.wirePorts app.ports.source (.blank spec.name spec.routable)).state.wiring
      = s.wiring := hstate
  split
  · next hnil =>
    have hcloses : ¬ app.ports.source.Opens spec.name := by
      rwa [DeclaredPorts.opens_source_iff, not_not]
    rw [← hwiring, Overlay.wirePorts_of_not_opens hcloses]
    simp [Overlay.openWiring, DeclaredPorts.source, hnil, Descriptor.blank]
    rfl
  · next hnil =>
    have hopens : app.ports.source.Opens spec.name := DeclaredPorts.opens_source_iff.2 hnil
    cases hprobes : app.ports.source.probes with
    | error fault =>
      rw [Overlay.wirePorts_of_error hopens hprobes] at hports
      cases congrArg Applied.fault hports
    | ok probes =>
      rw [← hwiring, Overlay.wirePorts_of_ok hopens hprobes, DeclaredPorts.eq_of_probes hprobes]
      rfl

/-- What the overlays of a process lead to has, in each map, the last value that its items give. -/
theorem find?_metadata_of_runs
    (h : Overlay.Runs (app.overlays spec version) (.blank spec.name spec.routable) s)
    (target : Target) (kind : MetadataKind) (key : String) :
    ((s.metadata target).get kind).find? key
      = MetadataItem.lastValue? spec.name version target key (app.items kind) := by
  have hmem : .metadata kind (app.items kind) version ∈ app.overlays spec version := by
    cases kind <;> simp [overlays, items]
  have happly : (Descriptor.blank spec.name spec.routable).applyItems kind version (app.items kind)
      = ⟨s.only (.metadata kind), none⟩ := apply_overlay_of_runs h _ hmem
  have hfind := Descriptor.find?_applyItems (congrArg (·.fault) happly) target key
  have hblank : (((Descriptor.blank spec.name spec.routable).metadata target).get kind).find? key
      = none := by
    cases target <;> cases kind <;> rfl
  rw [happly, hblank, Option.or_none] at hfind
  rw [← show Descriptor.name (.blank spec.name spec.routable) = spec.name from rfl, ← hfind]
  cases target <;> cases kind <;> rfl

/-- What an overlay of a process writes is what stands in its aspect of the end. -/
theorem field_of_runs (h : Overlay.Runs (app.overlays spec version)
      (.blank spec.name spec.routable) s) (overlay : Overlay)
    (hmem : overlay ∈ app.overlays spec version) {α : Type} (field : Descriptor → α) :
    field (s.only overlay.aspect) = field (overlay.apply (.blank spec.name spec.routable)).state :=
  congrArg (field ·.state) (apply_overlay_of_runs h overlay hmem).symm

/-- What the overlays of a process lead to has the ports of the declared source. -/
theorem ports_of_runs (h : Overlay.Runs (app.overlays spec version)
      (.blank spec.name spec.routable) s) :
    s.containerPorts = app.ports.source.containerPorts spec.name ∧
      s.servicePorts = app.ports.source.servicePorts spec.name := by
  have hwiring := wiring_of_runs h
  rw [show s.containerPorts = s.wiring.containerPorts from rfl,
    show s.servicePorts = s.wiring.servicePorts from rfl, hwiring]
  split
  · next hnil => simp [Wiring.empty, DeclaredPorts.source, hnil, distinctPorts]
  · exact ⟨rfl, rfl⟩

theorem containerPorts_eq_nil_iff_of_runs (h : Overlay.Runs (app.overlays spec version)
      (.blank spec.name spec.routable) s) :
    s.containerPorts = [] ↔ app.ports.declarations spec.name = [] := by
  simp [(ports_of_runs h).1, DeclaredPorts.source, distinctPorts_eq_nil_iff]

/-- With ports there are the first service port and the probes of the healthcheck. -/
theorem wired_of_runs (h : Overlay.Runs (app.overlays spec version)
      (.blank spec.name spec.routable) s) (hports : s.containerPorts ≠ []) :
    (∃ first rest, s.servicePorts = first :: rest ∧ s.publicServicePort = some first.number) ∧
      s.readinessProbe = app.ports.healthcheck.readiness ∧
      s.livenessProbe = app.ports.healthcheck.liveness ∧
      s.startupProbe = app.ports.healthcheck.startup := by
  have hdeclared := mt (containerPorts_eq_nil_iff_of_runs h).2 hports
  have hwiring := wiring_of_runs h
  rw [if_neg hdeclared] at hwiring
  obtain ⟨first, rest, hcons⟩ :=
    List.exists_cons_of_ne_nil (DeclaredPorts.opens_source_iff.2 hdeclared).2
  have hpublic : s.publicServicePort = some first.number := by
    rw [show s.publicServicePort = s.wiring.publicServicePort from rfl, hwiring,
      Overlay.fullWiring, hcons]
    rfl
  exact ⟨⟨first, rest, (ports_of_runs h).2.trans hcons, hpublic⟩,
    congrArg (·.probes.readiness) hwiring, congrArg (·.probes.liveness) hwiring,
    congrArg (·.probes.startup) hwiring⟩

/-- Without ports there is nothing of them. -/
theorem unwired_of_runs (h : Overlay.Runs (app.overlays spec version)
      (.blank spec.name spec.routable) s) (hports : s.containerPorts = []) :
    s.servicePorts = [] ∧ s.publicServicePort = none ∧ s.readinessProbe = none ∧
      s.livenessProbe = none ∧ s.startupProbe = none := by
  have hwiring := wiring_of_runs h
  rw [if_pos ((containerPorts_eq_nil_iff_of_runs h).1 hports)] at hwiring
  exact ⟨congrArg (·.servicePorts) hwiring, congrArg (·.publicServicePort) hwiring,
    congrArg (·.probes.readiness) hwiring, congrArg (·.probes.liveness) hwiring,
    congrArg (·.probes.startup) hwiring⟩

/-- The overlays of a process lead to what is declared, but for the variables of its ports. -/
theorem declaredBy_of_runs (h : Overlay.Runs (app.overlays spec version)
      (.blank spec.name spec.routable) s) : s.withPortVariables.DeclaredBy app spec version where
  name := h.builtFor.name
  routable := h.builtFor.routable
  command := field_of_runs h (.command spec.command) (by simp [overlays]) (·.command)
  securityContext := field_of_runs h (.securityContext spec.securityContext) (by simp [overlays])
    (·.securityContext)
  resources := field_of_runs h (.resources spec.resources) (by simp [overlays]) (·.resources)
  nodeSelector := field_of_runs h (.nodeSelector spec.nodeSelector) (by simp [overlays])
    (·.nodeSelector)
  lifecycle := field_of_runs h (.lifecycle spec.lifecycle) (by simp [overlays]) (·.lifecycle)
  volumes := field_of_runs h (.volumes spec.volumes) (by simp [overlays]) (·.volumes)
  volumeMounts := field_of_runs h (.volumeMounts spec.volumeMounts) (by simp [overlays])
    (·.volumeMounts)
  instanceCount := Overlay.instanceCount_of_apply_units
    (apply_overlay_of_runs h (.units spec.units) (by simp [overlays]))
  containerPorts := (ports_of_runs h).1
  servicePorts := (ports_of_runs h).2
  wired := (wired_of_runs h :)
  unwired := (unwired_of_runs h :)
  environment := by
    have hname : s.name = spec.name := h.builtFor.name
    have henvironment : s.environment = spec.environment :=
      field_of_runs h (.environment spec.environment) (by simp [overlays]) (·.environment)
    show s.environment ++ portVariables s.name s.containerPorts = _
    rw [hname, henvironment]
    rfl
  metadata := fun target kind key value => by
    show ((s.metadata target).get kind).find? key = some value ↔ _
    rw [find?_metadata_of_runs h, MetadataItem.lastValue?_eq_some_iff]
    simp only [MetadataItem.valueFor?_eq_some_iff, MetadataItem.valueFor?_eq_none_iff]

end Runs

/-! ### What is built -/

/-- **What is built is what is declared.** A descriptor that is built for a name is, in every field,
the one that the application declares for the first process of the name at the version that was
asked for, or else the declared one; and there is no other such descriptor. -/
theorem buildProcess_eq_declared {app : App} {name : String} {version : Option Version}
    {d : Descriptor} (h : app.buildProcess name version = .ok d) :
    ∃ spec, app.process? name = some spec ∧
      d.DeclaredBy app spec (version.getD app.version) ∧
      ∀ d', d'.DeclaredBy app spec (version.getD app.version) → d' = d := by
  rw [buildProcess] at h
  cases hspec : app.process? name with
  | none =>
    rw [hspec] at h
    cases h
  | some spec =>
    rw [hspec] at h
    obtain ⟨s, hrun, -, rfl⟩ := build_eq_ok_iff.1 h
    have hd := declaredBy_of_runs hrun
    exact ⟨spec, rfl, hd, fun d' hd' => hd'.unique hd⟩

/-- An application with a port, a probe, and items that give one label of its pods three values. -/
def launched : App where
  name := "shop"
  version := 3
  processes :=
    [{ ProcessSpec.blank "web" true with
        units := some 2
        command := ["serve"]
        environment := [⟨"MODE", "fast"⟩] }, .blank "web" false]
  ports :=
    { processes := .ofList [("web", [⟨some "http", .tcp, 80, some 8080⟩])]
      exposed := [9000]
      healthcheck := ⟨some ⟨.tcpSocket 8080, none, none, none, none, none⟩, none, none⟩ }
  labels :=
    [⟨.pod, none, none, .ofList [("tier", "front")]⟩,
      ⟨.pod, some "web", some 3, .ofList [("tier", "edge"), ("team", "shop")]⟩,
      ⟨.pod, some "job", none, .ofList [("tier", "back")]⟩]
  annotations := [⟨.deployment, none, some 2, .ofList [("note", "old")]⟩]

/-- What is built for it at the declared version. -/
def launchedWeb : Descriptor :=
  { Descriptor.blank "web" true with
    command := ["serve"]
    instanceCount := 2
    containerPorts := [⟨some "http", 8080, .tcp⟩]
    servicePorts := [⟨some "http", 80, some 8080, .tcp⟩]
    publicServicePort := some 80
    environment := [⟨"MODE", "fast"⟩, ⟨"port", "8080"⟩, ⟨"PORT", "8080"⟩, ⟨"PORT_web", "8080"⟩]
    readinessProbe := some ⟨.tcpSocket 8080, none, none, none, none, none⟩
    podMetadata := ⟨.ofList [("team", "shop"), ("tier", "edge")], ∅⟩ }

/-- The process that stands first is built, and the last item in scope gives the label its value. -/
theorem buildProcess_launched :
    launched.buildProcess "web" none = .ok launchedWeb ∧
    ∃ spec, launched.process? "web" = some spec ∧ launchedWeb.DeclaredBy launched spec 3 ∧
      ∀ d, d.DeclaredBy launched spec 3 → d = launchedWeb := by
  have hbuild : launched.buildProcess "web" none = .ok launchedWeb := by decide +kernel
  exact ⟨hbuild, buildProcess_eq_declared hbuild⟩

end App

end ProcessPlan
