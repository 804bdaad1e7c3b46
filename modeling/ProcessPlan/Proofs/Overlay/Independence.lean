import ProcessPlan.Proofs.Overlay.PublicPort

/-!
# Overlays of different kinds

Every field of a descriptor, but for its name and its routing, is written by overlays of one kind
only. So a descriptor falls into one aspect for each kind, and what a run makes of an aspect is what
its overlays of that kind alone make of it. Runs over the same overlays, those of each kind in the
same order, therefore end with the same descriptor, however the kinds are interleaved.

Only a success can be compared that closely. Where several overlays fail, the order decides which
one fails first, but not whether one does: the fault of an overlay depends on the name of the
process and on nothing that other overlays write.

## Main definitions

* `Aspect`, `Overlay.aspect`: the kinds of overlay, as a type
* `Descriptor.only`: what overlays of one kind write, and all else blank
* `Overlay.SameOrder`: the same overlays, those of each kind in the same order

## Main results

* `Overlay.only_apply_of_ne`, `Overlay.apply_only`: what one overlay does to each aspect
* `Overlay.Runs.only`: what a run does to one aspect
* `build_eq_of_sameOrder`: the outcome of a build does not depend on how the kinds are interleaved
-/

namespace ProcessPlan

/-- What overlays of one kind write. -/
inductive Aspect where
  | units
  | command
  | environment
  | securityContext
  | resources
  | nodeSelector
  | lifecycle
  | volumes
  | volumeMounts
  | portsAndProbes
  | metadata (kind : MetadataKind)
deriving DecidableEq

namespace Aspect

/-- The name of the overlays that write an aspect. -/
def name : Aspect → String
  | units => "units"
  | command => "command"
  | environment => "env"
  | securityContext => "security-context"
  | resources => "resources"
  | nodeSelector => "node-selector"
  | lifecycle => "lifecycle"
  | volumes => "volumes"
  | volumeMounts => "volume-mounts"
  | portsAndProbes => "ports-and-probes"
  | metadata .labels => "labels"
  | metadata .annotations => "annotations"

/-- The aspects. -/
def all : List Aspect :=
  [units, command, environment, securityContext, resources, nodeSelector, lifecycle, volumes,
    volumeMounts, portsAndProbes, metadata .labels, metadata .annotations]

theorem mem_all (aspect : Aspect) : aspect ∈ all := by
  cases aspect with
  | metadata kind => cases kind <;> decide
  | _ => decide

/-- No two aspects have one name. -/
theorem name_injective {a b : Aspect} (h : a.name = b.name) : a = b := by
  have hall : ∀ a ∈ all, ∀ b ∈ all, a.name = b.name → a = b := by decide
  exact hall a (mem_all a) b (mem_all b) h

end Aspect

/-- The aspect that an overlay writes. -/
def Overlay.aspect : Overlay → Aspect
  | units _ => .units
  | command _ => .command
  | environment _ => .environment
  | securityContext _ => .securityContext
  | resources _ => .resources
  | nodeSelector _ => .nodeSelector
  | lifecycle _ => .lifecycle
  | volumes _ => .volumes
  | volumeMounts _ => .volumeMounts
  | portsAndProbes _ => .portsAndProbes
  | metadata kind _ _ => .metadata kind

theorem Overlay.kind_eq (overlay : Overlay) : overlay.kind = overlay.aspect.name := by
  cases overlay with
  | metadata kind _ _ => cases kind <;> rfl
  | _ => rfl

/-! ### The aspects of a descriptor -/

/-- The entries of one kind, without those of the other. -/
def MetadataMaps.only (kind : MetadataKind) (m : MetadataMaps) : MetadataMaps :=
  MetadataMaps.empty.set kind (m.get kind)

/-- The entries of each kind from the metadata that stands for it. -/
def MetadataMaps.ofKinds (parts : MetadataKind → MetadataMaps) : MetadataMaps :=
  ⟨(parts .labels).labels, (parts .annotations).annotations⟩

namespace Descriptor

variable {d e : Descriptor} {aspect : Aspect} {kind kind' : MetadataKind}

/-- The descriptor with all but one aspect blank. -/
def only (d : Descriptor) (aspect : Aspect) : Descriptor :=
  let bare := blank d.name d.routable
  match aspect with
  | .units => { bare with instanceCount := d.instanceCount }
  | .command => { bare with command := d.command }
  | .environment => { bare with environment := d.environment }
  | .securityContext => { bare with securityContext := d.securityContext }
  | .resources => { bare with resources := d.resources }
  | .nodeSelector => { bare with nodeSelector := d.nodeSelector }
  | .lifecycle => { bare with lifecycle := d.lifecycle }
  | .volumes => { bare with volumes := d.volumes }
  | .volumeMounts => { bare with volumeMounts := d.volumeMounts }
  | .portsAndProbes => bare.setWiring d.wiring
  | .metadata kind =>
    { bare with
      deploymentMetadata := d.deploymentMetadata.only kind
      serviceMetadata := d.serviceMetadata.only kind
      podMetadata := d.podMetadata.only kind }

@[simp] theorem name_only (d : Descriptor) (aspect : Aspect) : (d.only aspect).name = d.name := by
  cases aspect <;> rfl

@[simp] theorem only_blank (name : String) (routable : Bool) (aspect : Aspect) :
    (blank name routable).only aspect = blank name routable := by
  cases aspect with
  | metadata kind => cases kind <;> rfl
  | _ => rfl

/-- The descriptor with each field taken from the descriptor that stands for its aspect. -/
def ofAspects (parts : Aspect → Descriptor) : Descriptor where
  name := (parts .units).name
  command := (parts .command).command
  instanceCount := (parts .units).instanceCount
  routable := (parts .units).routable
  containerPorts := (parts .portsAndProbes).containerPorts
  servicePorts := (parts .portsAndProbes).servicePorts
  publicServicePort := (parts .portsAndProbes).publicServicePort
  environment := (parts .environment).environment
  securityContext := (parts .securityContext).securityContext
  resources := (parts .resources).resources
  nodeSelector := (parts .nodeSelector).nodeSelector
  volumes := (parts .volumes).volumes
  volumeMounts := (parts .volumeMounts).volumeMounts
  readinessProbe := (parts .portsAndProbes).readinessProbe
  livenessProbe := (parts .portsAndProbes).livenessProbe
  startupProbe := (parts .portsAndProbes).startupProbe
  lifecycle := (parts .lifecycle).lifecycle
  deploymentMetadata := .ofKinds fun kind => (parts (.metadata kind)).deploymentMetadata
  serviceMetadata := .ofKinds fun kind => (parts (.metadata kind)).serviceMetadata
  podMetadata := .ofKinds fun kind => (parts (.metadata kind)).podMetadata

/-- A descriptor is made up of its aspects. -/
theorem ofAspects_only (d : Descriptor) : ofAspects d.only = d := rfl

theorem eq_of_only (h : ∀ aspect, d.only aspect = e.only aspect) : d = e := by
  rw [← ofAspects_only d, ← ofAspects_only e, funext h]

/-! ### What a descriptor without some aspect still shows -/

theorem only_withoutWiring (d : Descriptor) (h : aspect ≠ .portsAndProbes) :
    d.withoutWiring.only aspect = d.only aspect := by
  cases aspect <;> first | rfl | exact absurd rfl h

/-! ### Merged items -/

theorem only_merge_of_ne (d : Descriptor) (item : MetadataItem) (h : aspect ≠ .metadata kind) :
    (d.merge kind item).only aspect = d.only aspect := by
  obtain ⟨target, _, _, _⟩ := item
  cases aspect with
  | metadata kind' =>
    cases target <;> cases kind <;> cases kind' <;> first | rfl | exact absurd rfl h
  | _ => cases target <;> rfl

/-- Merging an item and leaving out the other aspects can be done in either order. -/
theorem merge_only (d : Descriptor) (kind : MetadataKind) (item : MetadataItem) :
    (d.only (.metadata kind)).merge kind item = (d.merge kind item).only (.metadata kind) := by
  obtain ⟨target, _, _, _⟩ := item
  cases target <;> cases kind <;> rfl

end Descriptor

/-- The outcome of a change with all but one aspect of its descriptor blank. -/
def Applied.only (a : Applied) (aspect : Aspect) : Applied :=
  { a with state := a.state.only aspect }

namespace Descriptor

variable {d e : Descriptor} {aspect : Aspect} {kind : MetadataKind}

theorem only_applyItems_of_ne (version : Version) (items : List MetadataItem) (d : Descriptor)
    (h : aspect ≠ .metadata kind) :
    (d.applyItems kind version items).state.only aspect = d.only aspect := by
  induction items generalizing d with
  | nil => rfl
  | cons item rest ih =>
    by_cases hscope : item.InScope d.name version
    · cases hfault : item.fault? kind with
      | some fault => rw [applyItems_cons_of_some hscope hfault]
      | none => rw [applyItems_cons_of_none hscope hfault, ih, only_merge_of_ne d item h]
    · rw [applyItems_cons_of_not_inScope hscope, ih]

theorem applyItems_only (version : Version) (items : List MetadataItem) (d : Descriptor) :
    (d.only (.metadata kind)).applyItems kind version items
      = (d.applyItems kind version items).only (.metadata kind) := by
  induction items generalizing d with
  | nil => rfl
  | cons item rest ih =>
    by_cases hscope : item.InScope d.name version
    · have hscope' : item.InScope (d.only (.metadata kind)).name version := by rwa [name_only]
      cases hfault : item.fault? kind with
      | some fault =>
        rw [applyItems_cons_of_some hscope hfault, applyItems_cons_of_some hscope' hfault]
        rfl
      | none =>
        rw [applyItems_cons_of_none hscope hfault, applyItems_cons_of_none hscope' hfault,
          merge_only, ih]
    · have hscope' : ¬ item.InScope (d.only (.metadata kind)).name version := by rwa [name_only]
      rw [applyItems_cons_of_not_inScope hscope, applyItems_cons_of_not_inScope hscope', ih]

end Descriptor

namespace Overlay

variable {overlay : Overlay} {overlays overlays' : List Overlay} {d d' s s' : Descriptor}
  {aspect : Aspect}

/-! ### One overlay -/

/-- An overlay leaves every aspect but its own as it was. -/
theorem only_apply_of_ne (d : Descriptor) (h : overlay.aspect ≠ aspect) :
    (overlay.apply d).state.only aspect = d.only aspect := by
  cases overlay with
  | units count =>
    rw [state_apply_units]
    cases aspect <;> first | rfl | exact absurd rfl h
  | portsAndProbes source =>
    have hrest := congrArg (·.only aspect) (withoutWiring_wirePorts source d)
    simp only [Descriptor.only_withoutWiring _ h.symm] at hrest
    exact hrest
  | metadata kind items version => exact Descriptor.only_applyItems_of_ne version items d h.symm
  | _ => cases aspect <;> first | rfl | exact absurd rfl h

theorem wirePorts_only (source : PortSource) (d : Descriptor) :
    wirePorts source (d.only .portsAndProbes) = (wirePorts source d).only .portsAndProbes := by
  have hname : (d.only .portsAndProbes).name = d.name := rfl
  by_cases h : source.Opens d.name
  · cases hprobes : source.probes with
    | error fault => rw [wirePorts_of_error h hprobes, wirePorts_of_error (hname ▸ h) hprobes]; rfl
    | ok probes => rw [wirePorts_of_ok h hprobes, wirePorts_of_ok (hname ▸ h) hprobes]; rfl
  · rw [wirePorts_of_not_opens h, wirePorts_of_not_opens (hname ▸ h)]; rfl

/-- What an overlay makes of its aspect depends on that aspect alone. -/
theorem apply_only (overlay : Overlay) (d : Descriptor) :
    overlay.apply (d.only overlay.aspect) = (overlay.apply d).only overlay.aspect := by
  cases overlay with
  | units count =>
    rcases count with _ | count
    · rfl
    · by_cases hcount : count = 0
      · simp [apply, hcount, aspect, Applied.only]
      · simp [apply, hcount, aspect, Applied.only]
        rfl
  | portsAndProbes source => exact wirePorts_only source d
  | metadata kind items version => exact Descriptor.applyItems_only version items d
  | _ => rfl

/-! ### Runs -/

/-- What a run makes of an aspect is what the overlays that write it make of it. -/
theorem Runs.only (h : Runs overlays d s) (aspect : Aspect) :
    Runs (overlays.filter (·.aspect = aspect)) (d.only aspect) (s.only aspect) := by
  induction h with
  | done d => exact .done _
  | @step overlay rest d d' s hfirst _ ih =>
    by_cases haspect : overlay.aspect = aspect
    · rw [List.filter_cons_of_pos (by simpa using haspect)]
      subst haspect
      have hself : overlay.apply (d.only overlay.aspect) = ⟨d'.only overlay.aspect, none⟩ := by
        rw [apply_only, hfirst]
        rfl
      exact .step hself ih
    · rw [List.filter_cons_of_neg (by simpa using haspect)]
      have hother : (overlay.apply d).state.only aspect = d.only aspect :=
        only_apply_of_ne d haspect
      rw [hfirst] at hother
      rwa [show d'.only aspect = d.only aspect from hother] at ih

/-- Two lists hold the same overlays, and those of each kind in the same order. -/
structure SameOrder (overlays overlays' : List Overlay) : Prop where
  perm : overlays.Perm overlays'
  kinds : ∀ kind, overlays.filter (·.kind = kind) = overlays'.filter (·.kind = kind)

theorem SameOrder.aspects (h : SameOrder overlays overlays') (aspect : Aspect) :
    overlays.filter (·.aspect = aspect) = overlays'.filter (·.aspect = aspect) := by
  have hkind (overlay : Overlay) : overlay.kind = aspect.name ↔ overlay.aspect = aspect := by
    rw [kind_eq]
    exact ⟨Aspect.name_injective, congrArg Aspect.name⟩
  have hfilter := h.kinds aspect.name
  simp only [hkind] at hfilter
  exact hfilter

theorem SameOrder.symm (h : SameOrder overlays overlays') : SameOrder overlays' overlays :=
  ⟨h.perm.symm, fun kind => (h.kinds kind).symm⟩

/-- Whether a list of overlays runs to an end does not depend on their order at all. -/
theorem exists_runs_iff_of_perm (h : overlays.Perm overlays') :
    (∃ s, Runs overlays d s) ↔ ∃ s, Runs overlays' d s := by
  simp only [runs_iff, List.findSome?_eq_none_iff, h.mem_iff]

theorem SameOrder.runs (h : SameOrder overlays overlays') (hrun : Runs overlays d s) :
    Runs overlays' d s := by
  obtain ⟨s', hrun'⟩ := (exists_runs_iff_of_perm h.perm).mp ⟨s, hrun⟩
  have hs : s = s' := Descriptor.eq_of_only fun aspect =>
    (hrun.only aspect).unique (h.aspects aspect ▸ hrun'.only aspect)
  rwa [hs]

theorem SameOrder.runs_iff (h : SameOrder overlays overlays') :
    Runs overlays d s ↔ Runs overlays' d s :=
  ⟨h.runs, h.symm.runs⟩

/-! ### Exchanging neighbours -/

theorem SameOrder.trans {overlays'' : List Overlay} (h : SameOrder overlays overlays')
    (h' : SameOrder overlays' overlays'') : SameOrder overlays overlays'' :=
  ⟨h.perm.trans h'.perm, fun kind => (h.kinds kind).trans (h'.kinds kind)⟩

theorem SameOrder.cons (overlay : Overlay) (h : SameOrder overlays overlays') :
    SameOrder (overlay :: overlays) (overlay :: overlays') := by
  refine ⟨h.perm.cons overlay, fun kind => ?_⟩
  rw [List.filter_cons, List.filter_cons, h.kinds kind]

/-- Two neighbours of different kinds can be exchanged. -/
theorem SameOrder.swap {a b : Overlay} (h : a.kind ≠ b.kind) (rest : List Overlay) :
    SameOrder (a :: b :: rest) (b :: a :: rest) := by
  refine ⟨.swap b a rest, fun kind => ?_⟩
  by_cases ha : a.kind = kind
  · have hb : b.kind ≠ kind := fun hb => h (ha.trans hb.symm)
    simp [ha, hb]
  · simp [List.filter_cons, ha]

end Overlay

/-! ### Builds -/

section Build

variable {name : String} {routable : Bool} {overlays overlays' : List Overlay}

/-- After the same overlays have succeeded, the last check of a build has the same to report. -/
theorem build_eq_of_sameOrder_of_runs (h : Overlay.SameOrder overlays overlays') {s : Descriptor}
    (hrun : Overlay.Runs overlays (.blank name routable) s) :
    build name routable overlays = build name routable overlays' := by
  rw [build_of_runs hrun, build_of_runs (h.runs hrun)]

/-- **Overlays of different kinds are independent.** Builds over the same overlays, those of each
kind in the same order, give the same descriptor, or both report missing ports once all overlays
have succeeded, or both fail within an overlay. So both report missing ports or neither does, as
long as no source reports the same of itself. -/
theorem build_eq_of_sameOrder (h : Overlay.SameOrder overlays overlays') :
    (∀ d, build name routable overlays = .ok d ↔ build name routable overlays' = .ok d) ∧
    (∀ process,
      (∃ s, Overlay.Runs overlays (.blank name routable) s) ∧
          build name routable overlays = .error (.missingPorts process) ↔
        (∃ s, Overlay.Runs overlays' (.blank name routable) s) ∧
          build name routable overlays' = .error (.missingPorts process)) ∧
    ((∀ source ∈ Overlay.sources overlays, source.NeverReportsMissing) →
      ∀ process, build name routable overlays = .error (.missingPorts process) ↔
        build name routable overlays' = .error (.missingPorts process)) ∧
    ((∃ fault, Overlay.FailsWith overlays (.blank name routable) fault) ↔
      ∃ fault, Overlay.FailsWith overlays' (.blank name routable) fault) := by
  refine ⟨fun d => ?_, fun process => ?_, fun hsources process => ?_, ?_⟩
  · simp only [build_eq_ok_iff, h.runs_iff]
  · rw [← Overlay.exists_runs_iff_of_perm h.perm]
    refine and_congr_right fun ⟨s, hrun⟩ => ?_
    rw [build_eq_of_sameOrder_of_runs h hrun]
  · have hnever {list : List Overlay} (hlist : overlays.Perm list) :
        ¬ Overlay.FailsWith list (.blank name routable) (.missingPorts process) := by
      refine fun hfails => hfails.ne_missingPorts (fun source hsource => ?_) process rfl
      exact hsources source ((hlist.filterMap Overlay.source?).mem_iff.mpr hsource)
    simp only [build_eq_error_iff, h.runs_iff, hnever (.refl _), hnever h.perm, false_or]
  · simp only [Overlay.exists_failsWith_iff, h.runs_iff]

end Build

/-- Of two faults, the order decides which one is reported. -/
example :
    build "web" false [.units (some 0), .metadata .labels [⟨.pod, none, none, ∅⟩] 1]
        = .error (.badConfig (.noUnits "web")) ∧
      build "web" false [.metadata .labels [⟨.pod, none, none, ∅⟩] 1, .units (some 0)]
        = .error (.badItem .noEntries) :=
  ⟨rfl, rfl⟩

/-- That holds of missing ports too, where they are what a source reports of itself. -/
example :
    build "web" true [.portsAndProbes .denying, .units (some 0)]
        = .error (.missingPorts "web") ∧
      build "web" true [.units (some 0), .portsAndProbes .denying]
        = .error (.badConfig (.noUnits "web")) :=
  ⟨rfl, rfl⟩

/-- Overlays one kind after the other, two of each of two kinds. -/
def Overlay.grouped (services : List ServicePort) : List Overlay :=
  [.command ["serve"], .command ["serve", "--all"],
    .metadata .labels [⟨.pod, none, none, .ofList [("tier", "front")]⟩] 1,
    .metadata .labels [⟨.pod, none, none, .ofList [("tier", "back")]⟩] 1,
    .portsAndProbes (.constant [⟨none, 8080, .tcp⟩] services .none)]

/-- The same overlays, with the kinds mixed. -/
def Overlay.mixed (services : List ServicePort) : List Overlay :=
  [.command ["serve"],
    .metadata .labels [⟨.pod, none, none, .ofList [("tier", "front")]⟩] 1,
    .command ["serve", "--all"],
    .portsAndProbes (.constant [⟨none, 8080, .tcp⟩] services .none),
    .metadata .labels [⟨.pod, none, none, .ofList [("tier", "back")]⟩] 1]

theorem Overlay.sameOrder_mixed (services : List ServicePort) :
    SameOrder (grouped services) (mixed services) :=
  .cons _ (.trans (.swap (by simp [kind]) _) (.cons _ (.cons _ (.swap (by simp [kind]) _))))

/-- With a service port, both ways of listing them build one descriptor, with the last command and
the last label; without one, both report missing ports. -/
theorem build_mixed :
    (∃ d, build "web" true (Overlay.grouped [⟨none, 80, none, .tcp⟩]) = .ok d ∧
      build "web" true (Overlay.mixed [⟨none, 80, none, .tcp⟩]) = .ok d ∧
      d.command = ["serve", "--all"] ∧ d.podMetadata.labels.find? "tier" = some "back") ∧
    build "web" true (Overlay.grouped []) = .error (.missingPorts "web") ∧
    build "web" true (Overlay.mixed []) = .error (.missingPorts "web") := by
  have hsources : ∀ source ∈ Overlay.sources (Overlay.grouped []), source.NeverReportsMissing := by
    intro source hsource process hprobes
    obtain rfl := List.mem_singleton.mp hsource
    cases hprobes
  obtain ⟨-, -, hmissing, -⟩ := build_eq_of_sameOrder (Overlay.sameOrder_mixed [])
  refine ⟨?_, rfl, (hmissing hsources "web").mp rfl⟩
  obtain ⟨d, hbuild⟩ : ∃ d, build "web" true (Overlay.grouped [⟨none, 80, none, .tcp⟩]) = .ok d :=
    ⟨_, rfl⟩
  obtain ⟨hok, -⟩ := build_eq_of_sameOrder (Overlay.sameOrder_mixed [⟨none, 80, none, .tcp⟩])
  refine ⟨d, hbuild, (hok d).mp hbuild, ?_⟩
  obtain rfl := Except.ok.inj hbuild
  decide

end ProcessPlan
