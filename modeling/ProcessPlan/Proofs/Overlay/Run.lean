import ProcessPlan.Overlay

/-!
# Runs of overlays

A list of overlays either succeeds as a whole, which is a run from one descriptor to another, or
ends with the fault of the first overlay that fails. Both are said here as relations that do not
mention `Overlay.applyAll`, and `Overlay.applyAll` and `build` are shown to decide them. Later
modules reason about runs by induction on `Overlay.Runs` and never open `applyAll` again.

## Main definitions

* `Overlay.Runs`: all overlays succeed and lead from one descriptor to another
* `Overlay.FailsWith`: the overlays before one succeed, and that one fails

## Main results

* `Overlay.applyAll_preserves`: what every overlay preserves, a list of them preserves
* `build_eq_ok_iff`, `build_eq_error_iff`: the two outcomes of a build in terms of runs
-/

namespace ProcessPlan

namespace Overlay

variable {overlay : Overlay} {overlays rest : List Overlay} {d d' s : Descriptor} {fault : Fault}

/-- Every overlay of a list succeeds, one after the other. -/
inductive Runs : List Overlay → Descriptor → Descriptor → Prop where
  /-- No overlay changes nothing. -/
  | done (d : Descriptor) : Runs [] d d
  /-- The first overlay succeeds, and the others run from where it leads. -/
  | step {overlay : Overlay} {rest : List Overlay} {d d' s : Descriptor}
      (first : overlay.apply d = ⟨d', none⟩) (others : Runs rest d' s) : Runs (overlay :: rest) d s

/-- Some overlay fails with a fault after all overlays before it have succeeded. -/
def FailsWith (overlays : List Overlay) (d : Descriptor) (fault : Fault) : Prop :=
  ∃ before overlay after s, overlays = before ++ overlay :: after ∧ Runs before d s ∧
    (overlay.apply s).fault = some fault

/-! ### One overlay -/

/-- The number of instances is the only thing that an overlay of units writes. -/
theorem state_apply_units (count : Option UInt32) (d : Descriptor) :
    ((units count).apply d).state
      = { d with instanceCount := (count.filter (· ≠ 0)).getD d.instanceCount } := by
  rcases count with _ | count
  · rfl
  · by_cases hcount : count = 0 <;> simp [apply, Option.filter, hcount]

/-! ### One overlay at the front -/

theorem applyAll_cons_of_none (h : overlay.apply d = ⟨d', none⟩) :
    applyAll (overlay :: rest) d = applyAll rest d' := by
  rw [applyAll, h]

theorem applyAll_cons_of_some (h : (overlay.apply d).fault = some fault) :
    applyAll (overlay :: rest) d = overlay.apply d := by
  rw [applyAll]
  split
  · next h' => rw [h'] at h; exact absurd h (by simp)
  · rfl

theorem failsWith_cons_iff : FailsWith (overlay :: rest) d fault ↔
    (overlay.apply d).fault = some fault ∨
      ∃ d', overlay.apply d = ⟨d', none⟩ ∧ FailsWith rest d' fault := by
  constructor
  · rintro ⟨before, failing, after, s, hsplit, hrun, hfault⟩
    cases hrun with
    | done =>
      obtain ⟨rfl, rfl⟩ := List.cons.inj hsplit
      exact Or.inl hfault
    | step hfirst hothers =>
      obtain ⟨rfl, rfl⟩ := List.cons.inj hsplit
      exact Or.inr ⟨_, hfirst, _, failing, after, s, rfl, hothers, hfault⟩
  · rintro (hfault | ⟨d', hfirst, before, failing, after, s, rfl, hrun, hfault⟩)
    · exact ⟨[], overlay, rest, d, rfl, .done d, hfault⟩
    · exact ⟨overlay :: before, failing, after, s, rfl, .step hfirst hrun, hfault⟩

/-! ### What `applyAll` decides -/

/-- A list of overlays ends without a fault exactly where its run leads. -/
theorem applyAll_eq_none_iff : ∀ {overlays : List Overlay} {d : Descriptor},
    applyAll overlays d = ⟨s, none⟩ ↔ Runs overlays d s
  | [], d => by
    constructor
    · intro h
      obtain rfl : d = s := congrArg Applied.state h
      exact .done d
    · rintro ⟨⟩
      rfl
  | overlay :: rest, d => by
    constructor
    · intro h
      rw [applyAll] at h
      split at h
      · next d' hfirst => exact .step hfirst (applyAll_eq_none_iff.mp h)
      · next hfailed => exact absurd h (hfailed s)
    · rintro (_ | ⟨hfirst, hothers⟩)
      rw [applyAll_cons_of_none hfirst]
      exact applyAll_eq_none_iff.mpr hothers

/-- A list of overlays ends with a fault exactly if that is the fault of the first that fails. -/
theorem applyAll_fault_eq_some_iff : ∀ {overlays : List Overlay} {d : Descriptor},
    (applyAll overlays d).fault = some fault ↔ FailsWith overlays d fault
  | [], d => by
    constructor
    · intro h
      exact absurd h (by simp [applyAll])
    · rintro ⟨before, overlay, after, s, hsplit, -, -⟩
      exact absurd hsplit (by simp)
  | overlay :: rest, d => by
    rw [failsWith_cons_iff]
    rcases hfirst : overlay.apply d with ⟨d', _ | first⟩
    · rw [applyAll_cons_of_none hfirst, applyAll_fault_eq_some_iff]
      simp
    · have hfault : (overlay.apply d).fault = some first := by rw [hfirst]
      rw [applyAll_cons_of_some hfault, hfirst]
      simp

/-- What every overlay of a list preserves, its fault or not, the list preserves. -/
theorem applyAll_preserves {P : Descriptor → Prop} :
    ∀ {overlays : List Overlay} {d : Descriptor},
      (∀ overlay ∈ overlays, ∀ d, P d → P (overlay.apply d).state) → P d →
        P (applyAll overlays d).state
  | [], _, _, hd => hd
  | overlay :: rest, d, hstep, hd => by
    have hfirst : P (overlay.apply d).state := hstep overlay List.mem_cons_self d hd
    rw [applyAll]
    split
    · next d' h =>
      rw [h] at hfirst
      exact applyAll_preserves (fun o ho => hstep o (List.mem_cons_of_mem _ ho)) hfirst
    · exact hfirst

/-! ### Runs -/

/-- A run leads to where all that every overlay preserves still holds. -/
theorem Runs.preserves {P : Descriptor → Prop} (h : Runs overlays d s)
    (hstep : ∀ overlay ∈ overlays, ∀ d, P d → P (overlay.apply d).state) (hd : P d) : P s := by
  have hs := applyAll_preserves hstep hd
  rwa [applyAll_eq_none_iff.mpr h] at hs

/-- A run leads to one descriptor only. -/
theorem Runs.unique (h : Runs overlays d s) {s' : Descriptor}
    (h' : Runs overlays d s') : s = s' := by
  have hs : Applied.mk s none = ⟨s', none⟩ :=
    (applyAll_eq_none_iff.mpr h).symm.trans (applyAll_eq_none_iff.mpr h')
  exact congrArg Applied.state hs

theorem runs_or_failsWith (overlays : List Overlay) (d : Descriptor) :
    (∃ s, Runs overlays d s) ∨ ∃ fault, FailsWith overlays d fault := by
  rcases h : applyAll overlays d with ⟨s, _ | fault⟩
  · exact Or.inl ⟨s, applyAll_eq_none_iff.mp h⟩
  · exact Or.inr ⟨fault, applyAll_fault_eq_some_iff.mp (by rw [h])⟩

theorem Runs.not_failsWith (h : Runs overlays d s) : ¬ FailsWith overlays d fault := by
  intro hfails
  have hfault := applyAll_fault_eq_some_iff.mpr hfails
  rw [applyAll_eq_none_iff.mpr h] at hfault
  exact absurd hfault (by simp)

/-- A list of overlays fails exactly if it does not run to an end. -/
theorem exists_failsWith_iff :
    (∃ fault, FailsWith overlays d fault) ↔ ¬ ∃ s, Runs overlays d s := by
  constructor
  · rintro ⟨fault, hfails⟩ ⟨s, hrun⟩
    exact hrun.not_failsWith hfails
  · exact (runs_or_failsWith overlays d).resolve_left

end Overlay

/-! ### Builds -/

section Build

variable {name : String} {routable : Bool} {overlays : List Overlay} {s d : Descriptor}
  {fault : Fault}

theorem build_of_runs (h : Overlay.Runs overlays (.blank name routable) s) :
    build name routable overlays =
      if s.routable && !s.hasOpenPort then .error (.missingPorts s.name)
      else .ok s.withPortVariables := by
  rw [build, Overlay.applyAll_eq_none_iff.mpr h]
  rfl

theorem build_of_failsWith (h : Overlay.FailsWith overlays (.blank name routable) fault) :
    build name routable overlays = .error fault := by
  have hfault := Overlay.applyAll_fault_eq_some_iff.mpr h
  rw [build]
  split
  · next first happlied =>
    rw [happlied] at hfault
    rw [Option.some.inj hfault]
  · next happlied =>
    rw [happlied] at hfault
    exact absurd hfault (by simp)

/-- A build succeeds exactly if all overlays do and a process that takes traffic got open ports. -/
theorem build_eq_ok_iff : build name routable overlays = .ok d ↔
    ∃ s, Overlay.Runs overlays (.blank name routable) s ∧
      (s.routable = true → s.hasOpenPort = true) ∧ d = s.withPortVariables := by
  rcases Overlay.runs_or_failsWith overlays (.blank name routable) with ⟨s, hrun⟩ | ⟨fault, hfails⟩
  · rw [build_of_runs hrun]
    constructor
    · intro h
      split at h
      · exact absurd h (by simp)
      · next hports =>
        refine ⟨s, hrun, fun hroutable => ?_, (Except.ok.inj h).symm⟩
        simpa [hroutable] using hports
    · rintro ⟨s', hrun', hports, rfl⟩
      obtain rfl : s = s' := hrun.unique hrun'
      rw [if_neg (by simpa using hports)]
  · constructor
    · intro h
      rw [build_of_failsWith hfails] at h
      exact absurd h (by simp)
    · rintro ⟨s, hrun, -, -⟩
      exact absurd hfails hrun.not_failsWith

/-- A build fails exactly with the fault of the first overlay that fails, or else with that of a
process that takes traffic and has no open port. -/
theorem build_eq_error_iff : build name routable overlays = .error fault ↔
    Overlay.FailsWith overlays (.blank name routable) fault ∨
      ∃ s, Overlay.Runs overlays (.blank name routable) s ∧ s.routable = true ∧
        s.hasOpenPort = false ∧ fault = .missingPorts s.name := by
  constructor
  · intro h
    rcases Overlay.runs_or_failsWith overlays (.blank name routable) with
      ⟨s, hrun⟩ | ⟨first, hfails⟩
    · rw [build_of_runs hrun] at h
      split at h
      · next hports =>
        have hports : s.routable = true ∧ s.hasOpenPort = false := by simpa using hports
        exact Or.inr ⟨s, hrun, hports.1, hports.2, (Except.error.inj h).symm⟩
      · exact absurd h (by simp)
    · rw [build_of_failsWith hfails] at h
      exact Or.inl (Except.error.inj h ▸ hfails)
  · rintro (hfails | ⟨s, hrun, hroutable, hports, rfl⟩)
    · exact build_of_failsWith hfails
    · rw [build_of_runs hrun, if_pos (by simp [hroutable, hports])]

end Build

end ProcessPlan
