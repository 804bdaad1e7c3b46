import ProcessPlan.Proofs.Metadata.Grammar
import ProcessPlan.Workload.Probe

/-!
# Well-formed probes and valid items

What it takes for a probe and for an item of metadata to be accepted, said as conjunctions of plain
conditions on their fields. The checkers `Probe.fault?`, `Probes.fault?` and `MetadataItem.fault?`
stop at the first condition that fails; here they are shown to find nothing exactly where all of
them hold.

## Main definitions

* `Probe.WellFormed`, `Probes.WellFormed`: probes that can be carried out
* `MetadataItem.Valid`: items whose entries keep the grammar

## Main results

* `Probes.fault?_eq_none_iff`, `MetadataItem.fault?_eq_none_iff`
-/

namespace ProcessPlan

/-! ### Probes -/

/-- An action that can be carried out at all. -/
def ProbeAction.WellFormed : ProbeAction → Prop
  | httpGet path port _ => port ≠ 0 ∧ path.toList.head? = some '/'
  | tcpSocket port => port ≠ 0
  | exec command => command ≠ []

/-- A setting that is unset or at least 1. -/
def Probe.PositiveIfSet (setting : Option UInt32) : Prop := ∀ value ∈ setting, 1 ≤ value

/-- A probe whose action can be carried out and whose period, timeout and thresholds are not zero.
The initial delay may be. -/
structure Probe.WellFormed (p : Probe) : Prop where
  action : p.action.WellFormed
  period : PositiveIfSet p.period
  timeout : PositiveIfSet p.timeout
  successThreshold : PositiveIfSet p.successThreshold
  failureThreshold : PositiveIfSet p.failureThreshold

/-- All probes that are set are well formed. -/
structure Probes.WellFormed (ps : Probes) : Prop where
  readiness : ∀ p ∈ ps.readiness, p.WellFormed
  liveness : ∀ p ∈ ps.liveness, p.WellFormed
  startup : ∀ p ∈ ps.startup, p.WellFormed

theorem ProbeAction.fault?_eq_none_iff {action : ProbeAction} :
    action.fault? = none ↔ action.WellFormed := by
  cases action with
  | httpGet path port scheme =>
    by_cases hport : port = 0 <;> by_cases hpath : path.toList.head? = some '/' <;>
      simp [ProbeAction.fault?, ProbeAction.WellFormed, hport, hpath]
  | tcpSocket port => simp [ProbeAction.fault?, ProbeAction.WellFormed]
  | exec command => simp [ProbeAction.fault?, ProbeAction.WellFormed]

theorem Probe.positiveIfSet_iff {setting : Option UInt32} :
    PositiveIfSet setting ↔ setting ≠ some 0 := by
  cases setting with
  | none => simp [PositiveIfSet]
  | some value =>
    rw [PositiveIfSet, Ne, Option.some.injEq, ← UInt32.toNat_inj]
    simp only [Option.mem_some, forall_eq', UInt32.le_iff_toNat_le]
    show 1 ≤ value.toNat ↔ ¬ value.toNat = 0
    omega

theorem Probe.fault?_eq_none_iff {p : Probe} : p.fault? = none ↔ p.WellFormed := by
  have hsettings : p.positiveSettings.find? (·.2 = some 0) = none ↔
      p.period ≠ some 0 ∧ p.timeout ≠ some 0 ∧ p.successThreshold ≠ some 0 ∧
        p.failureThreshold ≠ some 0 := by
    simp [List.find?_eq_none, Probe.positiveSettings]
  rw [Probe.fault?, Option.or_eq_none_iff, Option.map_eq_none_iff, hsettings,
    ProbeAction.fault?_eq_none_iff]
  simp only [← Probe.positiveIfSet_iff]
  exact ⟨fun ⟨ha, hp, ht, hs, hf⟩ => ⟨ha, hp, ht, hs, hf⟩,
    fun h => ⟨h.action, h.period, h.timeout, h.successThreshold, h.failureThreshold⟩⟩

/-- A set of probes has no fault exactly if all that are set are well formed. -/
theorem Probes.fault?_eq_none_iff {ps : Probes} : ps.fault? = .none ↔ ps.WellFormed := by
  have hnamed : ps.fault? = .none ↔ (∀ p ∈ ps.readiness, p.fault? = .none) ∧
      (∀ p ∈ ps.liveness, p.fault? = .none) ∧ ∀ p ∈ ps.startup, p.fault? = .none := by
    obtain ⟨readiness, liveness, startup⟩ := ps
    cases readiness <;> cases liveness <;> cases startup <;>
      simp [Probes.fault?, Probes.named, List.findSome?_eq_none_iff]
  rw [hnamed]
  simp only [Probe.fault?_eq_none_iff]
  exact ⟨fun ⟨hr, hl, hs⟩ => ⟨hr, hl, hs⟩, fun h => ⟨h.readiness, h.liveness, h.startup⟩⟩

/-! ### Items of metadata -/

/-- An item with entries whose keys keep the grammar, and whose values do if it holds labels. -/
structure MetadataItem.Valid (item : MetadataItem) (kind : MetadataKind) : Prop where
  entries : item.entries.entries ≠ []
  keys : ∀ entry ∈ item.entries.entries, Metadata.IsKey entry.1
  values : kind = .labels → ∀ entry ∈ item.entries.entries, Metadata.IsLabelValue entry.2

theorem Metadata.entryFault?_eq_none_iff {kind : MetadataKind} {entry : String × String} :
    entryFault? kind entry = none ↔
      IsKey entry.1 ∧ (kind = .labels → IsLabelValue entry.2) := by
  rw [entryFault?, Option.or_eq_none_iff, keyFault?_eq_none_iff, ← checkLabelValue_iff]
  refine and_congr_right fun _ => ?_
  simp

/-- An item has no fault exactly if it is valid. -/
theorem MetadataItem.fault?_eq_none_iff {item : MetadataItem} {kind : MetadataKind} :
    item.fault? kind = none ↔ item.Valid kind := by
  rw [MetadataItem.fault?]
  by_cases hempty : item.entries.entries = []
  · rw [if_pos (by simp [Table.isEmpty, hempty])]
    exact ⟨fun h => absurd h (by simp), fun h => absurd hempty h.entries⟩
  · rw [if_neg (by simp [Table.isEmpty, hempty]), List.findSome?_eq_none_iff]
    simp only [Metadata.entryFault?_eq_none_iff]
    constructor
    · intro h
      exact ⟨hempty, fun entry hmem => (h entry hmem).1, fun hk entry hmem => (h entry hmem).2 hk⟩
    · intro h entry hmem
      exact ⟨h.keys entry hmem, fun hk => h.values hk entry hmem⟩

end ProcessPlan
