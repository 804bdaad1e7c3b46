import ProcessPlan.Overlay
import ProcessPlan.Proofs.Data.Json
import ProcessPlan.Proofs.Data.Yaml.Document
import ProcessPlan.Rendering

/-!
# What the renderings of a descriptor say

The data of a descriptor is the same in both formats as long as no hook is set. JSON has no tags and
writes the action of a hook as an object with one field; YAML writes it under a tag. So the two
renderings of a descriptor with a hook are not those of any one tree of records, lists, texts,
integers and truth values.

## Main definitions

* `Format.Denotes`: a text is the document of a tree without tags

## Main results

* `Json.denotes_render_iff`: the JSON rendering denotes the plain tree of the descriptor alone
* `Yaml.denotes_render_iff`: the YAML rendering of a descriptor without hooks denotes its data alone,
  and that of one with a hook denotes no tree
* `Descriptor.renderings_agree_iff`: when the two renderings denote one tree
-/

namespace ProcessPlan

open Data

/-- A text is the document of a tree without tags. -/
def Format.Denotes (format : Format) (text : String) (tree : Data) : Prop :=
  tree.Untagged ∧ format.write tree = text

/-! ### The tags in the data of a descriptor -/

theorem HookAction.writable_toData (action : HookAction) : Yaml.Writable action.toData := by
  cases action <;>
    exact .variant (by simp [Yaml.isBlankOrBreak, Yaml.isBreak])
      (Yaml.writable_of_untagged (by simp))

theorem Lifecycle.writable_toData (l : Lifecycle) : Yaml.Writable l.toData := by
  refine .record fun field hfield => ?_
  have hoptional (key : String) (action : Option HookAction) :
      ∀ field ∈ optional key HookAction.toData action, Yaml.Writable field.2 := by
    cases action <;> simp [HookAction.writable_toData]
  rcases List.mem_append.1 hfield with h | h
  · exact hoptional _ _ field h
  · exact hoptional _ _ field h

theorem Descriptor.writable_toData (d : Descriptor) : Yaml.Writable d.toData := by
  rw [d.toData_eq]
  refine .record fun field hfield => ?_
  rcases List.mem_append.1 hfield with h | h
  · rcases List.mem_append.1 h with h | h
    · exact Yaml.writable_of_untagged (d.untaggedFields_beforeHooks field h)
    · cases hl : d.lifecycle with
      | none => simp [hl] at h
      | some l =>
        obtain rfl : field = ("lifecycleHooks", l.toData) := by simpa [hl] using h
        exact l.writable_toData
  · exact Yaml.writable_of_untagged (d.untaggedFields_afterHooks field h)

/-! ### What a rendering denotes -/

/-- The JSON rendering of a descriptor denotes its plain tree and no other. -/
theorem Json.denotes_render_iff {d : Descriptor} {tree : Data} :
    Format.json.Denotes (d.render .json) tree ↔ tree = d.toData.plain := by
  have hplain : document d.toData.plain = d.render .json := by
    show value 0 d.toData.plain ++ "\n" = value 0 d.toData ++ "\n"
    rw [value_plain]
  constructor
  · rintro ⟨htree, heq⟩
    exact document_inj htree d.untagged_plain (heq.trans hplain.symm)
  · rintro rfl
    exact ⟨d.untagged_plain, hplain⟩

/-- The YAML rendering of a descriptor without hooks denotes its data and no other tree; that of one
with a hook denotes none. -/
theorem Yaml.denotes_render_iff {d : Descriptor} {tree : Data} :
    Format.yaml.Denotes (d.render .yaml) tree ↔ ¬ d.HasHook ∧ tree = d.toData := by
  constructor
  · rintro ⟨htree, heq⟩
    obtain rfl := document_inj (writable_of_untagged htree) d.writable_toData heq
    exact ⟨Descriptor.untagged_toData_iff.1 htree, rfl⟩
  · rintro ⟨hhook, rfl⟩
    exact ⟨Descriptor.untagged_toData_iff.2 hhook, rfl⟩

namespace Descriptor

/-- The JSON rendering denotes the plain tree of the descriptor and no other. The YAML rendering
denotes the data of the descriptor and no other tree, or none at all if some hook is set. So the two
denote one tree exactly if no hook is set. -/
theorem renderings_agree_iff (d : Descriptor) :
    (∀ tree, Format.json.Denotes (d.render .json) tree ↔ tree = d.toData.plain) ∧
    (∀ tree, Format.yaml.Denotes (d.render .yaml) tree ↔ ¬ d.HasHook ∧ tree = d.toData) ∧
    ((∃ tree, Format.json.Denotes (d.render .json) tree ∧
      Format.yaml.Denotes (d.render .yaml) tree) ↔ ¬ d.HasHook) := by
  refine ⟨fun tree => Json.denotes_render_iff, fun tree => Yaml.denotes_render_iff, ?_⟩
  constructor
  · rintro ⟨tree, -, hyaml⟩
    exact (Yaml.denotes_render_iff.1 hyaml).1
  · intro hhook
    have hplain : d.toData.plain = d.toData := (untagged_toData_iff.2 hhook).plain_eq
    exact ⟨d.toData, Json.denotes_render_iff.2 hplain.symm,
      Yaml.denotes_render_iff.2 ⟨hhook, rfl⟩⟩

/-- A process that waits before it stops. -/
def lingering : Descriptor :=
  { blank "web" false with lifecycle := some ⟨none, some (.exec ["sh", "-c", "sleep 5"])⟩ }

/-- The two renderings of a process that waits before it stops do not denote one tree. -/
theorem lingering_renderings_disagree :
    build "web" false [.lifecycle lingering.lifecycle] = .ok lingering ∧
      ¬ ∃ tree, Format.json.Denotes (lingering.render .json) tree ∧
        Format.yaml.Denotes (lingering.render .yaml) tree := by
  refine ⟨by decide +kernel, ?_⟩
  rintro ⟨tree, htree⟩
  exact (Yaml.denotes_render_iff.1 htree.2).1 ⟨_, rfl, Or.inr rfl⟩

end Descriptor

end ProcessPlan
