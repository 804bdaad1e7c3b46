import Mathlib.Data.Option.Basic
import Mathlib.Data.List.Basic

/-!
# The last one counts

Where several entries of a list are about the same thing, the last one counts. It is found by
searching from the end, and here it is the last member of what the search is for, so that a list can
be filtered and mapped before its end is looked at. What is then made of it, if there is one, is
related to it.

## Main results

* `findRev?_eq_getLast?_filter`, `findSome?_reverse_eq_getLast?_filterMap`: a search from the end
* `rel_of_map_eq`, `rel_unique`: what is made of a member that may be missing
* `bind_eq_of_rel`, `bind_getElem?_of_map_eq`: what is then shown of it
-/

namespace ProcessPlan

variable {α β γ : Type}

/-! ### Searching from the end -/

theorem findRev?_eq_getLast?_filter (p : α → Bool) (l : List α) :
    l.findRev? p = (l.filter p).getLast? := by
  rw [List.findRev?_eq_find?_reverse, ← List.head?_filter, List.filter_reverse, List.head?_reverse]

theorem findSome?_reverse_eq_getLast?_filterMap (select : α → Option β) (l : List α) :
    l.reverse.findSome? select = (l.filterMap select).getLast? := by
  rw [← List.head?_filterMap, List.filterMap_reverse, List.head?_reverse]

/-! ### What is made of it -/

variable {R : α → β → Prop}

theorem rel_map {make : α → β} (h : ∀ a, R a (make a)) (o : Option α) :
    Option.Rel R o (o.map make) := by
  cases o with
  | none => exact .none
  | some a => exact .some (h a)

theorem rel_map_right {S : α → γ → Prop} {make : β → γ} {source : Option α} {o : Option β}
    (h : Option.Rel R source o) (hmake : ∀ a b, R a b → S a (make b)) :
    Option.Rel S source (o.map make) := by
  cases h with
  | none => exact .none
  | some hb => exact .some (hmake _ _ hb)

/-- What shows the same is related, if showing the same is enough for that. -/
theorem rel_of_map_eq {view : α → γ} {shown : β → γ} {source : Option α} {o : Option β}
    (h : o.map shown = source.map view) (hrel : ∀ a b, shown b = view a → R a b) :
    Option.Rel R source o := by
  cases source with
  | none =>
    rw [Option.map_none, Option.map_eq_none_iff] at h
    rw [h]
    exact .none
  | some a =>
    obtain ⟨b, rfl, hb⟩ := Option.map_eq_some_iff.1 h
    exact .some (hrel a b hb)

/-- At most one thing is made of a member, if each member is related to one thing alone. -/
theorem rel_unique {source : Option α} {o o' : Option β}
    (hunique : ∀ a b b', R a b → R a b' → b = b') (h : Option.Rel R source o)
    (h' : Option.Rel R source o') : o = o' := by
  cases h with
  | none =>
    cases h'
    rfl
  | some hb =>
    cases h' with
    | some hb' => rw [hunique _ _ _ hb hb']

/-- What is shown of a member that may be missing is what its source shows. -/
theorem bind_eq_of_rel {view : α → Option γ} {shown : β → Option γ} {source : Option α}
    {o : Option β} (h : Option.Rel R source o) (hshown : ∀ a b, R a b → shown b = view a) :
    o.bind shown = source.bind view := by
  cases h with
  | none => rfl
  | some hb => exact hshown _ _ hb

/-- Where two lists show the same, so do their members at one place. -/
theorem bind_getElem?_of_map_eq {view : α → Option γ} {shown : β → Option γ} {as : List α}
    {bs : List β} (h : bs.map shown = as.map view) (i : Nat) :
    bs[i]?.bind shown = as[i]?.bind view := by
  refine bind_eq_of_rel (R := fun a b => shown b = view a) (rel_of_map_eq ?_ fun _ _ => id)
    fun _ _ => id
  rw [← List.getElem?_map, ← List.getElem?_map, h]

end ProcessPlan
