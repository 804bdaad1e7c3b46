/-!
# When a computation succeeds

Reading a configuration, following a path and loading a file are put together from steps of which
each can fail, one after the other or one for each member of a list. The whole succeeds exactly if
all of its steps do, so the result of a whole says what came out of every step.

## Main results

* `bind_eq_ok_iff`, `map_eq_ok_iff`: steps one after the other
* `mapM_cons_eq_ok_iff`, `mapM_append_eq_ok_iff`: a step for each member of a list
* `exists_mapM_eq_ok_iff`: such steps succeed exactly if each of them does
* `exists_of_mem_mapM`, `exists_mem_of_mapM`, `map_eq_of_mapM`, `getLast?_filterMap_of_mapM`: where
  the results of such steps come from
* `mapError_bind`, `mapError_map`, `mapError_mapM`: a whole whose faults are put in other words
-/

namespace ProcessPlan

variable {ε ε' α β γ δ : Type}

/-! ### Success -/

theorem bind_eq_ok_iff {x : Except ε α} {next : α → Except ε β} {b : β} :
    (x >>= next) = .ok b ↔ ∃ a, x = .ok a ∧ next a = .ok b := by
  cases x with
  | error fault => simp [bind, Except.bind]
  | ok a => simp [bind, Except.bind]

theorem map_eq_ok_iff {x : Except ε α} {make : α → β} {b : β} :
    x.map make = .ok b ↔ ∃ a, x = .ok a ∧ make a = b := by
  cases x with
  | error fault => simp [Except.map]
  | ok a => simp [Except.map]

theorem mapM_cons_eq_ok_iff {step : α → Except ε β} {a : α} {rest : List α} {bs : List β} :
    (a :: rest).mapM step = .ok bs ↔
      ∃ b bs', step a = .ok b ∧ rest.mapM step = .ok bs' ∧ bs = b :: bs' := by
  simp only [List.mapM_cons, bind_eq_ok_iff, pure, Except.pure, Except.ok.injEq]
  constructor
  · rintro ⟨b, hb, bs', hbs', rfl⟩
    exact ⟨b, bs', hb, hbs', rfl⟩
  · rintro ⟨b, bs', hb, hbs', rfl⟩
    exact ⟨b, hb, bs', hbs', rfl⟩

theorem mapM_append_eq_ok_iff {step : α → Except ε β} {before after : List α} {bs : List β} :
    (before ++ after).mapM step = .ok bs ↔
      ∃ first last, before.mapM step = .ok first ∧ after.mapM step = .ok last ∧
        bs = first ++ last := by
  simp only [List.mapM_append, bind_eq_ok_iff, pure, Except.pure, Except.ok.injEq]
  constructor
  · rintro ⟨first, hfirst, last, hlast, rfl⟩
    exact ⟨first, last, hfirst, hlast, rfl⟩
  · rintro ⟨first, last, hfirst, hlast, rfl⟩
    exact ⟨first, hfirst, last, hlast, rfl⟩

/-- A step for each member succeeds exactly if it does for each of them. -/
theorem exists_mapM_eq_ok_iff {step : α → Except ε β} {as : List α} :
    (∃ bs, as.mapM step = .ok bs) ↔ ∀ a ∈ as, ∃ b, step a = .ok b := by
  induction as with
  | nil => exact iff_of_true ⟨[], rfl⟩ nofun
  | cons first rest ih =>
    rw [List.forall_mem_cons, ← ih]
    constructor
    · rintro ⟨bs, h⟩
      obtain ⟨b, bs', hfirst, hrest, rfl⟩ := mapM_cons_eq_ok_iff.1 h
      exact ⟨⟨b, hfirst⟩, bs', hrest⟩
    · rintro ⟨⟨b, hfirst⟩, bs, hrest⟩
      exact ⟨b :: bs, mapM_cons_eq_ok_iff.2 ⟨b, bs, hfirst, hrest, rfl⟩⟩

/-- Each result is that of a member. -/
theorem exists_of_mem_mapM {step : α → Except ε β} {as : List α} {bs : List β} {b : β}
    (h : as.mapM step = .ok bs) (hb : b ∈ bs) : ∃ a ∈ as, step a = .ok b := by
  induction as generalizing bs with
  | nil =>
    cases h
    cases hb
  | cons first rest ih =>
    obtain ⟨b', bs', hfirst, hrest, rfl⟩ := mapM_cons_eq_ok_iff.1 h
    rcases List.mem_cons.1 hb with rfl | hmem
    · exact ⟨first, List.mem_cons_self, hfirst⟩
    · obtain ⟨a, ha, hstep⟩ := ih hrest hmem
      exact ⟨a, List.mem_cons_of_mem _ ha, hstep⟩

/-- Each member has its result. -/
theorem exists_mem_of_mapM {step : α → Except ε β} {as : List α} {bs : List β} {a : α}
    (h : as.mapM step = .ok bs) (ha : a ∈ as) : ∃ b ∈ bs, step a = .ok b := by
  obtain ⟨before, after, rfl⟩ := List.append_of_mem ha
  obtain ⟨first, rest, -, hrest, rfl⟩ := mapM_append_eq_ok_iff.1 h
  obtain ⟨b, last, hstep, -, rfl⟩ := mapM_cons_eq_ok_iff.1 hrest
  exact ⟨b, List.mem_append_right _ List.mem_cons_self, hstep⟩

/-- What the results show is what the members show, if each result shows what its member does. -/
theorem map_eq_of_mapM {step : α → Except ε β} {shown : β → γ} {view : α → γ} {as : List α}
    {bs : List β} (h : as.mapM step = .ok bs)
    (hview : ∀ a b, step a = .ok b → shown b = view a) : bs.map shown = as.map view := by
  induction as generalizing bs with
  | nil =>
    cases h
    rfl
  | cons first rest ih =>
    obtain ⟨b, bs', hfirst, hrest, rfl⟩ := mapM_cons_eq_ok_iff.1 h
    rw [List.map_cons, List.map_cons, hview first b hfirst, ih hrest]

/-- The results that a filter keeps are those of the members that it keeps, if it can tell one from
the other. -/
theorem mapM_filter_of_mapM {step : α → Except ε β} {p : α → Bool} {q : β → Bool} {as : List α}
    {bs : List β} (h : as.mapM step = .ok bs) (hpq : ∀ a b, step a = .ok b → q b = p a) :
    (as.filter p).mapM step = .ok (bs.filter q) := by
  induction as generalizing bs with
  | nil =>
    cases h
    rfl
  | cons first rest ih =>
    obtain ⟨b, bs', hfirst, hrest, rfl⟩ := mapM_cons_eq_ok_iff.1 h
    rw [List.filter_cons, List.filter_cons, hpq first b hfirst]
    split
    · exact mapM_cons_eq_ok_iff.2 ⟨b, _, hfirst, ih hrest, rfl⟩
    · exact ih hrest

/-- The same of steps that may have no result, as far as they have one. -/
theorem filterMap_eq_of_mapM {step : α → Except ε (Option β)} {select : β → Option γ}
    {view : α → Option γ} {as : List α} {bs : List (Option β)} (h : as.mapM step = .ok bs)
    (hview : ∀ a b, step a = .ok b → b.bind select = view a) :
    (bs.filterMap id).filterMap select = as.filterMap view := by
  have hmap : bs.map (·.bind select) = as.map view := map_eq_of_mapM h hview
  calc (bs.filterMap id).filterMap select = (bs.map (·.bind select)).filterMap id := by
        rw [List.filterMap_filterMap, List.filterMap_map]
        rfl
    _ = as.filterMap view := by
        rw [hmap, List.filterMap_map]
        rfl

/-- Of what is selected from the results the last shows what the last member that it is selected from
does. -/
theorem getLast?_filterMap_of_mapM {step : α → Except ε (Option β)} {select : β → Option γ}
    {shown : γ → δ} {view : α → δ} {p : α → Bool} {as : List α} {bs : List (Option β)}
    (h : as.mapM step = .ok bs)
    (hview : ∀ a b, step a = .ok b →
      (b.bind fun s => (select s).map shown) = if p a then some (view a) else none) :
    ((bs.filterMap id).filterMap select).getLast?.map shown = (as.filter p).getLast?.map view := by
  rw [← List.getLast?_map, ← List.getLast?_map, List.map_filterMap, filterMap_eq_of_mapM h hview,
    ← List.filterMap_eq_map, List.filterMap_filter]
  rfl

/-! ### Other faults -/

@[simp] theorem mapError_ok (a : α) (f : ε → ε') :
    (Except.ok a : Except ε α).mapError f = .ok a := rfl

@[simp] theorem mapError_error (fault : ε) (f : ε → ε') :
    (Except.error fault : Except ε α).mapError f = .error (f fault) := rfl

@[simp] theorem mapError_pure (a : α) (f : ε → ε') :
    (pure a : Except ε α).mapError f = pure a := rfl

@[simp] theorem mapError_bind (x : Except ε α) (next : α → Except ε β) (f : ε → ε') :
    (x >>= next).mapError f = x.mapError f >>= fun a => (next a).mapError f := by
  cases x <;> rfl

@[simp] theorem mapError_map (x : Except ε α) (make : α → β) (f : ε → ε') :
    (x.map make).mapError f = (x.mapError f).map make := by
  cases x <;> rfl

@[simp] theorem mapError_fmap (make : α → β) (x : Except ε α) (f : ε → ε') :
    (make <$> x).mapError f = make <$> x.mapError f := by
  cases x <;> rfl

@[simp] theorem mapError_mapM (step : α → Except ε β) (as : List α) (f : ε → ε') :
    (as.mapM step).mapError f = as.mapM fun a => (step a).mapError f := by
  induction as with
  | nil => rfl
  | cons a rest ih =>
    simp only [List.mapM_cons, mapError_bind, ih]
    rfl

end ProcessPlan
