import Mathlib.Data.List.Forall2

/-!
# Reading up to the first fault

A computation that may fail has a result when each of its steps has one, and else the fault of the
first step that fails. `FirstFault` says so of a list of items that are read in order.

Results: `bind_eq_ok` and `bind_eq_error` for one step, `mapM_eq_ok` and `mapM_eq_error` for a list
of items.
-/

namespace Dotpath

variable {α β γ ε : Type}

theorem bind_eq_ok {first : Except ε α} {next : α → Except ε β} {result : β} :
    (first >>= next) = .ok result ↔ ∃ middle, first = .ok middle ∧ next middle = .ok result := by
  cases first with
  | error fault => exact ⟨(fun h => nomatch h), fun ⟨_, h, _⟩ => nomatch h⟩
  | ok middle =>
    constructor
    · exact fun h => ⟨middle, rfl, h⟩
    · rintro ⟨_, hfirst, h⟩
      obtain rfl := Except.ok.inj hfirst
      exact h

theorem bind_eq_error {first : Except ε α} {next : α → Except ε β} {fault : ε} :
    (first >>= next) = .error fault
      ↔ first = .error fault ∨ ∃ middle, first = .ok middle ∧ next middle = .error fault := by
  cases first with
  | error found =>
    constructor
    · exact fun h => .inl (congrArg Except.error (Except.error.inj h))
    · rintro (h | ⟨_, h, _⟩)
      · exact congrArg Except.error (Except.error.inj h)
      · exact nomatch h
  | ok middle =>
    constructor
    · exact fun h => .inr ⟨middle, rfl, h⟩
    · rintro (h | ⟨_, hfirst, h⟩)
      · exact nomatch h
      · obtain rfl := Except.ok.inj hfirst
        exact h

theorem map_eq_ok {f : α → β} {outcome : Except ε α} {result : β} :
    outcome.map f = .ok result ↔ ∃ value, outcome = .ok value ∧ result = f value := by
  cases outcome <;> simp [Except.map, eq_comm]

instance decidableForallOk {outcome : Except ε α} {P : α → Prop} [DecidablePred P] :
    Decidable (∀ result, outcome = .ok result → P result) :=
  match outcome with
  | .ok result =>
    decidable_of_iff (P result) ⟨fun h _ heq => Except.ok.inj heq ▸ h, fun h => h _ rfl⟩
  | .error _ => isTrue fun _ h => nomatch h

theorem exists_left_of_mem {R : α → β → Prop} {as : List α} {bs : List β} (h : List.Forall₂ R as bs)
    {b : β} (hb : b ∈ bs) : ∃ a ∈ as, R a b := by
  induction h with
  | nil => exact absurd hb List.not_mem_nil
  | cons hfirst _ ih =>
    rcases List.mem_cons.1 hb with rfl | hb
    · exact ⟨_, List.mem_cons_self, hfirst⟩
    · obtain ⟨a, ha, hab⟩ := ih hb
      exact ⟨a, List.mem_cons_of_mem _ ha, hab⟩

theorem exists_append_of_forall₂ {R : α → β → Prop} {as as' : List α} {bs : List β}
    (h : List.Forall₂ R (as ++ as') bs) :
    ∃ front rest, bs = front ++ rest ∧ List.Forall₂ R as front ∧ List.Forall₂ R as' rest :=
  ⟨bs.take as.length, bs.drop as.length, (List.take_append_drop _ _).symm,
    (List.forall₂_take_append _ _ _ h.flip).flip, (List.forall₂_drop_append _ _ _ h.flip).flip⟩

/-- Of items read in order, the first that is not good has this fault. -/
def FirstFault (Good : α → Prop) (Fault : α → ε → Prop) (items : List α) (fault : ε) : Prop :=
  ∃ before item after, items = before ++ item :: after ∧ (∀ good ∈ before, Good good) ∧
    Fault item fault

theorem mapM_eq_ok {f : α → Except ε β} {items : List α} {results : List β} :
    items.mapM f = .ok results
      ↔ List.Forall₂ (fun item result => f item = .ok result) items results := by
  induction items generalizing results with
  | nil => cases results <;> simp [pure, Except.pure]
  | cons item items ih =>
    rw [List.mapM_cons]
    constructor
    · intro h
      obtain ⟨first, hitem, h⟩ := bind_eq_ok.1 h
      obtain ⟨rest, hrest, h⟩ := bind_eq_ok.1 h
      obtain rfl := Except.ok.inj h
      exact .cons hitem (ih.1 hrest)
    · rintro (_ | ⟨hitem, hrest⟩)
      rw [hitem, ih.2 hrest]
      rfl

theorem mapM_eq_error {f : α → Except ε β} {items : List α} {fault : ε} :
    items.mapM f = .error fault
      ↔ FirstFault (fun item => ∃ result, f item = .ok result)
          (fun item fault => f item = .error fault) items fault := by
  induction items with
  | nil => simp [FirstFault, pure, Except.pure]
  | cons item items ih =>
    rw [List.mapM_cons]
    constructor
    · intro h
      cases hitem : f item with
      | error stop =>
        rw [hitem] at h
        obtain rfl := Except.error.inj h
        exact ⟨[], item, items, rfl, by simp, hitem⟩
      | ok first =>
        cases hrest : items.mapM f with
        | ok rest => rw [hitem, hrest] at h; exact nomatch h
        | error stop =>
          rw [hitem, hrest] at h
          obtain rfl := Except.error.inj h
          obtain ⟨before, bad, after, rfl, hgood, hfault⟩ := ih.1 hrest
          refine ⟨item :: before, bad, after, rfl, ?_, hfault⟩
          exact List.forall_mem_cons.2 ⟨⟨first, hitem⟩, hgood⟩
    · rintro ⟨before, bad, after, hsplit, hgood, hfault⟩
      cases before with
      | nil =>
        obtain ⟨rfl, rfl⟩ := List.cons.inj hsplit
        rw [hfault]
        rfl
      | cons head before =>
        obtain ⟨rfl, rfl⟩ := List.cons.inj hsplit
        obtain ⟨⟨first, hitem⟩, hbefore⟩ := List.forall_mem_cons.1 hgood
        rw [hitem, ih.2 ⟨before, bad, after, rfl, hbefore, hfault⟩]
        rfl

theorem map_mapM_eq_ok {f : α → Except ε β} {join : List β → γ} {items : List α} {result : γ} :
    (items.mapM f).map join = .ok result
      ↔ ∃ results, List.Forall₂ (fun item result => f item = .ok result) items results ∧
        result = join results := by
  simp only [map_eq_ok, mapM_eq_ok]

theorem map_mapM_eq_error {f : α → Except ε β} {join : List β → γ} {items : List α} {fault : ε} :
    (items.mapM f).map join = .error fault
      ↔ FirstFault (fun item => ∃ result, f item = .ok result)
          (fun item fault => f item = .error fault) items fault := by
  rw [← mapM_eq_error]
  cases items.mapM f <;> simp [Except.map]

end Dotpath
