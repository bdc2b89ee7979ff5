import Orchestract.Library.Table

/-!
# Tables that grow

A later state of a table holds every row of an earlier one under its id, as a row that goes on from
it. Inserts keep that, and so do updates that write such a row.
-/

namespace Orchestract.Table

set_option autoImplicit false

variable {α : Type} [Row α]

/-- No row is lost, and each goes on as `R` says. -/
def Grows (R : α → α → Prop) (t t' : Table α) : Prop :=
  ∀ id r, t.get id = some r → ∃ r', t'.get id = some r' ∧ R r r'

variable {R : α → α → Prop} {t t₁ t' : Table α}

theorem grows_refl (refl : ∀ r, R r r) (t : Table α) : t.Grows R t := fun _ r hr => ⟨r, hr, refl r⟩

theorem grows_of_eq (refl : ∀ r, R r r) (h : t' = t) : t.Grows R t' := h ▸ grows_refl refl t

theorem grows_trans (trans : ∀ {a b c}, R a b → R b c → R a c) (h : t.Grows R t₁) (h' : t₁.Grows R t') :
    t.Grows R t' := by
  intro id r hr
  obtain ⟨r₁, hr₁, hR⟩ := h id r hr
  obtain ⟨r', hr', hR'⟩ := h' id r₁ hr₁
  exact ⟨r', hr', trans hR hR'⟩

theorem grows_insert (refl : ∀ r, R r r) {a new : α} (h : t.insert a = some (new, t')) : t.Grows R t' :=
  fun _ r hr => ⟨r, get_of_insert h hr, refl r⟩

theorem grows_update (refl : ∀ r, R r r) {a r : α} (h : t.update a = some t') (hr : r ∈ t.rows)
    (hid : Row.id a = Row.id r) (hR : R r a) : t.Grows R t' := by
  have hget : t.get (Row.id a) = some r := get_eq_some_iff.mpr ⟨hr, hid.symm⟩
  intro id b hb
  by_cases heq : id = Row.id a
  · obtain rfl := heq
    obtain rfl := Option.some.inj (hget.symm.trans hb)
    exact ⟨a, get_of_update h hget, hR⟩
  · exact ⟨b, by rw [get_update h, if_neg heq]; exact hb, refl b⟩

theorem Grows.mem (h : t.Grows R t') {r : α} (hr : r ∈ t.rows) :
    ∃ r' ∈ t'.rows, Row.id r' = Row.id r ∧ R r r' := by
  obtain ⟨r', hr', hR⟩ := h (Row.id r) r (get_eq_some_iff.mpr ⟨hr, rfl⟩)
  obtain ⟨hmem, hid⟩ := get_eq_some_iff.mp hr'
  exact ⟨r', hmem, hid, hR⟩

/-- Every row goes on from one that there was, or is a new one of this kind. -/
structure Evolves (R : α → α → Prop) (New : α → Prop) (t t' : Table α) : Prop where
  grows : t.Grows R t'
  new : ∀ r' ∈ t'.rows, (∃ r ∈ t.rows, Row.id r = Row.id r') ∨ New r'

variable {New : α → Prop}

theorem evolves_refl (refl : ∀ r, R r r) (t : Table α) : t.Evolves R New t :=
  ⟨grows_refl refl t, fun r hr => Or.inl ⟨r, hr, rfl⟩⟩

theorem evolves_trans (trans : ∀ {a b c}, R a b → R b c → R a c) (closed : ∀ {a b}, New a → R a b → New b)
    (h : t.Evolves R New t₁) (h' : t₁.Evolves R New t') : t.Evolves R New t' := by
  refine ⟨grows_trans trans h.grows h'.grows, fun r' hr' => ?_⟩
  rcases h'.new r' hr' with ⟨r₁, hr₁, hid₁⟩ | hnew
  · rcases h.new r₁ hr₁ with ⟨r, hr, hid⟩ | hnew
    · exact Or.inl ⟨r, hr, hid.trans hid₁⟩
    · obtain ⟨b, hb, hid, hR⟩ := h'.grows.mem hr₁
      obtain rfl := eq_of_id hb hr' (hid.trans hid₁)
      exact Or.inr (closed hnew hR)
  · exact Or.inr hnew

theorem evolves_insert (refl : ∀ r, R r r) {a new : α} (h : t.insert a = some (new, t')) (hnew : New new) :
    t.Evolves R New t' := by
  refine ⟨grows_insert refl h, fun r' hr' => ?_⟩
  rcases (mem_insert_iff h).mp hr' with hr | rfl
  · exact Or.inl ⟨r', hr, rfl⟩
  · exact Or.inr hnew

theorem evolves_update (refl : ∀ r, R r r) {a r : α} (h : t.update a = some t') (hr : r ∈ t.rows)
    (hid : Row.id a = Row.id r) (hR : R r a) : t.Evolves R New t' := by
  refine ⟨grows_update refl h hr hid hR, fun r' hr' => ?_⟩
  rcases mem_update h hr' with rfl | ⟨hmem, _⟩
  · exact Or.inl ⟨r, hr, hid.symm⟩
  · exact Or.inl ⟨r', hmem, rfl⟩

/-- A value that no new row has is that of the same rows as before. -/
theorem Evolves.map_get_iff {β : Type} {f : α → β} {v : β} (h : t.Evolves (fun r r' => f r' = f r) New t')
    (hnew : ∀ r, New r → f r ≠ v) {id : Nat} : (t'.get id).map f = some v ↔ (t.get id).map f = some v := by
  simp only [Option.map_eq_some_iff]
  constructor
  · rintro ⟨r', hr', hv⟩
    obtain ⟨hmem, hid⟩ := get_eq_some_iff.mp hr'
    rcases h.new r' hmem with ⟨r, hr, hrid⟩ | hmade
    · have hget : t.get id = some r := get_eq_some_iff.mpr ⟨hr, hrid.trans hid⟩
      obtain ⟨b, hb, hf⟩ := h.grows id r hget
      obtain rfl := Option.some.inj (hb.symm.trans hr')
      exact ⟨r, hget, hf.symm.trans hv⟩
    · exact absurd hv (hnew r' hmade)
  · rintro ⟨r, hr, hv⟩
    obtain ⟨r', hr', hf⟩ := h.grows id r hr
    exact ⟨r', hr', hf.trans hv⟩

end Orchestract.Table
