import Mathlib.Data.List.Nodup

/-!
# Tables

A table of rows with a primary key that the table hands out, and unique constraints. `keys` lists
what a row occupies under each of them; two rows may not share an entry. An `INSERT` or an
`UPDATE` that would break a constraint is refused.
-/

namespace Orchestract

set_option autoImplicit false

/-- The name of a unique constraint with the values of its columns. -/
structure UniqueKey where
  constraint : String
  owner : Nat
  value : String
deriving DecidableEq, Repr

class Row (α : Type) where
  id : α → Nat
  withId : Nat → α → α
  keys : α → List UniqueKey
  id_withId : ∀ n a, id (withId n a) = n

variable {α : Type} [Row α]

/-- A row other than `a` shares no unique key with it. -/
def Apart (a r : α) : Prop := Row.id r ≠ Row.id a → (Row.keys r).Disjoint (Row.keys a)

instance (a r : α) : Decidable (Apart a r) :=
  inferInstanceAs (Decidable (_ → ∀ ⦃k⦄, k ∈ Row.keys r → k ∈ Row.keys a → False))

structure Table (α : Type) [Row α] where
  rows : List α
  next : Nat
  nodup : (rows.map Row.id).Nodup
  bound : ∀ r ∈ rows, Row.id r < next
  unique : ∀ a ∈ rows, ∀ r ∈ rows, Apart a r

namespace Table

def empty : Table α := ⟨[], 1, List.nodup_nil, by simp, by simp⟩

def get (t : Table α) (id : Nat) : Option α := t.rows.find? (fun r => Row.id r = id)

def select (t : Table α) (p : α → Bool) : List α := t.rows.filter p

theorem apart_symm {a r : α} (h : Apart a r) : Apart r a :=
  fun hne _ hr ha => h (Ne.symm hne) ha hr

/-- The row gets the next id. -/
def insert (t : Table α) (a : α) : Option (α × Table α) :=
  let new := Row.withId t.next a
  if h : ∀ r ∈ t.rows, Apart new r then
    some (new, {
      rows := t.rows ++ [new]
      next := t.next + 1
      nodup := by
        rw [List.map_append, List.nodup_append]
        refine ⟨t.nodup, List.nodup_singleton _, ?_⟩
        intro n hn m hm
        obtain ⟨r, hr, rfl⟩ := List.mem_map.mp hn
        have hlt := t.bound r hr
        rw [List.map_singleton, List.mem_singleton, Row.id_withId] at hm
        omega
      bound := by
        intro r hr
        rcases List.mem_append.mp hr with hr | hr
        · exact Nat.lt_succ_of_lt (t.bound r hr)
        · rw [List.mem_singleton.mp hr, Row.id_withId]
          exact Nat.lt_succ_self _
      unique := by
        intro a ha r hr
        rcases List.mem_append.mp ha with ha | ha <;> rcases List.mem_append.mp hr with hr | hr
        · exact t.unique a ha r hr
        · rw [List.mem_singleton.mp hr]
          exact apart_symm (h a ha)
        · rw [List.mem_singleton.mp ha]
          exact h r hr
        · rw [List.mem_singleton.mp ha, List.mem_singleton.mp hr]
          exact fun hne => absurd rfl hne })
  else none

/-- The row with the id of `a` becomes `a`. -/
def overwrite (a : α) (rows : List α) : List α :=
  rows.map (fun r => if Row.id r = Row.id a then a else r)

theorem map_id_overwrite (a : α) (rows : List α) :
    (overwrite a rows).map Row.id = rows.map Row.id := by
  unfold overwrite
  rw [List.map_map]
  apply List.map_congr_left
  intro r _
  by_cases h : Row.id r = Row.id a
  · simp [h]
  · simp [h]

theorem mem_overwrite {a b : α} {rows : List α} (h : b ∈ overwrite a rows) : b = a ∨ b ∈ rows := by
  obtain ⟨r, hr, rfl⟩ := List.mem_map.mp h
  by_cases hid : Row.id r = Row.id a
  · exact Or.inl (by simp [hid])
  · exact Or.inr (by simpa [hid] using hr)

def update (t : Table α) (a : α) : Option (Table α) :=
  if h : ∀ r ∈ t.rows, Apart a r then
    some {
      rows := overwrite a t.rows
      next := t.next
      nodup := by
        rw [map_id_overwrite]
        exact t.nodup
      bound := by
        intro r hr
        have hid : Row.id r ∈ t.rows.map Row.id := by
          rw [← map_id_overwrite a t.rows]
          exact List.mem_map_of_mem hr
        obtain ⟨s, hs, hsr⟩ := List.mem_map.mp hid
        rw [← hsr]
        exact t.bound s hs
      unique := by
        intro b hb r hr
        rcases mem_overwrite hb with hba | hb <;> rcases mem_overwrite hr with hra | hr
        · rw [hba, hra]
          exact fun hne => absurd rfl hne
        · rw [hba]
          exact h r hr
        · rw [hra]
          exact apart_symm (h b hb)
        · exact t.unique b hb r hr }
  else none

/-- `DELETE`: the ids of the rows are not given out again. -/
def delete (t : Table α) (p : α → Bool) : Table α where
  rows := t.rows.filter (fun r => !p r)
  next := t.next
  nodup := List.Nodup.sublist (List.filter_sublist.map Row.id) t.nodup
  bound := fun r hr => t.bound r (List.mem_of_mem_filter hr)
  unique := fun a ha r hr => t.unique a (List.mem_of_mem_filter ha) r (List.mem_of_mem_filter hr)

/-- Every row becomes one with the same id and the same unique keys. -/
def mapRows (t : Table α) (f : α → α) (hid : ∀ a, Row.id (f a) = Row.id a)
    (hkeys : ∀ a, Row.keys (f a) = Row.keys a) : Table α where
  rows := t.rows.map f
  next := t.next
  nodup := by
    have hids : Row.id ∘ f = (Row.id : α → Nat) := funext hid
    rw [List.map_map, hids]
    exact t.nodup
  bound := by
    intro r hr
    obtain ⟨a, ha, rfl⟩ := List.mem_map.mp hr
    rw [hid]
    exact t.bound a ha
  unique := by
    intro b hb s hs
    obtain ⟨a, ha, rfl⟩ := List.mem_map.mp hb
    obtain ⟨r, hr, rfl⟩ := List.mem_map.mp hs
    unfold Apart
    rw [hid, hid, hkeys, hkeys]
    exact t.unique a ha r hr

/-- An id that none of the rows has. -/
def fresh (rows : List α) : Nat := (rows.map Row.id).foldr max 0 + 1

theorem id_lt_fresh {r : α} {rows : List α} (h : r ∈ rows) : Row.id r < fresh rows := by
  unfold fresh
  induction rows with
  | nil => cases h
  | cons s rows ih =>
    simp only [List.map_cons, List.foldr_cons]
    rcases List.mem_cons.mp h with rfl | h
    · omega
    · have hlt := ih h
      omega

/-- The table of the rows satisfying `p`. -/
def restrict (t : Table α) (p : α → Bool) : Table α where
  rows := t.rows.filter p
  next := fresh (t.rows.filter p)
  nodup := List.Nodup.sublist (List.filter_sublist.map Row.id) t.nodup
  bound := fun _ hr => id_lt_fresh hr
  unique := fun a ha r hr => t.unique a (List.mem_of_mem_filter ha) r (List.mem_of_mem_filter hr)

/-! ## Rules -/

theorem ext_rows {t t' : Table α} (hrows : t.rows = t'.rows) (hnext : t.next = t'.next) : t = t' := by
  obtain ⟨rows, next, _, _, _⟩ := t
  obtain ⟨rows', next', _, _, _⟩ := t'
  obtain rfl : rows = rows' := hrows
  obtain rfl : next = next' := hnext
  rfl

theorem eq_of_id {t : Table α} {a b : α} (ha : a ∈ t.rows) (hb : b ∈ t.rows)
    (h : Row.id a = Row.id b) : a = b :=
  List.inj_on_of_nodup_map t.nodup ha hb h

theorem get_eq_some_iff {t : Table α} {id : Nat} {a : α} :
    t.get id = some a ↔ a ∈ t.rows ∧ Row.id a = id := by
  constructor
  · intro h
    exact ⟨List.mem_of_find?_eq_some h, by simpa using List.find?_some h⟩
  · rintro ⟨ha, rfl⟩
    cases hf : t.get (Row.id a) with
    | none =>
      have hne := List.find?_eq_none.mp hf a ha
      simp at hne
    | some b =>
      have hb := List.mem_of_find?_eq_some hf
      have hid : Row.id b = Row.id a := by simpa using List.find?_some hf
      rw [eq_of_id hb ha hid]

theorem get_eq_none_iff {t : Table α} {id : Nat} :
    t.get id = none ↔ ∀ a ∈ t.rows, Row.id a ≠ id := by
  simp [get]

/-- The id that is given next is nobody's. -/
theorem get_next (t : Table α) : t.get t.next = none := by
  apply get_eq_none_iff.mpr
  intro a ha hid
  have hlt := t.bound a ha
  omega

theorem mem_select_iff {t : Table α} {p : α → Bool} {a : α} :
    a ∈ t.select p ↔ a ∈ t.rows ∧ p a = true := List.mem_filter

theorem mem_delete_iff {t : Table α} {p : α → Bool} {a : α} :
    a ∈ (t.delete p).rows ↔ a ∈ t.rows ∧ p a = false := by
  unfold delete
  rw [List.mem_filter, Bool.not_eq_true']

theorem insert_eq_some {t t' : Table α} {a new : α} (h : t.insert a = some (new, t')) :
    new = Row.withId t.next a ∧ t'.rows = t.rows ++ [new] ∧ t'.next = t.next + 1 := by
  unfold insert at h
  simp only at h
  split at h
  · simp only [Option.some.injEq, Prod.mk.injEq] at h
    obtain ⟨rfl, rfl⟩ := h
    exact ⟨rfl, rfl, rfl⟩
  · cases h

/-- An `INSERT` is refused only for a unique key. -/
theorem insert_isSome_iff {t : Table α} {a : α} :
    (∃ p, t.insert a = some p) ↔ ∀ r ∈ t.rows, (Row.keys r).Disjoint (Row.keys (Row.withId t.next a)) := by
  have hne : ∀ r ∈ t.rows, Row.id r ≠ Row.id (Row.withId t.next a) := by
    intro r hr
    have hlt := t.bound r hr
    rw [Row.id_withId]
    omega
  unfold insert
  by_cases h : ∀ r ∈ t.rows, Apart (Row.withId t.next a) r
  · rw [dif_pos h]
    exact ⟨fun _ r hr => h r hr (hne r hr), fun _ => ⟨_, rfl⟩⟩
  · rw [dif_neg h]
    exact ⟨fun ⟨_, hp⟩ => (by cases hp), fun hd => absurd (fun r hr _ => hd r hr) h⟩

/-- An `UPDATE` is refused only for a unique key of another row. -/
theorem update_isSome_iff {t : Table α} {a : α} :
    (∃ t', t.update a = some t') ↔ ∀ r ∈ t.rows, Apart a r := by
  unfold update
  by_cases h : ∀ r ∈ t.rows, Apart a r
  · rw [dif_pos h]
    exact ⟨fun _ => h, fun _ => ⟨_, rfl⟩⟩
  · rw [dif_neg h]
    exact ⟨fun ⟨_, hp⟩ => (by cases hp), fun h' => absurd h' h⟩

theorem update_eq_some {t t' : Table α} {a : α} (h : t.update a = some t') :
    t'.rows = overwrite a t.rows ∧ t'.next = t.next := by
  unfold update at h
  split at h
  · obtain rfl := Option.some.inj h
    exact ⟨rfl, rfl⟩
  · cases h

/-- Rows chosen by `p` are not touched by an `INSERT` of a row outside `p`. -/
theorem select_insert {t t' : Table α} {a new : α} {p : α → Bool}
    (h : t.insert a = some (new, t')) (hp : p new = false) : t'.select p = t.select p := by
  obtain ⟨_, hrows, _⟩ := insert_eq_some h
  unfold select
  rw [hrows, List.filter_append]
  simp [hp]

/-- Rows chosen by `p` are not touched by an `UPDATE` that is outside `p` before and after. -/
theorem select_update {t t' : Table α} {a : α} {p : α → Bool} (h : t.update a = some t')
    (hbefore : ∀ r ∈ t.rows, Row.id r = Row.id a → p r = false) (hafter : p a = false) :
    t'.select p = t.select p := by
  obtain ⟨hrows, _⟩ := update_eq_some h
  unfold select
  rw [hrows]
  unfold overwrite
  generalize t.rows = rows at hbefore
  induction rows with
  | nil => rfl
  | cons r rs ih =>
    have hrs := ih fun s hs => hbefore s (List.mem_cons_of_mem _ hs)
    rw [List.map_cons, List.filter_cons, List.filter_cons, hrs]
    by_cases hid : Row.id r = Row.id a
    · have hr : p r = false := hbefore r List.mem_cons_self hid
      simp [hid, hafter, hr]
    · simp [hid]

/-- Where `p` does not tell the old row from the new one, the chosen rows are overwritten. -/
theorem select_overwrite {t t' : Table α} {a : α} {p : α → Bool} (h : t.update a = some t')
    (hp : ∀ r ∈ t.rows, Row.id r = Row.id a → p a = p r) :
    t'.select p = overwrite a (t.select p) := by
  obtain ⟨hrows, _⟩ := update_eq_some h
  unfold select
  rw [hrows]
  unfold overwrite
  rw [List.filter_map]
  congr 1
  apply List.filter_congr
  intro r hr
  by_cases hid : Row.id r = Row.id a
  · simp [hid, hp r hr hid]
  · simp [hid]

/-- The number of chosen rows after an `INSERT`. -/
theorem length_select_insert {t t' : Table α} {a new : α} (p : α → Bool)
    (h : t.insert a = some (new, t')) :
    (t'.select p).length = (t.select p).length + if p new then 1 else 0 := by
  obtain ⟨_, hrows, _⟩ := insert_eq_some h
  unfold select
  rw [hrows, List.filter_append, List.length_append]
  cases hp : p new with
  | true => simp [hp]
  | false => simp [hp]

/-- An `UPDATE` that `p` does not see leaves the number of chosen rows. -/
theorem length_select_update {t t' : Table α} {a r : α} {p : α → Bool} (h : t.update a = some t')
    (hr : r ∈ t.rows) (hid : Row.id a = Row.id r) (hp : p a = p r) :
    (t'.select p).length = (t.select p).length := by
  rw [select_overwrite h, overwrite, List.length_map]
  intro b hb hb'
  rw [eq_of_id hb hr (hb'.trans hid)]
  exact hp

theorem get_update {t t' : Table α} {a : α} (h : t.update a = some t') (id : Nat) :
    t'.get id = if id = Row.id a then (t.get id).map (fun _ => a) else t.get id := by
  obtain ⟨hrows, _⟩ := update_eq_some h
  unfold get
  rw [hrows]
  unfold overwrite
  generalize t.rows = rows
  induction rows with
  | nil => simp
  | cons r rs ih =>
    rw [List.map_cons, List.find?_cons, List.find?_cons, ih]
    by_cases hid : Row.id r = Row.id a
    · by_cases hn : id = Row.id a
      · simp [hid, hn]
      · have hn' : Row.id a ≠ id := Ne.symm hn
        simp [hid, hn, hn']
    · by_cases hn : id = Row.id a
      · simp [hid, hn]
      · by_cases hr : Row.id r = id
        · simp [hn, hr]
        · simp [hid, hn, hr]

theorem get_insert {t t' : Table α} {a new : α} (h : t.insert a = some (new, t')) {id : Nat} :
    t'.get id = if id = t.next then some new else t.get id := by
  obtain ⟨hnew, hrows, _⟩ := insert_eq_some h
  have hid : Row.id new = t.next := by rw [hnew, Row.id_withId]
  unfold get
  rw [hrows, List.find?_append]
  by_cases hn : id = t.next
  · have hnone : t.rows.find? (fun r => Row.id r = id) = none := hn ▸ t.get_next
    rw [hnone]
    simp [hid, hn]
  · have hne : Row.id new ≠ id := by omega
    cases hf : t.rows.find? (fun r => Row.id r = id) with
    | none => simp [hne, hn]
    | some r => simp [hn]

/-- A row keeps its place when another is stored. -/
theorem get_of_insert {t t' : Table α} {a new b : α} {id : Nat} (h : t.insert a = some (new, t'))
    (hb : t.get id = some b) : t'.get id = some b := by
  obtain ⟨hmem, hid⟩ := get_eq_some_iff.mp hb
  have hlt := t.bound b hmem
  rw [get_insert h, if_neg (by omega)]
  exact hb

theorem mem_insert_iff {t t' : Table α} {a new b : α} (h : t.insert a = some (new, t')) :
    b ∈ t'.rows ↔ b ∈ t.rows ∨ b = new := by
  obtain ⟨_, hrows, _⟩ := insert_eq_some h
  rw [hrows, List.mem_append, List.mem_singleton]

theorem id_ne_of_insert {t t' : Table α} {a new b : α} {id : Nat} (h : t.insert a = some (new, t'))
    (hb : t.get id = some b) : id ≠ Row.id new := by
  obtain ⟨hnew, _, _⟩ := insert_eq_some h
  rw [hnew, Row.id_withId]
  rintro rfl
  rw [get_next] at hb
  cases hb

/-- A row is found under the id it was given. -/
theorem get_inserted {t t' : Table α} {a new : α} (h : t.insert a = some (new, t')) :
    t'.get (Row.id new) = some new :=
  get_eq_some_iff.mpr ⟨(mem_insert_iff h).mpr (Or.inr rfl), rfl⟩

theorem mem_of_update {t t' : Table α} {a r : α} (h : t.update a = some t') (hr : r ∈ t.rows)
    (hid : Row.id r = Row.id a) : a ∈ t'.rows := by
  obtain ⟨hrows, _⟩ := update_eq_some h
  rw [hrows]
  exact List.mem_map.mpr ⟨r, hr, if_pos hid⟩

/-- A row is found as it was saved. -/
theorem get_of_update {t t' : Table α} {a r : α} (h : t.update a = some t')
    (hr : t.get (Row.id a) = some r) : t'.get (Row.id a) = some a := by
  obtain ⟨hmem, hid⟩ := get_eq_some_iff.mp hr
  exact get_eq_some_iff.mpr ⟨mem_of_update h hmem hid, rfl⟩

theorem mem_update {t t' : Table α} {a b : α} (h : t.update a = some t') (hb : b ∈ t'.rows) :
    b = a ∨ b ∈ t.rows ∧ Row.id b ≠ Row.id a := by
  obtain ⟨hrows, _⟩ := update_eq_some h
  rw [hrows] at hb
  obtain ⟨r, hr, rfl⟩ := List.mem_map.mp hb
  by_cases hid : Row.id r = Row.id a
  · exact Or.inl (if_pos hid)
  · rw [if_neg hid]
    exact Or.inr ⟨hr, hid⟩

/-- Ids are given out from 1 on. -/
def Numbered (t : Table α) : Prop := 0 < t.next ∧ ∀ r ∈ t.rows, 0 < Row.id r

theorem numbered_insert {t t' : Table α} {a new : α} (h : t.insert a = some (new, t')) (ht : t.Numbered) :
    t'.Numbered := by
  obtain ⟨hnew, _, hnext⟩ := insert_eq_some h
  refine ⟨by omega, fun r hr => ?_⟩
  rcases (mem_insert_iff h).mp hr with hr | rfl
  · exact ht.2 r hr
  · rw [hnew, Row.id_withId]
    exact ht.1

theorem numbered_update {t t' : Table α} {a : α} (h : t.update a = some t') (ha : 0 < Row.id a)
    (ht : t.Numbered) : t'.Numbered := by
  obtain ⟨_, hnext⟩ := update_eq_some h
  refine ⟨hnext ▸ ht.1, fun b hb => ?_⟩
  rcases mem_update h hb with rfl | ⟨hb, _⟩
  · exact ha
  · exact ht.2 b hb

/-- The table of chosen rows depends on these rows only. -/
theorem restrict_congr {t t' : Table α} {p p' : α → Bool} (h : t.select p = t'.select p') :
    t.restrict p = t'.restrict p' := by
  unfold select at h
  unfold restrict
  simp only [h]

theorem select_restrict (t : Table α) (p q : α → Bool) :
    (t.restrict p).select q = (t.select q).filter p := by
  unfold select restrict
  rw [List.filter_filter, List.filter_filter]
  apply List.filter_congr
  intro r _
  exact Bool.and_comm _ _

/-- Rows that are all chosen by `p` are the same in the table of chosen rows. -/
theorem select_restrict_of_imp {t : Table α} {p q : α → Bool}
    (h : ∀ r ∈ t.rows, q r = true → p r = true) : (t.restrict p).select q = t.select q := by
  rw [select_restrict]
  apply List.filter_eq_self.mpr
  intro r hr
  obtain ⟨hmem, hq⟩ := mem_select_iff.mp hr
  exact h r hmem hq

theorem eq_singleton {β : Type} {bs : List β} {b : β} (hnodup : bs.Nodup) (hb : b ∈ bs)
    (hall : ∀ c ∈ bs, c = b) : bs = [b] := by
  rcases bs with - | ⟨c, - | ⟨d, rest⟩⟩
  · cases hb
  · rw [hall c List.mem_cons_self]
  · have hc := hall c List.mem_cons_self
    have hd := hall d (List.mem_cons_of_mem _ List.mem_cons_self)
    simp [hc, hd] at hnodup

/-- A unique key chooses at most one row. -/
theorem select_unique {t : Table α} {a : α} {p : α → Bool} (ha : a ∈ t.rows) (hp : p a = true)
    {k : UniqueKey} (hk : ∀ r ∈ t.rows, p r = true → k ∈ Row.keys r) : t.select p = [a] := by
  have hall : ∀ r ∈ t.select p, r = a := by
    intro r hr
    obtain ⟨hmem, hpr⟩ := mem_select_iff.mp hr
    by_contra hne
    have hid : Row.id r ≠ Row.id a := fun hid => hne (eq_of_id hmem ha hid)
    exact t.unique a ha r hmem hid (hk r hmem hpr) (hk a ha hp)
  have hnodup : (t.select p).Nodup := List.Nodup.of_map Row.id
    (List.Nodup.sublist (List.filter_sublist.map Row.id) t.nodup)
  exact eq_singleton hnodup (mem_select_iff.mpr ⟨ha, hp⟩) hall

/-- A row with the next id was not there before. -/
theorem select_ne_of_next {t t' : Table α} {r : α} {p : α → Bool} (hr : t'.get t.next = some r)
    (hp : p r = true) : t'.select p ≠ t.select p := by
  intro heq
  obtain ⟨hmem, hid⟩ := get_eq_some_iff.mp hr
  have hold : r ∈ t.select p := heq ▸ mem_select_iff.mpr ⟨hmem, hp⟩
  have hlt := t.bound r (mem_select_iff.mp hold).1
  omega

theorem select_id (t : Table α) (id : Nat) : t.select (fun r => Row.id r = id) = (t.get id).toList := by
  cases h : t.get id with
  | none =>
    apply List.filter_eq_nil_iff.mpr
    intro r hr
    simpa using get_eq_none_iff.mp h r hr
  | some a =>
    obtain ⟨ha, hid⟩ := get_eq_some_iff.mp h
    have hall : ∀ r ∈ t.select (fun r => Row.id r = id), r = a := by
      intro r hr
      obtain ⟨hmem, hrid⟩ := mem_select_iff.mp hr
      have hrid' : Row.id r = id := by simpa using hrid
      exact eq_of_id hmem ha (hrid'.trans hid.symm)
    have hnodup : (t.select (fun r => Row.id r = id)).Nodup := List.Nodup.of_map Row.id
      (List.Nodup.sublist (List.filter_sublist.map Row.id) t.nodup)
    have ha' : a ∈ t.select (fun r => Row.id r = id) := mem_select_iff.mpr ⟨ha, by simpa using hid⟩
    exact eq_singleton hnodup ha' hall

theorem get_restrict (t : Table α) (p : α → Bool) (id : Nat) :
    (t.restrict p).get id = (t.get id).filter p := by
  cases h : t.get id with
  | none =>
    apply get_eq_none_iff.mpr
    intro a ha
    exact get_eq_none_iff.mp h a (List.mem_of_mem_filter ha)
  | some a =>
    obtain ⟨ha, hid⟩ := get_eq_some_iff.mp h
    cases hp : p a with
    | true =>
      rw [Option.filter_some_pos hp]
      exact get_eq_some_iff.mpr ⟨List.mem_filter.mpr ⟨ha, hp⟩, hid⟩
    | false =>
      rw [Option.filter_some_neg (by simp [hp])]
      apply get_eq_none_iff.mpr
      intro b hb hbid
      obtain ⟨hb', hpb⟩ := List.mem_filter.mp hb
      rw [eq_of_id hb' ha (hbid.trans hid.symm), hp] at hpb
      cases hpb

end Table

end Orchestract
