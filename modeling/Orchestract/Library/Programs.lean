import Mathlib.Logic.Relation
import Orchestract.Library.Exceptions

/-!
# Reads, units of work and programs

Three kinds of computation over a state. A `Read` looks and may raise. A `Work` is a unit of
work: it ends in a new state, or raises and has changed nothing. A `Program` strings reads and
units of work together; when it raises, what it has committed so far stays.
-/

namespace Orchestract

set_option autoImplicit false

variable {σ ε α β : Type}

abbrev Read (σ ε : Type) := ReaderT σ (Except ε)

abbrev Work (σ ε : Type) := StateT σ (Except ε)

abbrev Program (σ ε : Type) := ExceptT ε (StateM σ)

def Read.toWork (r : Read σ ε α) : Work σ ε α := fun s => (fun a => (a, s)) <$> r s

def Work.commit (m : Work σ ε α) : Program σ ε α := fun s =>
  match m s with
  | .ok (a, s') => (.ok a, s')
  | .error e => (.error e, s)

instance : MonadLift (Read σ ε) (Work σ ε) := ⟨Read.toWork⟩

instance : MonadLift (Work σ ε) (Program σ ε) := ⟨Work.commit⟩

/-! ## Reads -/

namespace Read

@[simp] theorem bind_ok_iff (r : Read σ ε α) (f : α → Read σ ε β) (s : σ) (b : β) :
    (r >>= f) s = .ok b ↔ ∃ a, r s = .ok a ∧ f a s = .ok b :=
  Orchestract.bind_ok_iff (r s) (fun a => f a s) b

theorem bind_error_iff (r : Read σ ε α) (f : α → Read σ ε β) (s : σ) (e : ε) :
    (r >>= f) s = .error e ↔ r s = .error e ∨ ∃ a, r s = .ok a ∧ f a s = .error e := by
  change ((r s) >>= fun a => f a s) = .error e ↔ _
  cases r s <;> simp [bind, Except.bind]

theorem bind_ok {r : Read σ ε α} {f : α → Read σ ε β} {s : σ} {a : α} (h : r s = .ok a) :
    (r >>= f) s = f a s := by
  change ((r s) >>= fun a => f a s) = _
  rw [h]
  rfl

@[simp] theorem map_ok_iff (f : α → β) (r : Read σ ε α) (s : σ) (b : β) :
    (f <$> r) s = .ok b ↔ ∃ a, r s = .ok a ∧ f a = b :=
  Orchestract.map_ok_iff f (r s) b

@[simp] theorem pure_apply (a : α) (s : σ) : (pure a : Read σ ε α) s = .ok a := rfl

/-- Two states from which `r` gives the same result. -/
def Agree (s₁ s₂ : σ) (r : Read σ ε α) : Prop := r s₁ = r s₂

theorem agree_pure (s₁ s₂ : σ) (a : α) : Agree s₁ s₂ (pure a : Read σ ε α) := rfl

theorem agree_throw (s₁ s₂ : σ) (e : ε) : Agree s₁ s₂ (throw e : Read σ ε α) := rfl

/-- The second part need only agree on values the first one can have. -/
theorem agree_bind {s₁ s₂ : σ} {r : Read σ ε α} {f : α → Read σ ε β} (hr : Agree s₁ s₂ r)
    (hf : ∀ a, r s₁ = .ok a → r s₂ = .ok a → Agree s₁ s₂ (f a)) : Agree s₁ s₂ (r >>= f) := by
  have hr' : r s₂ = r s₁ := hr.symm
  change ((r s₁) >>= fun a => f a s₁) = ((r s₂) >>= fun a => f a s₂)
  rw [hr']
  cases h : r s₁ with
  | ok a => exact hf a h (hr'.trans h)
  | error e => rfl

theorem agree_ite {s₁ s₂ : σ} {c : Prop} [Decidable c] {r r' : Read σ ε α}
    (h : c → Agree s₁ s₂ r) (h' : ¬ c → Agree s₁ s₂ r') : Agree s₁ s₂ (if c then r else r') := by
  by_cases hc : c
  · rw [if_pos hc]
    exact h hc
  · rw [if_neg hc]
    exact h' hc

end Read

/-! ## Units of work -/

namespace Work

@[simp] theorem bind_ok_iff (m : Work σ ε α) (f : α → Work σ ε β) (s s' : σ) (b : β) :
    (m >>= f) s = .ok (b, s') ↔ ∃ a t, m s = .ok (a, t) ∧ f a t = .ok (b, s') := by
  change ((m s) >>= fun p => f p.1 p.2) = .ok (b, s') ↔ _
  rw [Orchestract.bind_ok_iff]
  exact Prod.exists

@[simp] theorem map_ok_iff (f : α → β) (m : Work σ ε α) (s s' : σ) (b : β) :
    (f <$> m) s = .ok (b, s') ↔ ∃ a, m s = .ok (a, s') ∧ f a = b := by
  rw [map_eq_pure_bind, bind_ok_iff]
  constructor
  · rintro ⟨a, t, hm, hp⟩
    cases hp
    exact ⟨a, hm, rfl⟩
  · rintro ⟨a, hm, rfl⟩
    exact ⟨a, s', hm, rfl⟩

@[simp] theorem pure_ok_iff (a b : α) (s s' : σ) :
    (pure a : Work σ ε α) s = .ok (b, s') ↔ a = b ∧ s = s' := by
  change Except.ok (a, s) = Except.ok (b, s') ↔ _
  simp

@[simp] theorem throw_ok_iff (e : ε) (b : α) (s s' : σ) :
    (throw e : Work σ ε α) s = .ok (b, s') ↔ False := by
  change Except.error e = Except.ok (b, s') ↔ _
  simp

@[simp] theorem lift_ok_iff (r : Read σ ε α) (s s' : σ) (a : α) :
    (liftM r : Work σ ε α) s = .ok (a, s') ↔ r s = .ok a ∧ s = s' := by
  change ((fun a => (a, s)) <$> r s) = .ok (a, s') ↔ _
  rw [Orchestract.map_ok_iff]
  constructor
  · rintro ⟨b, hb, heq⟩
    cases heq
    exact ⟨hb, rfl⟩
  · rintro ⟨ha, rfl⟩
    exact ⟨a, ha, rfl⟩

/-- Whatever state satisfying `I` the work starts in, if it succeeds then `I` still holds and
its value satisfies `Q`. -/
def Ensures (I : σ → Prop) (m : Work σ ε α) (Q : α → Prop) : Prop :=
  ∀ s, I s → ∀ a s', m s = .ok (a, s') → I s' ∧ Q a

def Keeps (I : σ → Prop) (m : Work σ ε α) : Prop := Ensures I m fun _ => True

variable {I : σ → Prop} {Q : α → Prop} {S : β → Prop}

theorem Ensures.keeps {m : Work σ ε α} (h : Ensures I m Q) : Keeps I m :=
  fun s hs a s' hm => ⟨(h s hs a s' hm).1, trivial⟩

theorem Ensures.mono {T : α → Prop} {m : Work σ ε α} (h : Ensures I m Q) (hq : ∀ a, Q a → T a) :
    Ensures I m T :=
  fun s hs a s' hm => ⟨(h s hs a s' hm).1, hq a (h s hs a s' hm).2⟩

theorem ensures_pure {a : α} (h : Q a) : Ensures I (pure a : Work σ ε α) Q := by
  intro s hs b s' hb
  obtain ⟨rfl, rfl⟩ := (pure_ok_iff a b s s').mp hb
  exact ⟨hs, h⟩

theorem ensures_bind {m : Work σ ε α} {f : α → Work σ ε β} (hm : Ensures I m Q)
    (hf : ∀ a, Q a → Ensures I (f a) S) : Ensures I (m >>= f) S := by
  intro s hs b s' hb
  obtain ⟨a, t, ha, hb'⟩ := (bind_ok_iff m f s s' b).mp hb
  obtain ⟨ht, hq⟩ := hm s hs a t ha
  exact hf a hq t ht b s' hb'

theorem ensures_read {r : Read σ ε α} (h : ∀ s, I s → ∀ a, r s = .ok a → Q a) :
    Ensures I (liftM r : Work σ ε α) Q := by
  intro s hs a s' ha
  obtain ⟨hr, rfl⟩ := (lift_ok_iff r s s' a).mp ha
  exact ⟨hs, h s hs a hr⟩

theorem keeps_read (r : Read σ ε α) : Keeps I (liftM r : Work σ ε α) :=
  ensures_read fun _ _ _ _ => trivial

/-- A read whose value does not matter. -/
theorem ensures_after_read {r : Read σ ε α} {f : α → Work σ ε β} (hf : ∀ a, Ensures I (f a) S) :
    Ensures I (liftM r >>= f) S :=
  ensures_bind (keeps_read r) fun a _ => hf a

theorem ensures_ite {c : Prop} [Decidable c] {m m' : Work σ ε α} (h : c → Ensures I m Q)
    (h' : ¬ c → Ensures I m' Q) : Ensures I (if c then m else m') Q := by
  by_cases hc : c
  · rw [if_pos hc]
    exact h hc
  · rw [if_neg hc]
    exact h' hc

/-- Whatever exception the work raises in this state satisfies `P`. -/
def RaisesOnly (P : ε → Prop) (m : Work σ ε α) (s : σ) : Prop := ∀ e, m s = .error e → P e

variable {P : ε → Prop}

theorem raisesOnly_ok {m : Work σ ε α} {s : σ} {p : α × σ} (h : m s = .ok p) : RaisesOnly P m s := by
  intro e he
  rw [h] at he
  cases he

theorem raisesOnly_pure (a : α) (s : σ) : RaisesOnly P (pure a : Work σ ε α) s :=
  raisesOnly_ok (p := (a, s)) rfl

theorem bind_apply (m : Work σ ε α) (f : α → Work σ ε β) (s : σ) :
    (m >>= f) s =
      match m s with
      | .ok (a, t) => f a t
      | .error e => .error e := by
  change ((m s) >>= fun p => f p.1 p.2) = _
  cases m s <;> rfl

theorem after_read (r : Read σ ε α) (f : α → Work σ ε β) (s : σ) :
    ((liftM r : Work σ ε α) >>= f) s =
      match r s with
      | .ok a => f a s
      | .error e => .error e := by
  change (((fun a => (a, s)) <$> r s) >>= fun p => f p.1 p.2) = _
  cases r s <;> rfl

theorem raisesOnly_bind_iff {m : Work σ ε α} {f : α → Work σ ε β} {s : σ} :
    RaisesOnly P (m >>= f) s ↔
      RaisesOnly P m s ∧ ∀ a t, m s = .ok (a, t) → RaisesOnly P (f a) t := by
  unfold RaisesOnly
  rw [bind_apply]
  cases m s with
  | ok p => simp [Prod.ext_iff]
  | error e => simp

/-- A part that succeeds decides nothing. -/
theorem raisesOnly_bind_ok {m : Work σ ε α} {f : α → Work σ ε β} {s t : σ} {a : α}
    (h : m s = .ok (a, t)) : RaisesOnly P (m >>= f) s ↔ RaisesOnly P (f a) t := by
  rw [raisesOnly_bind_iff]
  constructor
  · exact fun hb => hb.2 a t h
  · intro hf
    refine ⟨raisesOnly_ok h, fun b u hbu => ?_⟩
    obtain ⟨rfl, rfl⟩ := Prod.mk.inj (Except.ok.inj (h.symm.trans hbu))
    exact hf

theorem raisesOnly_read {r : Read σ ε α} {f : α → Work σ ε β} {s : σ} {a : α} (h : r s = .ok a) :
    RaisesOnly P (liftM r >>= f : Work σ ε β) s ↔ RaisesOnly P (f a) s :=
  raisesOnly_bind_ok ((lift_ok_iff r s s a).mpr ⟨h, rfl⟩)

variable {R : σ → σ → Prop}

/-- From these two states the work has one result: a value, with states that `R` relates, or an
exception. -/
def Parallel (R : σ → σ → Prop) (m : Work σ ε α) (s s' : σ) : Prop :=
  (∃ a t t', m s = .ok (a, t) ∧ m s' = .ok (a, t') ∧ R t t') ∨ ∃ e, m s = .error e ∧ m s' = .error e

section

variable {s s' : σ}

theorem parallel_pure (a : α) (h : R s s') : Parallel R (pure a : Work σ ε α) s s' :=
  Or.inl ⟨a, s, s', rfl, rfl, h⟩

theorem parallel_bind {m : Work σ ε α} {f : α → Work σ ε β} (hm : Parallel R m s s')
    (hf : ∀ a t t', m s = .ok (a, t) → R t t' → Parallel R (f a) t t') : Parallel R (m >>= f) s s' := by
  rcases hm with ⟨a, t, t', ha, ha', ht⟩ | ⟨e, he, he'⟩
  · have hfa := hf a t t' ha ht
    unfold Parallel at hfa ⊢
    rw [bind_apply, bind_apply, ha, ha']
    exact hfa
  · refine Or.inr ⟨e, ?_, ?_⟩
    · rw [bind_apply, he]
    · rw [bind_apply, he']

theorem parallel_after_read {r : Read σ ε α} {f : α → Work σ ε β} (hr : Read.Agree s s' r)
    (hf : ∀ a, r s = .ok a → Parallel R (f a) s s') : Parallel R (liftM r >>= f) s s' := by
  have hr' : r s' = r s := hr.symm
  unfold Parallel
  rw [after_read, after_read, hr']
  cases ha : r s with
  | ok a => exact hf a ha
  | error e => exact Or.inr ⟨e, rfl, rfl⟩

end

end Work

/-! ## Programs -/

namespace Program

/-- `I` holds after the program, however it ends, and its value satisfies `Q`. -/
def Ensures (I : σ → Prop) (m : Program σ ε α) (Q : α → Prop) : Prop :=
  ∀ s, I s → I (m s).2 ∧ ∀ a, (m s).1 = .ok a → Q a

def Keeps (I : σ → Prop) (m : Program σ ε α) : Prop := Ensures I m fun _ => True

variable {I : σ → Prop} {Q R : α → Prop}

theorem ensures_pure {a : α} (h : Q a) : Ensures I (pure a : Program σ ε α) Q :=
  fun _ hs => ⟨hs, fun _ ha => Except.ok.inj ha ▸ h⟩

theorem keeps_pure (a : α) : Keeps I (pure a : Program σ ε α) := ensures_pure trivial

theorem keeps_throw (e : ε) : Keeps I (throw e : Program σ ε α) :=
  fun _ hs => ⟨hs, fun _ _ => trivial⟩

theorem bind_apply (m : Program σ ε α) (f : α → Program σ ε β) (s : σ) :
    (m >>= f) s =
      match (m s).1 with
      | .ok a => f a (m s).2
      | .error e => (.error e, (m s).2) := by
  change ExceptT.bindCont f (m s).1 (m s).2 = _
  cases (m s).1 <;> rfl

theorem bind_ok_iff {m : Program σ ε α} {f : α → Program σ ε β} {s : σ} {b : β} :
    ((m >>= f) s).1 = .ok b ↔ ∃ a, (m s).1 = .ok a ∧ (f a (m s).2).1 = .ok b := by
  rw [bind_apply]
  cases (m s).1 with
  | ok a => simp
  | error e => simp

@[simp] theorem bind_pure_state (m : Program σ ε α) (b : β) (s : σ) :
    ((m >>= fun _ => pure b) s).2 = (m s).2 := by
  rw [bind_apply]
  cases (m s).1 <;> rfl

theorem ensures_bind {S : β → Prop} {m : Program σ ε α} {f : α → Program σ ε β}
    (hm : Ensures I m Q) (hf : ∀ a, Q a → Ensures I (f a) S) : Ensures I (m >>= f) S := by
  intro s hs
  obtain ⟨hs', ha⟩ := hm s hs
  rw [bind_apply]
  cases hr : (m s).1 with
  | ok a => exact hf a (ha a hr) _ hs'
  | error e => exact ⟨hs', fun b hb => by cases hb⟩

theorem keeps_bind {m : Program σ ε α} {f : α → Program σ ε β} (hm : Keeps I m)
    (hf : ∀ a, Keeps I (f a)) : Keeps I (m >>= f) :=
  ensures_bind hm fun a _ => hf a

theorem tryCatch_apply (m : Program σ ε α) (handler : ε → Program σ ε α) (s : σ) :
    (tryCatch m handler : Program σ ε α) s =
      match (m s).1 with
      | .ok a => (.ok a, (m s).2)
      | .error e => handler e (m s).2 := by
  change (match (m s).1 with | .ok a => pure (Except.ok a) | .error e => (handler e : StateM σ _))
    (m s).2 = _
  cases (m s).1 <;> rfl

theorem keeps_tryCatch {m : Program σ ε α} {handler : ε → Program σ ε α} (hm : Keeps I m)
    (hh : ∀ e, Keeps I (handler e)) : Keeps I (tryCatch m handler) := by
  intro s hs
  have hs' := (hm s hs).1
  rw [tryCatch_apply]
  cases hr : (m s).1 with
  | ok a => exact ⟨hs', fun _ _ => trivial⟩
  | error e => exact ⟨(hh e _ hs').1, fun _ _ => trivial⟩

theorem tryCatch_pure_state (m : Program σ ε α) (a : α) (s : σ) :
    ((tryCatch m (fun _ => pure a) : Program σ ε α) s).2 = (m s).2 := by
  rw [tryCatch_apply]
  cases (m s).1 <;> rfl

theorem keeps_ite {c : Prop} [Decidable c] {m m' : Program σ ε α} (h : c → Keeps I m)
    (h' : ¬ c → Keeps I m') : Keeps I (if c then m else m') := by
  by_cases hc : c
  · rw [if_pos hc]
    exact h hc
  · rw [if_neg hc]
    exact h' hc

theorem keeps_forM {f : β → Program σ ε PUnit} {bs : List β} (h : ∀ b ∈ bs, Keeps I (f b)) :
    Keeps I (bs.forM f) := by
  induction bs with
  | nil => exact keeps_pure _
  | cons b bs ih =>
    exact keeps_bind (h b List.mem_cons_self) fun _ =>
      ih fun c hc => h c (List.mem_cons_of_mem _ hc)

theorem ensures_foldlM {S : β → Prop} {f : β → α → Program σ ε β} {b : β} {as : List α}
    (hb : S b) (h : ∀ c a, S c → a ∈ as → Ensures I (f c a) S) : Ensures I (as.foldlM f b) S := by
  induction as generalizing b with
  | nil => exact ensures_pure hb
  | cons a as ih =>
    rw [List.foldlM_cons]
    exact ensures_bind (h b a hb List.mem_cons_self) fun c hc =>
      ih hc fun d e hd he => h d e hd (List.mem_cons_of_mem _ he)

theorem commit_apply (m : Work σ ε α) (s : σ) :
    (liftM m : Program σ ε α) s =
      match m s with
      | .ok (a, s') => (.ok a, s')
      | .error e => (.error e, s) := rfl

theorem read_apply (r : Read σ ε α) (s : σ) : (liftM r : Program σ ε α) s = (r s, s) := by
  change Work.commit (Read.toWork r) s = _
  unfold Work.commit Read.toWork
  cases r s <;> rfl

/-- A program that starts with a read: the read fails, or the rest runs in the same state. -/
theorem after_read (r : Read σ ε α) (f : α → Program σ ε β) (s : σ) :
    ((liftM r >>= f : Program σ ε β) s).2 = s ∨
      ∃ a, r s = .ok a ∧ ((liftM r >>= f : Program σ ε β) s).2 = (f a s).2 := by
  rw [bind_apply, read_apply]
  cases r s with
  | ok a => exact Or.inr ⟨a, rfl, rfl⟩
  | error e => exact Or.inl rfl

/-- The state after a unit of work: the committed one, or the one before. -/
theorem work_state (m : Work σ ε α) (s : σ) :
    (∃ a, m s = .ok (a, ((liftM m : Program σ ε α) s).2)) ∨ ((liftM m : Program σ ε α) s).2 = s := by
  rw [commit_apply]
  cases h : m s with
  | ok p => exact Or.inl ⟨p.1, rfl⟩
  | error e => exact Or.inr rfl

theorem ensures_read {r : Read σ ε α} (h : ∀ s, I s → ∀ a, r s = .ok a → Q a) :
    Ensures I (liftM r : Program σ ε α) Q := by
  intro s hs
  rw [read_apply]
  exact ⟨hs, h s hs⟩

theorem keeps_read (r : Read σ ε α) : Keeps I (liftM r : Program σ ε α) :=
  ensures_read fun _ _ _ _ => trivial

/-- A read whose value does not matter. -/
theorem keeps_after_read {r : Read σ ε α} {f : α → Program σ ε β} (hf : ∀ a, Keeps I (f a)) :
    Keeps I (liftM r >>= f) :=
  keeps_bind (keeps_read r) hf

theorem ensures_work {m : Work σ ε α} (h : Work.Ensures I m Q) :
    Ensures I (liftM m : Program σ ε α) Q := by
  intro s hs
  rw [commit_apply]
  cases hm : m s with
  | ok p =>
    obtain ⟨hs', hq⟩ := h s hs p.1 p.2 hm
    exact ⟨hs', fun a ha => Except.ok.inj ha ▸ hq⟩
  | error e => exact ⟨hs, fun a ha => by cases ha⟩

theorem keeps_work {m : Work σ ε α} (h : Work.Keeps I m) : Keeps I (liftM m : Program σ ε α) :=
  ensures_work h

/-! ## Programs that end well -/

/-- The program ends without an exception, and `Q` holds of its value and of the state after it. -/
def Succeeds (m : Program σ ε α) (s : σ) (Q : α → σ → Prop) : Prop :=
  ∃ a s', m s = (.ok a, s') ∧ Q a s'

theorem succeeds_pure {s : σ} {a : α} {Q : α → σ → Prop} (h : Q a s) :
    Succeeds (pure a : Program σ ε α) s Q := ⟨a, s, rfl, h⟩

theorem succeeds_bind {m : Program σ ε α} {f : α → Program σ ε β} {s : σ} {P : α → σ → Prop}
    {Q : β → σ → Prop} (hm : Succeeds m s P) (hf : ∀ a t, P a t → Succeeds (f a) t Q) :
    Succeeds (m >>= f) s Q := by
  obtain ⟨a, t, hrun, hp⟩ := hm
  obtain ⟨b, t', hrun', hq⟩ := hf a t hp
  refine ⟨b, t', ?_, hq⟩
  rw [bind_apply, hrun]
  exact hrun'

/-- A loop whose invariant says which elements it is past. -/
theorem succeeds_forM {f : β → Program σ ε PUnit} {bs : List β} {J : List β → σ → Prop}
    (h : ∀ before b after s, bs = before ++ b :: after → J before s →
      Succeeds (f b) s fun _ => J (before ++ [b])) {s : σ} (hs : J [] s) :
    Succeeds (bs.forM f) s fun _ => J bs := by
  have hloop : ∀ rest before s, bs = before ++ rest → J before s →
      Succeeds (rest.forM f) s fun _ => J bs := by
    intro rest
    induction rest with
    | nil =>
      intro before s heq hj
      rw [heq, List.append_nil]
      exact succeeds_pure hj
    | cons b rest ih =>
      intro before s heq hj
      apply succeeds_bind (h before b rest s heq hj)
      intro _ t ht
      exact ih (before ++ [b]) t (by rw [heq, List.append_assoc, List.singleton_append]) ht
  exact hloop bs [] s rfl hs

/-! ## Two runs -/

variable {R : σ → σ → Prop}

theorem lift_bind (r : Read σ ε α) (f : α → Read σ ε β) :
    (liftM (r >>= f) : Program σ ε β) = liftM r >>= fun a => liftM (f a) := by
  funext s
  rw [bind_apply, read_apply, read_apply]
  change (((r s) >>= fun a => f a s), s) = _
  cases r s with
  | ok a => exact (read_apply (f a) s).symm
  | error e => rfl

/-- From these two states the program has one result, and ends in states that `R` relates. -/
def Parallel (R : σ → σ → Prop) (m : Program σ ε α) (s s' : σ) : Prop :=
  (m s).1 = (m s').1 ∧ R (m s).2 (m s').2

section

variable {s s' : σ}

theorem parallel_pure (a : α) (h : R s s') : Parallel R (pure a : Program σ ε α) s s' := ⟨rfl, h⟩

theorem parallel_read {r : Read σ ε α} (hr : Read.Agree s s' r) (h : R s s') :
    Parallel R (liftM r : Program σ ε α) s s' := by
  unfold Parallel
  rw [read_apply, read_apply]
  exact ⟨hr, h⟩

theorem parallel_bind {m : Program σ ε α} {f : α → Program σ ε β} (hm : Parallel R m s s')
    (hf : ∀ a, (m s).1 = .ok a → R (m s).2 (m s').2 → Parallel R (f a) (m s).2 (m s').2) :
    Parallel R (m >>= f) s s' := by
  obtain ⟨hvalue, hstate⟩ := hm
  unfold Parallel
  rw [bind_apply, bind_apply, ← hvalue]
  cases ha : (m s).1 with
  | ok a => exact hf a ha hstate
  | error e => exact ⟨rfl, hstate⟩

theorem parallel_after_read {r : Read σ ε α} {f : α → Program σ ε β} (hr : Read.Agree s s' r) (h : R s s')
    (hf : ∀ a, r s = .ok a → Parallel R (f a) s s') :
    Parallel R (liftM r >>= f) s s' := by
  apply parallel_bind (parallel_read hr h)
  intro a ha _
  rw [read_apply] at ha
  rw [read_apply, read_apply]
  exact hf a ha

theorem parallel_work {m : Work σ ε α} (hm : Work.Parallel R m s s') (h : R s s') :
    Parallel R (liftM m : Program σ ε α) s s' := by
  unfold Parallel
  rw [commit_apply, commit_apply]
  rcases hm with ⟨a, t, t', ha, ha', ht⟩ | ⟨e, he, he'⟩
  · rw [ha, ha']
    exact ⟨rfl, ht⟩
  · rw [he, he']
    exact ⟨rfl, h⟩

end

/-! ## Steps of a program -/

/-- The program gets where it ends by steps of `R`. -/
def Reaches (R : σ → σ → Prop) (m : Program σ ε α) : Prop := ∀ s, Relation.ReflTransGen R s (m s).2

theorem reaches_pure (a : α) : Reaches R (pure a : Program σ ε α) := fun _ => .refl

theorem reaches_throw (e : ε) : Reaches R (throw e : Program σ ε α) := fun _ => .refl

theorem reaches_bind {m : Program σ ε α} {f : α → Program σ ε β} (hm : Reaches R m)
    (hf : ∀ a, Reaches R (f a)) : Reaches R (m >>= f) := by
  intro s
  rw [bind_apply]
  cases (m s).1 with
  | ok a => exact (hm s).trans (hf a _)
  | error e => exact hm s

theorem reaches_map {m : Program σ ε α} (f : α → β) (hm : Reaches R m) : Reaches R (f <$> m) := by
  rw [map_eq_pure_bind]
  exact reaches_bind hm fun a => reaches_pure (f a)

theorem reaches_read (r : Read σ ε α) : Reaches R (liftM r : Program σ ε α) := by
  intro s
  rw [read_apply]

/-- A unit of work that is steps of `R` when it commits. -/
theorem reaches_work {m : Work σ ε α}
    (h : ∀ s a s', m s = .ok (a, s') → Relation.ReflTransGen R s s') :
    Reaches R (liftM m : Program σ ε α) := by
  intro s
  rcases work_state m s with ⟨a, ha⟩ | heq
  · exact h s a _ ha
  · rw [heq]

theorem reaches_forM {f : β → Program σ ε PUnit} {bs : List β} (h : ∀ b ∈ bs, Reaches R (f b)) :
    Reaches R (bs.forM f) := by
  induction bs with
  | nil => exact reaches_pure _
  | cons b bs ih =>
    apply reaches_bind (h b List.mem_cons_self)
    intro _
    exact ih fun c hc => h c (List.mem_cons_of_mem _ hc)

theorem reaches_foldlM {f : β → α → Program σ ε β} (h : ∀ b a, Reaches R (f b a)) (b : β)
    (as : List α) : Reaches R (as.foldlM f b) := by
  induction as generalizing b with
  | nil => exact reaches_pure b
  | cons a as ih =>
    rw [List.foldlM_cons]
    exact reaches_bind (h b a) ih

end Program

end Orchestract
