import Orchestract.Domain.Slugs

/-!
# Integers in a text

The texts that `int` reads, by their grammar: blanks, a sign, and decimal digits of any script with
single underscores between them. Everything else is refused.
-/

namespace Orchestract.Text

set_option autoImplicit false

/-! ## Characters -/

/-- A blank before or after an integer. -/
def IntegerBlank (c : Char) : Prop := isBlank c = true ∨ (128 ≤ c.toNat ∧ isSpace c = true)

/-- Outside ASCII the digits lie between the blanks. -/
theorem digitZeros_between {first : Nat} (h : first ∈ digitZeros) :
    first = 48 ∨ (0xA0 < first ∧ first + 10 ≤ 0x1680) ∨ (0x1680 < first ∧ first + 10 ≤ 0x2000) ∨
      0x3000 < first := by
  have hall : digitZeros.all (fun first => first = 48 ∨ (0xA0 < first ∧ first + 10 ≤ 0x1680) ∨
      (0x1680 < first ∧ first + 10 ≤ 0x2000) ∨ 0x3000 < first) = true := by decide
  exact of_decide_eq_true (List.all_eq_true.mp hall first h)

theorem decimalDigit_eq_some {c : Char} {d : Nat} (h : decimalDigit c = some d) :
    d < 10 ∧ ∃ first ∈ digitZeros, c.toNat = first + d := by
  obtain ⟨first, hfind, rfl⟩ := Option.map_eq_some_iff.mp h
  have hrange : first ≤ c.toNat ∧ c.toNat < first + 10 := by simpa using List.find?_some hfind
  refine ⟨by omega, first, List.mem_of_find?_eq_some hfind, ?_⟩
  omega

theorem decimalDigit_of_isDigit {c : Char} (h : c.isDigit = true) : decimalDigit c = some (c.toNat - 48) := by
  obtain ⟨hlow, hhigh⟩ := toNat_of_isDigit h
  have hzeros : digitZeros = 48 :: digitZeros.tail := rfl
  unfold decimalDigit
  rw [hzeros, List.find?_cons_of_pos (by rw [decide_eq_true_eq]; omega)]
  rfl

theorem decimalDigit_of_isSpace {c : Char} (hascii : 128 ≤ c.toNat) (h : isSpace c = true) :
    decimalDigit c = none := by
  cases hdigit : decimalDigit c with
  | none => rfl
  | some d =>
    obtain ⟨hd, first, hfirst, hc⟩ := decimalDigit_eq_some hdigit
    have hbetween := digitZeros_between hfirst
    simp only [isSpace, List.mem_cons, List.not_mem_nil, or_false, Bool.or_eq_true, Bool.and_eq_true,
      decide_eq_true_eq] at h
    omega

/-- A digit is read as the digit of ASCII with its value. -/
theorem toAscii_of_decimalDigit {c : Char} {d : Nat} (h : decimalDigit c = some d) :
    toAscii c = Nat.digitChar d := by
  obtain ⟨hd, first, hfirst, hc⟩ := decimalDigit_eq_some h
  by_cases hascii : c.toNat < 128
  · rw [toAscii_of_lt hascii]
    apply Char.toNat_inj.mp
    rw [Nat.toNat_digitChar_of_lt_ten hd]
    have hbetween := digitZeros_between hfirst
    omega
  · have hspace : ¬ isSpace c = true := by
      intro hspace
      rw [decimalDigit_of_isSpace (by omega) hspace] at h
      cases h
    unfold toAscii
    rw [if_neg hascii, if_neg hspace, h]

/-- What is no digit is read as no digit. -/
theorem toAscii_of_not_decimalDigit {c : Char} (h : decimalDigit c = none) :
    toAscii c = c ∧ c.toNat < 128 ∨ toAscii c = ' ' ∧ 128 ≤ c.toNat ∧ isSpace c = true ∨
      toAscii c = '?' ∧ 128 ≤ c.toNat ∧ isSpace c = false := by
  by_cases hascii : c.toNat < 128
  · exact Or.inl ⟨toAscii_of_lt hascii, hascii⟩
  · right
    have hlow : 128 ≤ c.toNat := Nat.le_of_not_lt hascii
    unfold toAscii
    rw [if_neg hascii, h]
    cases hspace : isSpace c with
    | true => exact Or.inl ⟨rfl, hlow, rfl⟩
    | false => exact Or.inr ⟨rfl, hlow, rfl⟩

theorem isDigit_toAscii_iff {c : Char} : (toAscii c).isDigit = true ↔ (decimalDigit c).isSome = true := by
  cases hdigit : decimalDigit c with
  | some d =>
    obtain ⟨hd, _⟩ := decimalDigit_eq_some hdigit
    rw [toAscii_of_decimalDigit hdigit, Nat.isDigit_digitChar]
    simp [hd]
  | none =>
    simp only [Option.isSome_none, Bool.false_eq_true, iff_false]
    rcases toAscii_of_not_decimalDigit hdigit with ⟨hread, _⟩ | ⟨hread, _⟩ | ⟨hread, _⟩
    · intro h
      rw [hread] at h
      rw [decimalDigit_of_isDigit h] at hdigit
      cases hdigit
    · rw [hread]
      decide
    · rw [hread]
      decide

theorem isBlank_toAscii_iff {c : Char} : isBlank (toAscii c) = true ↔ IntegerBlank c := by
  have houtside : 128 ≤ c.toNat → isBlank c = false := by
    intro hlow
    simp only [isBlank, Bool.or_eq_false_iff, Bool.and_eq_false_iff, decide_eq_false_iff_not]
    omega
  unfold IntegerBlank
  cases hdigit : decimalDigit c with
  | some d =>
    obtain ⟨hd, first, hfirst, hc⟩ := decimalDigit_eq_some hdigit
    have hread : (toAscii c).isDigit = true := isDigit_toAscii_iff.mpr (by rw [hdigit]; rfl)
    rw [not_isBlank_of_isDigit hread]
    simp only [Bool.false_eq_true, false_iff, not_or, not_and, Bool.not_eq_true]
    constructor
    · by_cases hascii : c.toNat < 128
      · rw [toAscii_of_lt hascii] at hread
        exact not_isBlank_of_isDigit hread
      · exact houtside (by omega)
    · intro hlow
      cases hspace : isSpace c with
      | false => rfl
      | true =>
        rw [decimalDigit_of_isSpace hlow hspace] at hdigit
        cases hdigit
  | none =>
    rcases toAscii_of_not_decimalDigit hdigit with
      ⟨hread, hascii⟩ | ⟨hread, hlow, hspace⟩ | ⟨hread, hlow, hspace⟩
    · rw [hread]
      exact ⟨Or.inl, fun h => h.resolve_right fun hright => by omega⟩
    · rw [hread]
      exact ⟨fun _ => Or.inr ⟨hlow, hspace⟩, fun _ => by decide⟩
    · rw [hread, houtside hlow, hspace]
      simp [isBlank]

/-- Only an underscore is read as one, and so are the signs. -/
theorem toAscii_eq_iff {c x : Char} (hx : x ∈ ['_', '+', '-']) : toAscii c = x ↔ c = x := by
  have hall : ['_', '+', '-'].all
      (fun x => x.toNat < 128 ∧ x.isDigit = false ∧ x ≠ ' ' ∧ x ≠ '?') = true := by decide
  obtain ⟨hx, hnot, hspace, hquery⟩ := of_decide_eq_true (List.all_eq_true.mp hall x hx)
  constructor
  · intro h
    cases hdigit : decimalDigit c with
    | some d =>
      have hread : (toAscii c).isDigit = true := isDigit_toAscii_iff.mpr (by rw [hdigit]; rfl)
      rw [h, hnot] at hread
      cases hread
    | none =>
      rcases toAscii_of_not_decimalDigit hdigit with ⟨hread, _⟩ | ⟨hread, _⟩ | ⟨hread, _⟩
      · exact hread.symm.trans h
      · exact absurd (h.symm.trans hread) hspace
      · exact absurd (h.symm.trans hread) hquery
  · rintro rfl
    exact toAscii_of_lt hx

/-! ## Groups of digits -/

theorem flatten_modifyHead {α : Type} (x : α) {L : List (List α)} (h : L ≠ []) :
    (L.modifyHead (x :: ·)).flatten = x :: L.flatten := by
  cases L with
  | nil => exact absurd rfl h
  | cons l L => rfl

theorem flatten_splitOn (a : Char) (s : List Char) : (s.splitOn a).flatten = s.filter (· ≠ a) := by
  induction s with
  | nil => rfl
  | cons c s ih =>
    rw [List.splitOn_cons_eq_if_modifyHead]
    by_cases hc : c = a
    · rw [if_pos (beq_iff_eq.mpr hc), List.filter_cons_of_neg (by simpa using hc), List.flatten_cons,
        List.nil_append, ih]
    · rw [if_neg (by simpa using hc), List.filter_cons_of_pos (by simpa using hc),
        flatten_modifyHead c (List.splitOn_ne_nil a s), ih]

/-- A text is cut where the characters read for it are cut. -/
theorem splitOn_map {f : Char → Char} {a : Char} (hf : ∀ c, f c = a ↔ c = a) (s : List Char) :
    (s.map f).splitOn a = (s.splitOn a).map (List.map f) := by
  induction s with
  | nil => rfl
  | cons c s ih =>
    rw [List.map_cons, List.splitOn_cons_eq_if_modifyHead, List.splitOn_cons_eq_if_modifyHead, ih]
    by_cases hc : c = a
    · rw [if_pos (beq_iff_eq.mpr ((hf c).mpr hc)), if_pos (beq_iff_eq.mpr hc)]
      rfl
    · rw [if_neg (by simpa [hf c] using hc), if_neg (by simpa using hc)]
      cases s.splitOn a with
      | nil => rfl
      | cons group groups => rfl

/-- Groups of decimal digits, at most 4300 digits in all. -/
structure DigitGroups (groups : List (List Char)) : Prop where
  ne : groups ≠ []
  digits : ∀ group ∈ groups, group ≠ [] ∧ ∀ c ∈ group, (decimalDigit c).isSome = true
  limit : groups.flatten.length ≤ 4300

/-- The number that the digits write. -/
def digitsValue (s : List Char) : Nat := s.foldl (fun n c => 10 * n + (decimalDigit c).getD 0) 0

theorem toAscii_value {c : Char} (h : (decimalDigit c).isSome = true) :
    (toAscii c).toNat - '0'.toNat = (decimalDigit c).getD 0 := by
  obtain ⟨d, hd⟩ := Option.isSome_iff_exists.mp h
  rw [toAscii_of_decimalDigit hd, hd]
  exact Nat.toNat_digitChar_sub_48_of_lt_ten (decimalDigit_eq_some hd).1

/-- Only digits are counted, so the limit is one on the digits. -/
theorem countP_digits {s : List Char}
    (h : ∀ group ∈ s.splitOn '_', ∀ c ∈ group, (decimalDigit c).isSome = true) :
    (s.map toAscii).countP Char.isDigit = (s.splitOn '_').flatten.length := by
  have hdigit : ∀ c ∈ (s.splitOn '_').flatten, (toAscii c).isDigit = true := by
    intro c hc
    obtain ⟨group, hgroup, hmem⟩ := List.mem_flatten.mp hc
    exact isDigit_toAscii_iff.mpr (h group hgroup c hmem)
  have hmark : ∀ c ∈ s, (toAscii c).isDigit = true ↔ (toAscii c).isDigit = true ∧ (c ≠ '_') := by
    rintro c -
    refine ⟨fun hc => ⟨hc, ?_⟩, And.left⟩
    rintro rfl
    exact absurd hc (by decide)
  have hlength : (s.splitOn '_').flatten.countP (Char.isDigit ∘ toAscii) = (s.splitOn '_').flatten.length :=
    List.countP_eq_length.mpr hdigit
  rw [List.countP_map, ← hlength, flatten_splitOn, List.countP_filter]
  apply List.countP_congr
  intro c hc
  simpa using hmark c hc

theorem digits_eq_some_iff {s : List Char} {n : Nat} :
    digits (s.map toAscii) = some n ↔ DigitGroups (s.splitOn '_') ∧ digitsValue (s.splitOn '_').flatten = n := by
  have hsplit : (s.map toAscii).splitOn '_' = (s.splitOn '_').map (List.map toAscii) :=
    splitOn_map (fun c => toAscii_eq_iff (by simp)) s
  have hgroups : ((s.splitOn '_').map (List.map toAscii)).all
      (fun group => !group.isEmpty && group.all Char.isDigit) = true ↔
        ∀ group ∈ s.splitOn '_', group ≠ [] ∧ ∀ c ∈ group, (decimalDigit c).isSome = true := by
    simp only [List.all_map, List.all_eq_true, Function.comp_apply, Bool.and_eq_true, Bool.not_eq_true',
      List.isEmpty_eq_false_iff, ne_eq, List.map_eq_nil_iff, isDigit_toAscii_iff]
  have hvalue : (∀ group ∈ s.splitOn '_', ∀ c ∈ group, (decimalDigit c).isSome = true) →
      (((s.splitOn '_').map (List.map toAscii)).flatten).foldl (fun n c => 10 * n + (c.toNat - '0'.toNat)) 0 =
        digitsValue (s.splitOn '_').flatten := by
    intro hdigits
    rw [← List.map_flatten, List.foldl_map]
    apply List.foldl_ext
    intro n c hc
    obtain ⟨group, hgroup, hmem⟩ := List.mem_flatten.mp hc
    rw [toAscii_value (hdigits group hgroup c hmem)]
  unfold digits natural
  rw [hsplit]
  by_cases hall : ∀ group ∈ s.splitOn '_', group ≠ [] ∧ ∀ c ∈ group, (decimalDigit c).isSome = true
  · have hdigits := fun group hgroup => (hall group hgroup).2
    rw [if_pos (hgroups.mpr hall), countP_digits hdigits, hvalue hdigits]
    by_cases hlimit : (s.splitOn '_').flatten.length ≤ 4300
    · rw [if_pos hlimit, Option.some.injEq]
      exact ⟨fun h => ⟨⟨List.splitOn_ne_nil _ _, hall, hlimit⟩, h⟩, And.right⟩
    · rw [if_neg hlimit]
      constructor
      · intro h
        cases h
      · intro h
        exact absurd h.1.limit hlimit
  · rw [if_neg fun h => hall (hgroups.mp h), ite_self]
    constructor
    · intro h
      cases h
    · intro h
      exact absurd h.1.digits hall

/-! ## Integers -/

/-- A text that `int` reads. -/
structure IntegerNumeral where
  before : List Char
  sign : List Char
  groups : List (List Char)
  after : List Char
  blank : ∀ c ∈ before ++ after, IntegerBlank c
  signs : sign ∈ [[], ['+'], ['-']]
  grouped : DigitGroups groups

namespace IntegerNumeral

variable (i : IntegerNumeral)

def digits : List Char := ['_'].intercalate i.groups

def text : List Char := i.before ++ (i.sign ++ i.digits ++ i.after)

def value : Int := (if i.sign = ['-'] then -1 else 1) * digitsValue i.groups.flatten

theorem splitOn_digits : i.digits.splitOn '_' = i.groups := by
  apply List.splitOn_intercalate '_' _ i.grouped.ne
  intro group hgroup hmem
  have hdigit := (i.grouped.digits group hgroup).2 '_' hmem
  exact absurd hdigit (by decide)

theorem mem_digits {c : Char} (h : c ∈ i.digits) : (decimalDigit c).isSome = true ∨ c = '_' := by
  by_cases hc : c = '_'
  · exact Or.inr hc
  · left
    have hmem : c ∈ i.groups.flatten := by
      rw [← i.splitOn_digits, flatten_splitOn]
      exact List.mem_filter.mpr ⟨h, by simpa using hc⟩
    obtain ⟨group, hgroup, hmem⟩ := List.mem_flatten.mp hmem
    exact (i.grouped.digits group hgroup).2 c hmem

theorem digits_ne : i.digits ≠ [] := by
  intro hnil
  have hgroups := i.splitOn_digits
  rw [hnil] at hgroups
  have hgroup : [] ∈ i.groups := by
    rw [← hgroups]
    simp
  exact (i.grouped.digits [] hgroup).1 rfl

theorem digits_read : Text.digits (i.digits.map toAscii) = some (digitsValue i.groups.flatten) := by
  rw [digits_eq_some_iff, i.splitOn_digits]
  exact ⟨i.grouped, rfl⟩

/-- Nothing of the sign and the digits is blank. -/
theorem not_blank {c : Char} (h : c ∈ i.sign ++ i.digits) : isBlank (toAscii c) = false := by
  rcases List.mem_append.mp h with h | h
  · have hall : [[], ['+'], ['-']].all (fun sign => sign.all fun c => !isBlank (toAscii c)) = true := by decide
    have hsign := List.all_eq_true.mp (List.all_eq_true.mp hall i.sign i.signs) c h
    simpa using hsign
  · rcases i.mem_digits h with hdigit | rfl
    · exact not_isBlank_of_isDigit (isDigit_toAscii_iff.mpr hdigit)
    · decide

theorem strip_text : stripBy isBlank (i.text.map toAscii) = (i.sign ++ i.digits).map toAscii := by
  have hstays : ∀ c ∈ (i.sign ++ i.digits).map toAscii, isBlank c = false := by
    intro c hc
    obtain ⟨d, hd, rfl⟩ := List.mem_map.mp hc
    exact i.not_blank hd
  have hblank : ∀ s : List Char, (∀ c ∈ s, IntegerBlank c) → ∀ c ∈ s.map toAscii, isBlank c = true := by
    intro s hs c hc
    obtain ⟨d, hd, rfl⟩ := List.mem_map.mp hc
    exact isBlank_toAscii_iff.mpr (hs d hd)
  have hne : (i.sign ++ i.digits).map toAscii ≠ [] := by
    simp [i.digits_ne]
  unfold text
  rw [List.map_append, List.map_append,
    stripBy_append hne hstays (hblank i.after fun c hc => i.blank c (List.mem_append_right _ hc)),
    List.dropWhile_eq_nil_iff.mpr (hblank i.before fun c hc => i.blank c (List.mem_append_left _ hc)),
    List.nil_append]

/-- A character that is no blank, sign, underscore or digit stands in no integer. -/
theorem notMem_text {c : Char} (hblank : ¬ IntegerBlank c) (hmark : c ∉ ['_', '+', '-'])
    (hdigit : decimalDigit c = none) : c ∉ i.text := by
  intro h
  have hcore : c ∈ i.sign ++ i.digits := by
    rcases List.mem_append.mp h with h | h
    · exact absurd (i.blank c (List.mem_append_left _ h)) hblank
    · rcases List.mem_append.mp h with h | h
      · exact h
      · exact absurd (i.blank c (List.mem_append_right _ h)) hblank
  rcases List.mem_append.mp hcore with h | h
  · have hsigns := i.signs
    simp only [List.mem_cons, List.not_mem_nil, or_false] at hsigns
    rcases hsigns with hsign | hsign | hsign
    · rw [hsign] at h
      cases h
    · rw [hsign] at h
      exact hmark (List.mem_cons_of_mem _ (List.mem_cons.mpr (Or.inl (List.mem_singleton.mp h))))
    · rw [hsign] at h
      exact hmark (List.mem_cons_of_mem _ (List.mem_cons_of_mem _ h))
  · rcases i.mem_digits h with h | h
    · rw [hdigit] at h
      cases h
    · exact hmark (List.mem_cons.mpr (Or.inl h))

end IntegerNumeral

/-! What is left after the blanks is read with its sign. -/

theorem int_minus {s t : List Char} (h : stripBy isBlank (s.map toAscii) = '-' :: t) :
    int s = (fun n : Nat => -(n : Int)) <$> digits t := by
  unfold int
  rw [h]
  rfl

theorem int_plus {s t : List Char} (h : stripBy isBlank (s.map toAscii) = '+' :: t) :
    int s = (fun n : Nat => (n : Int)) <$> digits t := by
  unfold int
  rw [h]
  rfl

theorem int_unsigned {s t : List Char} (h : stripBy isBlank (s.map toAscii) = t)
    (ht : ∀ c, t.head? = some c → c ≠ '+' ∧ c ≠ '-') : int s = (fun n : Nat => (n : Int)) <$> digits t := by
  unfold int
  rw [h]
  split
  · exact absurd rfl (ht '-' rfl).2
  · exact absurd rfl (ht '+' rfl).1
  · rfl

theorem IntegerNumeral.int_text (i : IntegerNumeral) : int i.text = some i.value := by
  have hvalue : i.value = (if i.sign = ['-'] then -1 else 1) * digitsValue i.groups.flatten := rfl
  have hsigns := i.signs
  simp only [List.mem_cons, List.not_mem_nil, or_false] at hsigns
  rcases hsigns with hsign | hsign | hsign
  · have hstrip : stripBy isBlank (i.text.map toAscii) = i.digits.map toAscii := by
      rw [i.strip_text, hsign, List.nil_append]
    have hhead : ∀ c, (i.digits.map toAscii).head? = some c → c ≠ '+' ∧ c ≠ '-' := by
      intro c hc
      obtain ⟨d, hd, rfl⟩ := List.mem_map.mp (List.mem_of_head? hc)
      rcases i.mem_digits hd with hdigit | rfl
      · have hread := isDigit_toAscii_iff.mpr hdigit
        constructor
        · intro hplus
          rw [hplus] at hread
          cases hread
        · intro hminus
          rw [hminus] at hread
          cases hread
      · decide
    rw [int_unsigned hstrip hhead, i.digits_read, hvalue, hsign]
    simp
  · have hstrip : stripBy isBlank (i.text.map toAscii) = '+' :: i.digits.map toAscii := by
      rw [i.strip_text, hsign]
      rfl
    rw [int_plus hstrip, i.digits_read, hvalue, hsign]
    simp
  · have hstrip : stripBy isBlank (i.text.map toAscii) = '-' :: i.digits.map toAscii := by
      rw [i.strip_text, hsign]
      rfl
    rw [int_minus hstrip, i.digits_read, hvalue, hsign]
    simp

theorem stripBy_map (p : Char → Bool) (f : Char → Char) (s : List Char) :
    stripBy p (s.map f) = (stripBy (p ∘ f) s).map f := by
  unfold stripBy List.rdropWhile
  rw [List.dropWhile_map, ← List.map_reverse, List.dropWhile_map, List.map_reverse]

/-- A sign and the digits that are left behind it. -/
theorem exists_numeral_of_sign (sign : List Char) {text t : List Char} {m : Nat}
    (hsign : sign ∈ [[], ['+'], ['-']])
    (hcore : stripBy (isBlank ∘ toAscii) text = sign ++ t) (hread : digits (t.map toAscii) = some m) :
    ∃ i : IntegerNumeral, i.text = text ∧ i.value = (if sign = ['-'] then -1 else 1) * (m : Int) := by
  obtain ⟨before, after, htext, hblank⟩ := stripBy_parts (isBlank ∘ toAscii) text
  obtain ⟨hgrouped, hvalue⟩ := digits_eq_some_iff.mp hread
  refine ⟨⟨before, sign, t.splitOn '_', after, fun c hc => isBlank_toAscii_iff.mp (hblank c hc), hsign,
    hgrouped⟩, ?_, ?_⟩
  · unfold IntegerNumeral.text IntegerNumeral.digits
    rw [List.intercalate_splitOn, ← hcore]
    exact htext.symm
  · unfold IntegerNumeral.value
    rw [hvalue]

/-- Whatever `int` reads is such a text. -/
theorem exists_numeral {text : List Char} {n : Int} (h : int text = some n) :
    ∃ i : IntegerNumeral, i.text = text ∧ i.value = n := by
  have hstrip := stripBy_map isBlank toAscii text
  cases hcore : stripBy (isBlank ∘ toAscii) text with
  | nil =>
    rw [hcore] at hstrip
    rw [int_unsigned hstrip fun c hc => by cases hc] at h
    cases h
  | cons c t =>
    rw [hcore] at hstrip
    by_cases hminus : c = '-'
    · subst hminus
      rw [int_minus hstrip] at h
      obtain ⟨m, hm, rfl⟩ := Option.map_eq_some_iff.mp h
      simpa using exists_numeral_of_sign ['-'] (by simp) hcore hm
    · by_cases hplus : c = '+'
      · subst hplus
        rw [int_plus hstrip] at h
        obtain ⟨m, hm, rfl⟩ := Option.map_eq_some_iff.mp h
        simpa using exists_numeral_of_sign ['+'] (by simp) hcore hm
      · have hhead : ∀ d, ((c :: t).map toAscii).head? = some d → d ≠ '+' ∧ d ≠ '-' := by
          intro d hd
          obtain rfl : toAscii c = d := Option.some.inj hd
          exact ⟨fun h => hplus ((toAscii_eq_iff (by simp)).mp h),
            fun h => hminus ((toAscii_eq_iff (by simp)).mp h)⟩
        rw [int_unsigned hstrip hhead] at h
        obtain ⟨m, hm, rfl⟩ := Option.map_eq_some_iff.mp h
        simpa using exists_numeral_of_sign [] (by simp) hcore hm

end Orchestract.Text
