import Orchestract.Domain.Text
import Orchestract.Library.Numerals

/-!
# Slugs of numbered names

The slug of a name is that of the stripped name. A number at the end of a name, or before a closing
bracket there, is the end of its slug, so names that differ in it have different slugs.
-/

namespace Orchestract.Text

set_option autoImplicit false

variable {p : Char → Bool} {s t u : List Char}

/-! ## Stripping -/

theorem stripBy_stripBy (p : Char → Bool) (s : List Char) : stripBy p (stripBy p s) = stripBy p s := by
  have hhead : (stripBy p s).dropWhile p = stripBy p s := by
    by_cases hnil : stripBy p s = []
    · rw [hnil, List.dropWhile_nil]
    · obtain ⟨c, rest, hs, hc⟩ := stripBy_head hnil
      rw [hs, List.dropWhile_cons_of_neg (by simp [hc])]
  have hlast : (stripBy p s).rdropWhile p = stripBy p s := List.rdropWhile_idempotent p (s.dropWhile p)
  calc stripBy p (stripBy p s) = ((stripBy p s).dropWhile p).rdropWhile p := rfl
    _ = stripBy p s := by rw [hhead, hlast]

theorem strip_strip (s : String) : strip (strip s) = strip s := by
  unfold strip
  rw [String.toList_ofList, stripBy_stripBy]

theorem slugify_strip (s : String) : slugify (strip s) = slugify s := by
  unfold slugify
  rw [strip_strip]

/-- What is stripped stands before and after what is left. -/
theorem stripBy_parts (p : Char → Bool) (s : List Char) :
    ∃ before after, s = before ++ (stripBy p s ++ after) ∧ ∀ c ∈ before ++ after, p c = true := by
  refine ⟨s.takeWhile p, (s.dropWhile p).rtakeWhile p, ?_, ?_⟩
  · unfold stripBy
    rw [List.rdropWhile_append_rtakeWhile, List.takeWhile_append_dropWhile]
  · intro c hc
    rcases List.mem_append.mp hc with hc | hc
    · exact List.mem_takeWhile_imp hc
    · exact List.mem_rtakeWhile_imp hc

/-- A part that stays protects what stands before it; what stands behind it goes. -/
theorem stripBy_append (hne : t ≠ []) (ht : ∀ c ∈ t, p c = false) (hu : ∀ c ∈ u, p c = true) :
    stripBy p (s ++ (t ++ u)) = s.dropWhile p ++ t := by
  obtain ⟨c, cs, rfl⟩ := List.exists_cons_of_ne_nil hne
  have hkept : ((c :: cs) ++ u).dropWhile p = (c :: cs) ++ u :=
    List.dropWhile_cons_of_neg (by simp [ht c List.mem_cons_self])
  have hhead : (s ++ ((c :: cs) ++ u)).dropWhile p = s.dropWhile p ++ (c :: cs) ++ u := by
    rw [List.dropWhile_append, hkept]
    split
    · rename_i hempty
      rw [List.isEmpty_iff.mp hempty]
      rfl
    · rw [List.append_assoc]
  have hdrop : (s.dropWhile p ++ (c :: cs) ++ u).rdropWhile p =
      (s.dropWhile p ++ (c :: cs)).rdropWhile p := by
    unfold List.rdropWhile
    rw [List.reverse_append, List.dropWhile_append_of_pos fun d hd => hu d (List.mem_reverse.mp hd)]
  have hlast : (s.dropWhile p ++ (c :: cs)).rdropWhile p = s.dropWhile p ++ (c :: cs) := by
    rw [List.rdropWhile_eq_self_iff]
    intro hl
    rw [List.getLast_append_of_right_ne_nil _ _ hne, ht _ (List.getLast_mem hne)]
    decide
  unfold stripBy
  rw [hhead, hdrop, hlast]

/-- A part whose ends stay. -/
theorem stripBy_between (hs : ∀ c ∈ s, p c = true) (hu : ∀ c ∈ u, p c = true)
    (hhead : ∃ c, t.head? = some c ∧ p c = false) (hlast : ∃ c, t.getLast? = some c ∧ p c = false) :
    stripBy p (s ++ (t ++ u)) = t := by
  obtain ⟨d, hd, hpd⟩ := hlast
  obtain ⟨init, rfl⟩ := List.getLast?_eq_some_iff.mp hd
  have hstrip : stripBy p ((s ++ init) ++ ([d] ++ u)) = (s ++ init).dropWhile p ++ [d] :=
    stripBy_append (by simp) (by simpa using hpd) hu
  rw [List.append_assoc] at hstrip ⊢
  rw [hstrip, List.dropWhile_append_of_pos hs]
  obtain ⟨c, hc, hpc⟩ := hhead
  cases init with
  | nil => rfl
  | cons x init =>
    obtain rfl : x = c := Option.some.inj hc
    rw [List.dropWhile_cons_of_neg (by simp [hpc])]

/-! ## Runs of other characters -/

/-- Characters of a slug end the run before them. -/
theorem subRuns_append (hne : t ≠ []) (ht : ∀ c ∈ t, isSlugChar c = true) (replaced : Bool) :
    subRuns replaced (s ++ (t ++ u)) = subRuns replaced s ++ (t ++ subRuns false u) := by
  have hslug : ∀ t : List Char, (∀ c ∈ t, isSlugChar c = true) →
      subRuns false (t ++ u) = t ++ subRuns false u := by
    intro t ht
    induction t with
    | nil => rfl
    | cons c t ih =>
      rw [List.cons_append, subRuns, if_pos (ht c List.mem_cons_self),
        ih fun d hd => ht d (List.mem_cons_of_mem c hd), List.cons_append]
  induction s generalizing replaced with
  | nil =>
    obtain ⟨c, cs, rfl⟩ := List.exists_cons_of_ne_nil hne
    have hfirst : subRuns replaced (c :: (cs ++ u)) = c :: subRuns false (cs ++ u) := by
      rw [subRuns, if_pos (ht c List.mem_cons_self)]
    rw [List.nil_append, List.cons_append, hfirst, hslug cs fun d hd => ht d (List.mem_cons_of_mem c hd)]
    rfl
  | cons c s ih =>
    rw [List.cons_append, subRuns, subRuns, ih false, ih true]
    split_ifs
    · rfl
    · rfl
    · rfl

theorem subRuns_other (hu : ∀ c ∈ u, isSlugChar c = false) (replaced : Bool) :
    ∀ c ∈ subRuns replaced u, c = '-' := by
  induction u generalizing replaced with
  | nil => simp [subRuns]
  | cons d u ih =>
    have hrest := ih (fun c hc => hu c (List.mem_cons_of_mem d hc)) true
    rw [subRuns, if_neg (by simp [hu d List.mem_cons_self])]
    cases replaced with
    | true => exact hrest
    | false =>
      intro c hc
      rcases List.mem_cons.mp hc with rfl | hc
      · rfl
      · exact hrest c hc

/-! ## Lower case -/

theorem isSlugChar_iff {c : Char} :
    isSlugChar c = true ↔ 97 ≤ c.toNat ∧ c.toNat ≤ 122 ∨ 48 ≤ c.toNat ∧ c.toNat ≤ 57 := by
  simp only [isSlugChar, Bool.or_eq_true, Bool.and_eq_true, decide_eq_true_eq, Char.le_def,
    UInt32.le_iff_toNat_le]
  rfl

/-- Only the letters `A` to `Z` are changed. -/
theorem toLower_eq_self {c : Char} (h : ¬ (65 ≤ c.toNat ∧ c.toNat ≤ 90)) : c.toLower = c := by
  unfold Char.toLower
  rw [dif_neg]
  simp only [ge_iff_le, UInt32.le_iff_toNat_le]
  exact h

/-- As much of the lower case of a character as its slug shows: of the letters outside ASCII only `İ`
and the Kelvin sign have one with a letter of ASCII. -/
def slugLower (c : Char) : List Char :=
  if c = 'İ' then ['i', '\u0307'] else if c = '\u212A' then ['k'] else [c.toLower]

theorem slugLower_eq {c : Char} (h : c.toNat ≠ 0x130 ∧ c.toNat ≠ 0x212A) : slugLower c = [c.toLower] := by
  have hdotted : c ≠ 'İ' := by
    rintro rfl
    exact h.1 rfl
  have hkelvin : c ≠ '\u212A' := by
    rintro rfl
    exact h.2 rfl
  unfold slugLower
  rw [if_neg hdotted, if_neg hkelvin]

/-- What is no part of a slug is all the same. -/
inductive SameInSlug : List Char → List Char → Prop
  | refl (s : List Char) : SameInSlug s s
  | other {c d : Char} (hc : isSlugChar c = false) (hd : isSlugChar d = false) : SameInSlug [c] [d]

theorem SameInSlug.subRuns_eq {s' t' : List Char} (h : SameInSlug s s')
    (hrest : ∀ replaced, subRuns replaced t = subRuns replaced t') (replaced : Bool) :
    subRuns replaced (s ++ t) = subRuns replaced (s' ++ t') := by
  cases h with
  | refl s =>
    induction s generalizing replaced with
    | nil => exact hrest replaced
    | cons c s ih => rw [List.cons_append, List.cons_append, subRuns, subRuns, ih false, ih true]
  | other hc hd => simp [subRuns, hc, hd, hrest true]

theorem not_isSlugChar_outside {c : Char} (h : 128 ≤ c.toNat) : isSlugChar c = false := by
  apply Bool.eq_false_iff.mpr
  intro hslug
  have hrange := isSlugChar_iff.mp hslug
  omega

theorem sameInSlug_lowerChar (c : Char) : SameInSlug (Lowercase.lowerChar c) (slugLower c) := by
  by_cases hdotted : c = 'İ'
  · subst hdotted
    exact .refl _
  by_cases hkelvin : c = '\u212A'
  · subst hkelvin
    have hsame : Lowercase.lowerChar '\u212A' = slugLower '\u212A' := by decide +kernel
    rw [hsame]
    exact .refl _
  have hne : c.toNat ≠ 0x130 ∧ c.toNat ≠ 0x212A :=
    ⟨fun h => hdotted (Char.toNat_inj.mp h), fun h => hkelvin (Char.toNat_inj.mp h)⟩
  rw [slugLower_eq hne]
  by_cases hascii : c.toNat < 128
  · rw [Lowercase.lowerChar_of_lt hascii]
    exact .refl _
  · obtain ⟨d, hd, houtside⟩ := Lowercase.lowerChar_outside (by omega) hdotted hne.2
    rw [hd, toLower_eq_self (by omega)]
    exact .other (not_isSlugChar_outside houtside) (not_isSlugChar_outside (by omega))

theorem subRuns_lowerFrom (before s : List Char) (replaced : Bool) :
    subRuns replaced (Lowercase.lowerFrom before s) = subRuns replaced (s.flatMap slugLower) := by
  induction s generalizing before replaced with
  | nil => rfl
  | cons c after ih =>
    refine SameInSlug.subRuns_eq ?_ (fun replaced => ih (c :: before) replaced) replaced
    split_ifs with hsigma hlast
    · subst hsigma
      exact .other (by decide) (by decide)
    · subst hsigma
      exact .other (by decide) (by decide)
    · exact sameInSlug_lowerChar c

/-- A slug does not tell the lower case of a text from what it shows of it. -/
theorem subRuns_lower (text : String) (replaced : Bool) :
    subRuns replaced (lower text).toList = subRuns replaced (text.toList.flatMap slugLower) := by
  unfold lower Lowercase.lower
  rw [String.toList_ofList, subRuns_lowerFrom]

/-! ## Numbers -/

theorem isSlugChar_of_isDigit {c : Char} (h : c.isDigit = true) : isSlugChar c = true := by
  simp only [Char.isDigit, Bool.and_eq_true, decide_eq_true_eq] at h
  simp only [isSlugChar, Bool.or_eq_true, Bool.and_eq_true, decide_eq_true_eq]
  exact Or.inr h

theorem slugLower_of_isDigit {c : Char} (h : c.isDigit = true) : slugLower c = [c] := by
  obtain ⟨_, hhigh⟩ := toNat_of_isDigit h
  rw [slugLower_eq (by omega), toLower_eq_self (by omega)]

/-- What may stand behind a number: it stays when the name is stripped and is no part of the slug. -/
def closes (c : Char) : Bool := !isSpace c && slugLower c == [c] && !isSlugChar c

/-- The number is the end of the slug. -/
theorem slugify_numbered (base : String) {tail : String} (htail : tail.toList.all closes = true) :
    ∃ head, ∀ n : Nat, slugify (base ++ toString n ++ tail) = String.ofList (head ++ Nat.toDigits 10 n) := by
  refine ⟨(subRuns false ((base.toList.dropWhile isSpace).flatMap slugLower)).dropWhile (· = '-'),
    fun n => ?_⟩
  have hclosing : ∀ c ∈ tail.toList, isSpace c = false ∧ slugLower c = [c] ∧ isSlugChar c = false := by
    intro c hc
    have hcloses := List.all_eq_true.mp htail c hc
    simp only [closes, Bool.and_eq_true, Bool.not_eq_true', beq_iff_eq] at hcloses
    exact ⟨hcloses.1.1, hcloses.1.2, hcloses.2⟩
  have hdigit : ∀ c ∈ Nat.toDigits 10 n, c.isDigit = true :=
    fun c hc => Nat.isDigit_of_mem_toDigits (by decide) (by decide) hc
  have hnonempty : Nat.toDigits 10 n ≠ [] := Nat.toDigits_ne_nil
  have hlist : (base ++ toString n ++ tail).toList = base.toList ++ (Nat.toDigits 10 n ++ tail.toList ++ []) := by
    have hnumeral : (toString n).toList = Nat.toDigits 10 n := Nat.toList_repr
    rw [String.toList_append, String.toList_append, hnumeral, List.append_nil, List.append_assoc]
  have hstrip : (strip (base ++ toString n ++ tail)).toList =
      base.toList.dropWhile isSpace ++ (Nat.toDigits 10 n ++ tail.toList) := by
    unfold strip
    rw [String.toList_ofList, hlist, stripBy_append (by simp [hnonempty]) (fun c hc => ?_) (by simp)]
    rcases List.mem_append.mp hc with hc | hc
    · exact not_isSpace_of_isDigit (hdigit c hc)
    · exact (hclosing c hc).1
  have hsame : ∀ t : List Char, (∀ c ∈ t, slugLower c = [c]) → t.flatMap slugLower = t := by
    intro t ht
    rw [List.flatMap_congr ht]
    exact List.flatMap_singleton' t
  have hlower : (strip (base ++ toString n ++ tail)).toList.flatMap slugLower =
      (base.toList.dropWhile isSpace).flatMap slugLower ++ (Nat.toDigits 10 n ++ tail.toList) := by
    rw [hstrip, List.flatMap_append, List.flatMap_append,
      hsame _ fun c hc => slugLower_of_isDigit (hdigit c hc), hsame _ fun c hc => (hclosing c hc).2.1]
  have hslug : stripBy (· = '-') (subRuns false (lower (strip (base ++ toString n ++ tail))).toList) =
      (subRuns false ((base.toList.dropWhile isSpace).flatMap slugLower)).dropWhile (· = '-') ++
        Nat.toDigits 10 n := by
    rw [subRuns_lower, hlower, subRuns_append hnonempty (fun c hc => isSlugChar_of_isDigit (hdigit c hc))]
    refine stripBy_append hnonempty (fun c hc => ?_) fun c hc => ?_
    · have hne : c ≠ '-' := by
        rintro rfl
        exact absurd (hdigit '-' hc) (by decide)
      simp [hne]
    · simpa using subRuns_other (fun d hd => (hclosing d hd).2.2) false c hc
  unfold slugify
  simp only [hslug]
  rw [if_neg (by simp [hnonempty])]

/-- Names that differ in their number have different slugs. -/
theorem slugify_numbered_inj (base tail : String) {m n : Nat} (htail : tail.toList.all closes = true)
    (h : slugify (base ++ toString m ++ tail) = slugify (base ++ toString n ++ tail)) : m = n := by
  obtain ⟨head, hhead⟩ := slugify_numbered base htail
  rw [hhead, hhead] at h
  have hlists : head ++ Nat.toDigits 10 m = head ++ Nat.toDigits 10 n := by
    simpa using congrArg String.toList h
  exact Numerals.toDigits_inj (List.append_cancel_left hlists)

end Orchestract.Text
