import Mathlib.Computability.Language
import Orchestract.Domain.Slugs

/-!
# Canonical slugs

The slugs are the texts of `[a-z0-9]+(-[a-z0-9]+)*`: `slugify` makes one of every text and leaves
those that are slugs alone. What it does not see of a text are the blanks around it, the case of the
letters of ASCII, and which other characters of ASCII stand between the words.
-/

namespace Orchestract.Text

set_option autoImplicit false

/-- `[a-z0-9]+`. -/
def slugWord : Language Char := {w : List Char | w ≠ [] ∧ ∀ c ∈ w, isSlugChar c = true}

/-- `[a-z0-9]+(-[a-z0-9]+)*`. -/
def slugs : Language Char := slugWord * KStar.kstar ({['-']} * slugWord)

variable {s t u : List Char} {c d : Char}

/-- A slug is a word, and then words behind dashes. -/
theorem mem_slugs_iff : s ∈ slugs ↔ ∃ first ∈ slugWord, ∃ rest : List (List Char),
    (∀ w ∈ rest, w ∈ slugWord) ∧ s = first ++ rest.flatMap ('-' :: ·) := by
  constructor
  · intro h
    obtain ⟨first, hfirst, _, hrest, rfl⟩ := Language.mem_mul.mp h
    obtain ⟨parts, rfl, hparts⟩ := Language.mem_kstar.mp hrest
    have hpart : ∀ y ∈ parts, y.tail ∈ slugWord ∧ '-' :: y.tail = y := by
      intro y hy
      obtain ⟨dash, hdash, w, hw, rfl⟩ := Language.mem_mul.mp (hparts y hy)
      obtain rfl : dash = ['-'] := hdash
      exact ⟨hw, rfl⟩
    refine ⟨first, hfirst, parts.map List.tail, ?_, ?_⟩
    · intro w hw
      obtain ⟨y, hy, rfl⟩ := List.mem_map.mp hw
      exact (hpart y hy).1
    · rw [List.flatMap_map, List.flatMap_congr fun y hy => (hpart y hy).2, List.flatMap_id']
  · rintro ⟨first, hfirst, rest, hrest, rfl⟩
    apply Language.append_mem_mul hfirst
    rw [List.flatMap_def]
    apply Language.join_mem_kstar
    intro y hy
    obtain ⟨w, hw, rfl⟩ := List.mem_map.mp hy
    exact Language.append_mem_mul (Set.mem_singleton _) (hrest w hw)

/-! ## The characters of a slug -/

theorem not_isSpace_of_isSlugChar (h : isSlugChar c = true) : isSpace c = false := by
  apply not_isSpace_of_isAlphanum
  rw [isAlphanum_iff]
  have hrange := isSlugChar_iff.mp h
  omega

theorem ne_dash_of_isSlugChar (h : isSlugChar c = true) : c ≠ '-' := by
  rintro rfl
  exact absurd h (by decide)

theorem slugLower_of_isSlugChar (h : isSlugChar c = true) : slugLower c = [c] := by
  have hrange := isSlugChar_iff.mp h
  rw [slugLower_eq (by omega), toLower_eq_self (by omega)]

theorem isSlugChar_or_dash (h : s ∈ slugs) (hc : c ∈ s) : isSlugChar c = true ∨ c = '-' := by
  obtain ⟨first, hfirst, rest, hrest, rfl⟩ := mem_slugs_iff.mp h
  rcases List.mem_append.mp hc with hc | hc
  · exact Or.inl (hfirst.2 c hc)
  · obtain ⟨w, hw, hc⟩ := List.mem_flatMap.mp hc
    rcases List.mem_cons.mp hc with rfl | hc
    · exact Or.inr rfl
    · exact Or.inl ((hrest w hw).2 c hc)

theorem head_slug (h : s ∈ slugs) : ∃ c, s.head? = some c ∧ isSlugChar c = true := by
  obtain ⟨first, ⟨hne, hfirst⟩, rest, hrest, rfl⟩ := mem_slugs_iff.mp h
  obtain ⟨c, cs, rfl⟩ := List.exists_cons_of_ne_nil hne
  exact ⟨c, rfl, hfirst c List.mem_cons_self⟩

theorem last_slug (h : s ∈ slugs) : ∃ c, s.getLast? = some c ∧ isSlugChar c = true := by
  obtain ⟨first, ⟨hne, hfirst⟩, rest, hrest, rfl⟩ := mem_slugs_iff.mp h
  rcases List.eq_nil_or_concat rest with rfl | ⟨before, w, rfl⟩
  · refine ⟨first.getLast hne, ?_, hfirst _ (List.getLast_mem hne)⟩
    rw [List.flatMap_nil, List.append_nil, List.getLast?_eq_some_getLast hne]
  · obtain ⟨hne, hw⟩ := hrest w (by simp)
    refine ⟨w.getLast hne, ?_, hw _ (List.getLast_mem hne)⟩
    have hword : first ++ (before.concat w).flatMap ('-' :: ·) =
        first ++ before.flatMap ('-' :: ·) ++ ['-'] ++ w := by
      simp
    rw [hword, List.getLast?_append_of_ne_nil _ hne, List.getLast?_eq_some_getLast hne]

/-! ## Slugs are left alone -/

/-- Whatever a slug has no part in is not stripped from it. -/
theorem stripBy_slug {p : Char → Bool} (hp : ∀ c, isSlugChar c = true → p c = false) (h : s ∈ slugs) :
    stripBy p s = s := by
  obtain ⟨c, hhead, hc⟩ := head_slug h
  obtain ⟨d, hlast, hd⟩ := last_slug h
  have hbetween : stripBy p ([] ++ (s ++ [])) = s :=
    stripBy_between (by simp) (by simp) ⟨c, hhead, hp c hc⟩ ⟨d, hlast, hp d hd⟩
  simpa using hbetween

theorem subRuns_word (hw : t ∈ slugWord) (replaced : Bool) :
    subRuns replaced (t ++ u) = t ++ subRuns false u := by
  have hrun := subRuns_append (s := []) (u := u) hw.1 hw.2 replaced
  simpa [subRuns] using hrun

theorem subRuns_slug (h : s ∈ slugs) (replaced : Bool) : subRuns replaced s = s := by
  obtain ⟨first, hfirst, rest, hrest, rfl⟩ := mem_slugs_iff.mp h
  have hwords : subRuns false (rest.flatMap ('-' :: ·)) = rest.flatMap ('-' :: ·) := by
    clear h
    induction rest with
    | nil => rfl
    | cons w rest ih =>
      have hnext := ih fun v hv => hrest v (List.mem_cons_of_mem w hv)
      have hdash : ¬ isSlugChar '-' = true := by decide
      rw [List.flatMap_cons, List.cons_append, subRuns, if_neg hdash, if_neg Bool.false_ne_true,
        subRuns_word (hrest w List.mem_cons_self) true, hnext]
  rw [subRuns_word hfirst, hwords]

theorem lower_slug (h : s ∈ slugs) : s.flatMap slugLower = s := by
  have hsame : ∀ c ∈ s, slugLower c = [c] := by
    intro c hc
    rcases isSlugChar_or_dash h hc with hchar | rfl
    · exact slugLower_of_isSlugChar hchar
    · rfl
  rw [List.flatMap_congr hsame]
  exact List.flatMap_singleton' s

theorem slugify_slug (h : s ∈ slugs) : slugify (String.ofList s) = String.ofList s := by
  obtain ⟨c, hhead, _⟩ := head_slug h
  have hne : s ≠ [] := by
    rintro rfl
    cases hhead
  have hslug : stripBy (· = '-') (subRuns false (lower (strip (String.ofList s))).toList) = s := by
    rw [subRuns_lower]
    unfold strip
    rw [String.toList_ofList, String.toList_ofList, stripBy_slug (fun c hc => not_isSpace_of_isSlugChar hc) h,
      lower_slug h, subRuns_slug h]
    exact stripBy_slug (fun c hc => by simpa using ne_dash_of_isSlugChar hc) h
  unfold slugify
  simp only [hslug]
  rw [if_neg hne]

/-! ## Every text has a slug -/

/-- A slug is built from its end. -/
theorem cons_mem_slugs (hc : isSlugChar c = true) (hs : s = [] ∨ s ∈ slugs ∨ ∃ t ∈ slugs, s = '-' :: t) :
    c :: s ∈ slugs := by
  have hletter : [c] ∈ slugWord := ⟨List.cons_ne_nil c [], by simpa using hc⟩
  rcases hs with rfl | hs | ⟨t, ht, rfl⟩
  · exact mem_slugs_iff.mpr ⟨[c], hletter, [], by simp, rfl⟩
  · obtain ⟨first, hfirst, rest, hrest, rfl⟩ := mem_slugs_iff.mp hs
    refine mem_slugs_iff.mpr ⟨c :: first, ⟨List.cons_ne_nil c first, ?_⟩, rest, hrest, rfl⟩
    intro d hd
    rcases List.mem_cons.mp hd with rfl | hd
    · exact hc
    · exact hfirst.2 d hd
  · obtain ⟨first, hfirst, rest, hrest, rfl⟩ := mem_slugs_iff.mp ht
    refine mem_slugs_iff.mpr ⟨[c], hletter, first :: rest, ?_, rfl⟩
    intro w hw
    rcases List.mem_cons.mp hw with rfl | hw
    · exact hfirst
    · exact hrest w hw

theorem rdropWhile_cons (p : Char → Bool) (c : Char) (s : List Char) :
    (c :: s).rdropWhile p = if s.rdropWhile p = [] ∧ p c = true then [] else c :: s.rdropWhile p := by
  unfold List.rdropWhile
  rw [List.reverse_cons, List.dropWhile_append]
  by_cases hs : s.reverse.dropWhile p = []
  · by_cases hc : p c = true
    · simp [hs, hc]
    · simp [hs, hc]
  · simp [hs]

/-- What is left of the replaced runs when the dash behind them is stripped. -/
theorem rdropWhile_subRuns (s : List Char) (replaced : Bool) :
    (subRuns replaced s).rdropWhile (· = '-') = [] ∨ (subRuns replaced s).rdropWhile (· = '-') ∈ slugs ∨
      replaced = false ∧ ∃ t ∈ slugs, (subRuns replaced s).rdropWhile (· = '-') = '-' :: t := by
  induction s generalizing replaced with
  | nil => exact Or.inl rfl
  | cons c s ih =>
    rw [subRuns]
    by_cases hc : isSlugChar c = true
    · rw [if_pos hc, rdropWhile_cons, if_neg fun h => ne_dash_of_isSlugChar hc (by simpa using h.2)]
      refine Or.inr (Or.inl (cons_mem_slugs hc ?_))
      rcases ih false with hnil | hslug | ⟨_, hdash⟩
      · exact Or.inl hnil
      · exact Or.inr (Or.inl hslug)
      · obtain ⟨t, ht, hs⟩ := hdash
        exact Or.inr (Or.inr ⟨t, ht, hs⟩)
    · rw [if_neg hc]
      cases replaced with
      | true => exact ih true
      | false =>
        rw [if_neg Bool.false_ne_true, rdropWhile_cons]
        rcases ih true with hnil | hslug | ⟨hfalse, _⟩
        · exact Or.inl (if_pos ⟨hnil, by decide⟩)
        · have hne : (subRuns true s).rdropWhile (· = '-') ≠ [] := by
            obtain ⟨d, hhead, _⟩ := head_slug hslug
            intro hnil
            rw [hnil] at hhead
            cases hhead
          rw [if_neg fun h => hne h.1]
          exact Or.inr (Or.inr ⟨rfl, _, hslug, rfl⟩)
        · cases hfalse

/-- Without the dash before it a text reads as if the run there were replaced already. -/
theorem dropWhile_subRuns (s : List Char) (replaced : Bool) :
    (subRuns replaced s).dropWhile (· = '-') = subRuns true s := by
  induction s generalizing replaced with
  | nil => rfl
  | cons c s ih =>
    rw [subRuns, subRuns]
    by_cases hc : isSlugChar c = true
    · rw [if_pos hc, if_pos hc, List.dropWhile_cons_of_neg (by simpa using ne_dash_of_isSlugChar hc)]
    · rw [if_neg hc, if_neg hc, if_pos rfl]
      cases replaced with
      | true => exact ih true
      | false =>
        rw [if_neg Bool.false_ne_true, List.dropWhile_cons_of_pos (by decide)]
        exact ih true

/-- The words of a text that is not stripped, joined by dashes. -/
def slugChars (s : List Char) : List Char := (subRuns true (s.flatMap slugLower)).rdropWhile (· = '-')

theorem slugChars_mem (s : List Char) : slugChars s = [] ∨ slugChars s ∈ slugs := by
  rcases rdropWhile_subRuns (s.flatMap slugLower) true with hnil | hslug | ⟨hfalse, _⟩
  · exact Or.inl hnil
  · exact Or.inr hslug
  · cases hfalse

/-! ## What is not seen -/

/-- A character that has no part in the words. -/
def Silent (c : Char) : Prop := slugLower c = [c] ∧ isSlugChar c = false

theorem silent_of_isSpace (h : isSpace c = true) : Silent c := by
  constructor
  · simp only [isSpace, List.mem_cons, List.not_mem_nil, or_false, Bool.or_eq_true, Bool.and_eq_true,
      decide_eq_true_eq] at h
    rw [slugLower_eq (by omega), toLower_eq_self (by omega)]
  · apply Bool.eq_false_iff.mpr
    intro hchar
    rw [not_isSpace_of_isSlugChar hchar] at h
    cases h

theorem lower_silent (hu : ∀ c ∈ u, Silent c) : u.flatMap slugLower = u := by
  rw [List.flatMap_congr fun c hc => (hu c hc).1]
  exact List.flatMap_singleton' u

/-- A run of silent characters is one dash, or none where the run before it was replaced already. -/
theorem subRuns_silent (hu : ∀ c ∈ u, Silent c) (hne : u ≠ []) (replaced : Bool) :
    subRuns replaced (u ++ s) = (if replaced then [] else ['-']) ++ subRuns true s := by
  induction u generalizing replaced with
  | nil => exact absurd rfl hne
  | cons c u ih =>
    have hc := (hu c List.mem_cons_self).2
    have hrest : subRuns true (u ++ s) = subRuns true s := by
      cases u with
      | nil => rfl
      | cons d u => exact ih (fun e he => hu e (List.mem_cons_of_mem c he)) (List.cons_ne_nil d u) true
    rw [List.cons_append, subRuns, if_neg (by simp [hc]), hrest]
    cases replaced with
    | true => rfl
    | false => rfl

theorem subRuns_append_silent (hu : ∀ c ∈ u, Silent c) (t : List Char) (replaced : Bool) :
    ∃ dashes, subRuns replaced (t ++ u) = subRuns replaced t ++ dashes ∧ ∀ c ∈ dashes, c = '-' := by
  induction t generalizing replaced with
  | nil => exact ⟨subRuns replaced u, rfl, subRuns_other (fun c hc => (hu c hc).2) replaced⟩
  | cons c t ih =>
    rw [List.cons_append, subRuns, subRuns]
    obtain ⟨dashes, hword, hdashes⟩ := ih false
    obtain ⟨dashes', hother, hdashes'⟩ := ih true
    split_ifs
    · exact ⟨dashes, by rw [hword, List.cons_append], hdashes⟩
    · exact ⟨dashes', hother, hdashes'⟩
    · exact ⟨dashes', by rw [hother, List.cons_append], hdashes'⟩

/-- Blanks around a text are not seen. -/
theorem slugChars_between (hs : ∀ c ∈ s, Silent c) (hu : ∀ c ∈ u, Silent c) :
    slugChars (s ++ (t ++ u)) = slugChars t := by
  unfold slugChars
  rw [List.flatMap_append, List.flatMap_append, lower_silent hs, lower_silent hu]
  have hbefore : subRuns true (s ++ (t.flatMap slugLower ++ u)) = subRuns true (t.flatMap slugLower ++ u) := by
    by_cases hne : s = []
    · rw [hne, List.nil_append]
    · exact subRuns_silent hs hne true
  obtain ⟨dashes, hafter, hdashes⟩ := subRuns_append_silent hu (t.flatMap slugLower) true
  rw [hbefore, hafter]
  unfold List.rdropWhile
  rw [List.reverse_append, List.dropWhile_append_of_pos]
  intro c hc
  simpa using hdashes c (List.mem_reverse.mp hc)

theorem slugify_eq (text : String) :
    slugify text = if slugChars text.toList = [] then "n-a" else String.ofList (slugChars text.toList) := by
  obtain ⟨before, after, htext, hblank⟩ := stripBy_parts isSpace text.toList
  have hstrip : slugChars text.toList = slugChars (stripBy isSpace text.toList) := by
    conv_lhs => rw [htext]
    exact slugChars_between (fun c hc => silent_of_isSpace (hblank c (List.mem_append_left _ hc)))
      fun c hc => silent_of_isSpace (hblank c (List.mem_append_right _ hc))
  have hdash : ∀ s, stripBy (· = '-') (subRuns false s) = (subRuns true s).rdropWhile (· = '-') := by
    intro s
    unfold stripBy
    rw [dropWhile_subRuns]
  have hslug : stripBy (· = '-') (subRuns false (lower (strip text)).toList) = slugChars text.toList := by
    rw [hstrip, subRuns_lower, hdash]
    unfold strip slugChars
    rw [String.toList_ofList]
  unfold slugify
  simp only [hslug]

/-! ## The same words -/

/-- A character that may stand between two words. -/
def isSeparator (c : Char) : Bool := c.toNat < 128 && !c.isAlphanum

/-- Texts with the same words: letters of ASCII in either case, and any separators where the other
text has separators. -/
inductive SameWords : List Char → List Char → Prop
  | nil : SameWords [] []
  | char {c d : Char} {s t : List Char} (hcase : c.toLower = d.toLower) (rest : SameWords s t) :
      SameWords (c :: s) (d :: t)
  | separators {u v s t : List Char} (hne : u ≠ [] ∧ v ≠ []) (hu : ∀ c ∈ u, isSeparator c = true)
      (hv : ∀ c ∈ v, isSeparator c = true) (rest : SameWords s t) : SameWords (u ++ s) (v ++ t)

/-- Texts that have the same words between blanks. -/
def Alike (text text' : String) : Prop :=
  ∃ before words after before' words' after', text.toList = before ++ (words ++ after) ∧
    text'.toList = before' ++ (words' ++ after') ∧
    (∀ c ∈ before ++ after ++ (before' ++ after'), isSpace c = true) ∧ SameWords words words'

theorem silent_of_isSeparator (h : isSeparator c = true) : Silent c := by
  simp only [isSeparator, Bool.and_eq_true, decide_eq_true_eq, Bool.not_eq_true'] at h
  obtain ⟨hascii, hother⟩ := h
  have hrange := mt isAlphanum_iff.mpr (Bool.eq_false_iff.mp hother)
  constructor
  · rw [slugLower_eq (by omega), toLower_eq_self (by omega)]
  · apply Bool.eq_false_iff.mpr
    intro hchar
    have hslug := isSlugChar_iff.mp hchar
    omega

/-- The lower case of a letter `A` to `Z`. -/
theorem toNat_toLower (h : 65 ≤ c.toNat ∧ c.toNat ≤ 90) : c.toLower.toNat = c.toNat + 32 := by
  have hbounds : c.val ≥ 'A'.val ∧ c.val ≤ 'Z'.val := by
    simp only [ge_iff_le, UInt32.le_iff_toNat_le]
    exact h
  have hval : c.toLower.val = c.val + 32 := by
    unfold Char.toLower
    rw [dif_pos hbounds]
    rfl
  have hsmall : c.val.toNat ≤ 90 := h.2
  change c.toLower.val.toNat = c.val.toNat + 32
  rw [hval, UInt32.toNat_add]
  change (c.val.toNat + 32) % 2 ^ 32 = c.val.toNat + 32
  omega

theorem slugLower_toLower (c : Char) : slugLower c.toLower = slugLower c := by
  by_cases hupper : 65 ≤ c.toNat ∧ c.toNat ≤ 90
  · have hletter : isSlugChar c.toLower = true := by
      rw [isSlugChar_iff, toNat_toLower hupper]
      omega
    rw [slugLower_of_isSlugChar hletter, slugLower_eq (by omega)]
  · rw [toLower_eq_self hupper]

theorem SameWords.subRuns_eq (h : SameWords s t) (replaced : Bool) :
    subRuns replaced (s.flatMap slugLower) = subRuns replaced (t.flatMap slugLower) := by
  induction h generalizing replaced with
  | nil => rfl
  | @char c d s t hcase rest ih =>
    rw [List.flatMap_cons, List.flatMap_cons, ← slugLower_toLower c, hcase, slugLower_toLower d]
    exact (SameInSlug.refl _).subRuns_eq ih replaced
  | @separators u v s t hne hu hv rest ih =>
    have hu : ∀ c ∈ u, Silent c := fun c hc => silent_of_isSeparator (hu c hc)
    have hv : ∀ c ∈ v, Silent c := fun c hc => silent_of_isSeparator (hv c hc)
    rw [List.flatMap_append, List.flatMap_append, lower_silent hu, lower_silent hv, subRuns_silent hu hne.1,
      subRuns_silent hv hne.2, ih]

theorem Alike.slugify_eq {text text' : String} (h : Alike text text') : slugify text = slugify text' := by
  obtain ⟨before, words, after, before', words', after', htext, htext', hblank, hwords⟩ := h
  have hsilent : ∀ c ∈ before ++ after ++ (before' ++ after'), Silent c :=
    fun c hc => silent_of_isSpace (hblank c hc)
  simp only [List.forall_mem_append] at hsilent
  have hslug : slugChars text.toList = slugChars text'.toList := by
    rw [htext, htext', slugChars_between hsilent.1.1 hsilent.1.2, slugChars_between hsilent.2.1 hsilent.2.2]
    unfold slugChars
    rw [hwords.subRuns_eq]
  rw [Text.slugify_eq, Text.slugify_eq, hslug]

/-! ## Canonical slugs -/

/-- A segment of a path: letters, digits and single dashes between them. -/
structure Segment (s : List Char) : Prop where
  ne : s ≠ []
  chars : ∀ c ∈ s, isSlugChar c = true ∨ c = '-'
  first : s.head? ≠ some '-'
  last : s.getLast? ≠ some '-'
  single : ¬ ['-', '-'] <:+: s

theorem head_subRuns (s : List Char) : (subRuns true s).head? ≠ some '-' := by
  intro hhead
  have hstays := List.head?_dropWhile_not (· = '-') (subRuns true s)
  rw [dropWhile_subRuns, hhead] at hstays
  cases hstays

/-- Replaced runs leave no two dashes in a row. -/
theorem single_subRuns (s : List Char) (replaced : Bool) : ¬ ['-', '-'] <:+: subRuns replaced s := by
  induction s generalizing replaced with
  | nil =>
    intro h
    cases List.infix_nil.mp h
  | cons c s ih =>
    rw [subRuns]
    by_cases hc : isSlugChar c = true
    · rw [if_pos hc, List.infix_cons_iff, not_or]
      refine ⟨fun h => ?_, ih false⟩
      exact ne_dash_of_isSlugChar hc (List.cons_prefix_cons.mp h).1.symm
    · rw [if_neg hc]
      cases replaced with
      | true => exact ih true
      | false =>
        rw [if_neg Bool.false_ne_true, List.infix_cons_iff, not_or]
        refine ⟨fun h => ?_, ih true⟩
        obtain ⟨rest, hrest⟩ := (List.cons_prefix_cons.mp h).2
        exact head_subRuns s (by rw [← hrest]; rfl)

theorem segment_of_mem (h : s ∈ slugs) : Segment s := by
  obtain ⟨c, hhead, hc⟩ := head_slug h
  obtain ⟨d, hlast, hd⟩ := last_slug h
  constructor
  · rintro rfl
    cases hhead
  · exact fun e he => isSlugChar_or_dash h he
  · rw [hhead]
    exact fun heq => ne_dash_of_isSlugChar hc (Option.some.inj heq)
  · rw [hlast]
    exact fun heq => ne_dash_of_isSlugChar hd (Option.some.inj heq)
  · rw [← subRuns_slug h true]
    exact single_subRuns s true

/-- `n-a`, the slug of a text without words. -/
theorem fallback_mem : ['n', '-', 'a'] ∈ slugs :=
  cons_mem_slugs (by decide) (Or.inr (Or.inr ⟨['a'], cons_mem_slugs (by decide) (Or.inl rfl), rfl⟩))

theorem slugify_mem (text : String) : (slugify text).toList ∈ slugs := by
  rw [slugify_eq]
  split
  · exact fallback_mem
  · rename_i hne
    rw [String.toList_ofList]
    exact (slugChars_mem text.toList).resolve_left hne

/-- The slugs are the texts that are their own slugs. -/
theorem slugify_eq_self_iff {text : String} : slugify text = text ↔ text.toList ∈ slugs := by
  constructor
  · intro h
    rw [← h]
    exact slugify_mem text
  · intro h
    have hslug := slugify_slug h
    rwa [String.ofList_toList] at hslug

/-- Every slug is one of the grammar and its own slug, and texts that are alike have the same slug. -/
theorem slugs_canonical :
    (∀ text, slugify text ≠ "" ∧ (slugify text).toList ∈ slugs ∧ Segment (slugify text).toList) ∧
    (∀ text, slugify (slugify text) = slugify text) ∧
    ∀ text text', Alike text text' → slugify text = slugify text' := by
  refine ⟨fun text => ?_, fun text => slugify_eq_self_iff.mpr (slugify_mem text),
    fun text text' h => h.slugify_eq⟩
  have hmem := slugify_mem text
  have hsegment := segment_of_mem hmem
  refine ⟨fun hempty => hsegment.ne ?_, hmem, hsegment⟩
  rw [hempty]
  rfl

theorem SameWords.word {v w : List Char} (hword : v.map Char.toLower = w.map Char.toLower)
    (rest : SameWords s t) : SameWords (v ++ s) (w ++ t) := by
  induction v generalizing w with
  | nil =>
    obtain rfl := List.map_eq_nil_iff.mp hword.symm
    exact rest
  | cons c v ih =>
    cases w with
    | nil => cases hword
    | cons d w =>
      obtain ⟨hcase, hword⟩ := List.cons.inj hword
      exact .char hcase (ih hword)

/-- The same name with other blanks, in another case and with other separators. -/
theorem slugs_canonical_name : slugify " NDA (v2)" = slugify "nda_-_V2]\n" := by
  apply slugs_canonical.2.2
  have hwords : SameWords (['N', 'D', 'A'] ++ ([' ', '('] ++ (['v', '2'] ++ ([')'] ++ []))))
      (['n', 'd', 'a'] ++ (['_', '-', '_'] ++ (['V', '2'] ++ ([']'] ++ [])))) :=
    .word rfl (.separators (by simp) (List.all_eq_true.mp rfl) (List.all_eq_true.mp rfl) (.word rfl
      (.separators (by simp) (List.all_eq_true.mp rfl) (List.all_eq_true.mp rfl) .nil)))
  exact ⟨[' '], _, [], [], _, ['\n'], String.toList_ofList, String.toList_ofList, List.all_eq_true.mp rfl,
    hwords⟩

end Orchestract.Text
