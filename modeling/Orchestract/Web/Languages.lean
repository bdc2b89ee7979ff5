import Orchestract.Domain.Slugs
import Orchestract.Infrastructure.Locales

/-!
# Languages that a header asks for

An `Accept-Language` header is a list of language ranges with their weights. What the header says,
and when the negotiation does what it says.
-/

namespace Orchestract.I18n

set_option autoImplicit false

open Rankings (FirstHighest ranked)

/-! ## Headers -/

/-- The value of a decimal numeral. -/
def decimalValue (whole fraction : List Char) : ℚ :=
  Nat.ofDigitChars 10 whole 0 + Nat.ofDigitChars 10 fraction 0 / 10 ^ fraction.length

/-- A weight from 0 to 1. -/
structure Weight where
  whole : List Char
  fraction : Option (List Char)
  ne : whole ≠ []
  digits : ∀ c ∈ whole ++ fraction.getD [], c.isDigit = true
  le_one : decimalValue whole (fraction.getD []) ≤ 1

def Weight.value (q : Weight) : ℚ := decimalValue q.whole (q.fraction.getD [])

def Weight.text (q : Weight) : List Char :=
  match q.fraction with
  | none => q.whole
  | some fraction => q.whole ++ '.' :: fraction

def Blank (s : List Char) : Prop := ∀ c ∈ s, c = ' ' ∨ c = '\t'

/-- The weight of a range, with the spaces around its semicolon; its name may be in either case. -/
structure Parameter where
  spaceBefore : List Char
  spaceAfter : List Char
  upperCase : Bool
  weight : Weight
  blank : Blank (spaceBefore ++ spaceAfter)

def Parameter.text (p : Parameter) : List Char :=
  p.spaceBefore ++ ';' :: (p.spaceAfter ++ (if p.upperCase then 'Q' else 'q') :: '=' :: p.weight.text)

/-- A language and its variants, such as the region, of letters and digits. -/
structure LanguageRange where
  spaceBefore : List Char
  language : List Char
  variants : List (List Char)
  parameter : Option Parameter
  spaceAfter : List Char
  blank : Blank (spaceBefore ++ spaceAfter)
  ne : language ≠ []
  letters : ∀ c ∈ language ++ variants.flatten, c.isAlphanum = true

namespace LanguageRange

def tag (r : LanguageRange) : List Char := r.language ++ r.variants.flatMap fun v => '-' :: v

def text (r : LanguageRange) : List Char :=
  r.spaceBefore ++ (r.tag ++ (r.parameter.elim [] Parameter.text ++ r.spaceAfter))

/-- A range without a weight has the weight 1. -/
def weight (r : LanguageRange) : ℚ := r.parameter.elim 1 fun p => p.weight.value

/-- The language of a range, whatever the case of its letters. -/
def base (r : LanguageRange) : String := Text.lower (String.ofList r.language)

def Supported (r : LanguageRange) : Prop := r.base ∈ supportedLocales

instance (r : LanguageRange) : Decidable r.Supported :=
  inferInstanceAs (Decidable (r.base ∈ supportedLocales))

end LanguageRange

def header (ranges : List LanguageRange) : String :=
  String.ofList ([','].intercalate (ranges.map LanguageRange.text))

/-! ## What the header says -/

/-- The negotiated language is the first of those with the greatest weight among the supported ranges
of positive weight; there is none only without such a range. -/
structure Honours (ranges : List LanguageRange) (negotiated : Option String) : Prop where
  kept : ∀ code, negotiated = some code → code ∈ supportedLocales ∧ setCurrentLocale (some code) = code
  best : ∀ code, negotiated = some code → ∃ r, r.base = code ∧
    FirstHighest LanguageRange.weight (fun r => r.Supported ∧ 0 < r.weight) ranges r
  none_iff : negotiated = none ↔ ∀ r ∈ ranges, r.Supported → ¬ 0 < r.weight

/-- The first preferred locale that is available, or whose part before the separator is, whatever the
case. -/
def firstAvailable : Negotiator := fun preferred available separator =>
  preferred.findSome? fun locale =>
    let part := String.ofList (locale.toList.takeWhile (· ≠ separator))
    if Text.lower locale ∈ available.map Text.lower then some locale
    else if separator ∈ locale.toList ∧ Text.lower part ∈ available.map Text.lower then some part
    else none

/-- What babel documents. -/
def Negotiates (negotiateLocale : Negotiator) : Prop :=
  ∀ preferred available separator,
    negotiateLocale preferred available separator = firstAvailable preferred available separator

/-! ## What is read -/

/-- An upper-case `Q` is not read. -/
def LanguageRange.readWeight (r : LanguageRange) : ℚ :=
  r.parameter.elim 1 fun p => if p.upperCase then 1 else p.weight.value

/-- The code of a range, in the case in which it is written. -/
def LanguageRange.code (r : LanguageRange) : String :=
  String.ofList (r.language ++ r.variants.flatMap fun v => '_' :: v)

def LanguageRange.written (r : LanguageRange) : String := String.ofList r.language

theorem isAlphanum_ne {c d : Char} (h : c.isAlphanum = true) (hd : d.isAlphanum = false) : c ≠ d := by
  intro heq
  rw [heq, hd] at h
  cases h

theorem isSpace_of_blank {s : List Char} (h : Blank s) : ∀ c ∈ s, Text.isSpace c = true := by
  intro c hc
  rcases h c hc with rfl | rfl
  · decide
  · decide

/-! ## Weights -/

theorem natural_digits {s : List Char} (hne : s ≠ []) (h : ∀ c ∈ s, c.isDigit = true) :
    Text.natural s = some (Nat.ofDigitChars 10 s 0) := by
  have hsplit : s.splitOn '_' = [s] := by
    apply List.splitOn_eq_singleton
    intro hmem
    exact absurd (h '_' hmem) (by decide)
  have hgroup : [s].all (fun group => !group.isEmpty && group.all Char.isDigit) = true := by
    simp [hne, List.all_eq_true.mpr h]
  unfold Text.natural
  rw [hsplit, if_pos hgroup, List.flatten_singleton, ← Nat.ofDigitChars_eq_foldl]

theorem digitPart_digits {s : List Char} (h : ∀ c ∈ s, c.isDigit = true) :
    Text.digitPart s = some (Nat.ofDigitChars 10 s 0) := by
  unfold Text.digitPart
  by_cases hs : s = []
  · rw [if_pos hs, hs]
    rfl
  · rw [if_neg hs, natural_digits hs h]

theorem split_point (q : Weight) : q.text.takeWhile (· ≠ '.') = q.whole ∧
    (q.text.dropWhile (· ≠ '.')).drop 1 = q.fraction.getD [] := by
  have hwhole : ∀ c ∈ q.whole, decide (c ≠ '.') = true := by
    intro c hc
    have hdigit := q.digits c (List.mem_append_left _ hc)
    refine decide_eq_true fun hdot => ?_
    rw [hdot] at hdigit
    cases hdigit
  unfold Weight.text
  cases q.fraction with
  | none =>
    obtain ⟨htake, hdrop⟩ := Text.cut_all hwhole
    exact ⟨htake, by rw [hdrop]; rfl⟩
  | some fraction =>
    obtain ⟨htake, hdrop⟩ := Text.cut_at (c := '.') hwhole (by decide) fraction
    exact ⟨htake, congrArg (List.drop 1) hdrop⟩

theorem mem_text {q : Weight} {c : Char} (h : c ∈ q.text) : c.isDigit = true ∨ c = '.' := by
  have hdigits := q.digits
  unfold Weight.text at h
  cases hfraction : q.fraction with
  | none =>
    rw [hfraction] at h hdigits
    exact Or.inl (hdigits c (List.mem_append_left _ h))
  | some fraction =>
    rw [hfraction] at h hdigits
    rcases List.mem_append.mp h with h | h
    · exact Or.inl (hdigits c (List.mem_append_left _ h))
    · rcases List.mem_cons.mp h with rfl | h
      · exact Or.inr rfl
      · exact Or.inl (hdigits c (List.mem_append_right _ h))

theorem decimal_text (q : Weight) : Text.decimal q.text = some q.value := by
  have hplain : ∀ c ∈ q.text, decide (c ≠ 'e' ∧ c ≠ 'E') = true := by
    intro c hc
    apply decide_eq_true
    rcases mem_text hc with hdigit | rfl
    · refine ⟨?_, ?_⟩
      · rintro rfl
        cases hdigit
      · rintro rfl
        cases hdigit
    · decide
  obtain ⟨htake, hdrop⟩ := Text.cut_all hplain
  obtain ⟨hwhole, hfraction⟩ := split_point q
  have hdigits : ∀ c ∈ q.fraction.getD [], c.isDigit = true :=
    fun c hc => q.digits c (List.mem_append_right _ hc)
  have hfilter : (q.fraction.getD []).filter Char.isDigit = q.fraction.getD [] :=
    List.filter_eq_self.mpr hdigits
  unfold Text.decimal
  simp only [htake, hdrop, hwhole, hfraction, digitPart_digits hdigits,
    digitPart_digits fun c hc => q.digits c (List.mem_append_left _ hc), hfilter, q.ne, false_and, if_false]
  simp [Weight.value, decimalValue]

theorem float_text (q : Weight) : Text.float q.text = some q.value := by
  have hread : ∀ c ∈ q.text, Text.toAscii c = c ∧ Text.isBlank c = false := by
    intro c hc
    rcases mem_text hc with hdigit | rfl
    · exact ⟨Text.toAscii_of_isDigit hdigit, Text.not_isBlank_of_isDigit hdigit⟩
    · decide
  have hascii : q.text.map Text.toAscii = q.text := by
    rw [List.map_congr_left fun c hc => (hread c hc).1, List.map_id']
  have hsign : ∀ c ∈ q.text, c ≠ '-' ∧ c ≠ '+' := by
    intro c hc
    rcases mem_text hc with hdigit | rfl
    · refine ⟨?_, ?_⟩
      · rintro rfl
        cases hdigit
      · rintro rfl
        cases hdigit
    · decide
  unfold Text.float
  rw [hascii, Text.stripBy_eq_self fun c hc => (hread c hc).2]
  split
  · rename_i heq
    exact absurd rfl (hsign '-' (by simp [heq])).1
  · rename_i heq
    exact absurd rfl (hsign '+' (by simp [heq])).2
  · exact decimal_text q

/-! ## Ranges -/

namespace LanguageRange

variable (r : LanguageRange)

theorem mem_tag {c : Char} (h : c ∈ r.tag) : c.isAlphanum = true ∨ c = '-' := by
  rcases List.mem_append.mp h with h | h
  · exact Or.inl (r.letters c (List.mem_append_left _ h))
  · obtain ⟨v, hv, hc⟩ := List.mem_flatMap.mp h
    rcases List.mem_cons.mp hc with rfl | hc
    · exact Or.inr rfl
    · exact Or.inl (r.letters c (List.mem_append_right _ (List.mem_flatten.mpr ⟨v, hv, hc⟩)))

theorem not_isSpace_tag {c : Char} (h : c ∈ r.tag) : Text.isSpace c = false := by
  rcases r.mem_tag h with h | rfl
  · exact Text.not_isSpace_of_isAlphanum h
  · decide

theorem tag_ne : r.tag ≠ [] := by
  intro hnil
  exact r.ne (List.append_eq_nil_iff.mp hnil).1

theorem head_tag (rest : List Char) : ∃ c, (r.tag ++ rest).head? = some c ∧ Text.isSpace c = false := by
  obtain ⟨c, cs, hcs⟩ := List.exists_cons_of_ne_nil r.tag_ne
  exact ⟨c, by rw [hcs]; rfl, r.not_isSpace_tag (hcs ▸ List.mem_cons_self)⟩

theorem last_tag : ∃ c, r.tag.getLast? = some c ∧ Text.isSpace c = false :=
  ⟨r.tag.getLast r.tag_ne, List.getLast?_eq_some_getLast r.tag_ne, r.not_isSpace_tag (List.getLast_mem _)⟩

theorem tag_code : r.tag.map (fun c => if c = '-' then '_' else c) =
    r.language ++ r.variants.flatMap fun v => '_' :: v := by
  have hkeep : ∀ s : List Char, (∀ c ∈ s, c.isAlphanum = true) →
      s.map (fun c => if c = '-' then '_' else c) = s := by
    intro s hs
    rw [List.map_congr_left fun c hc => if_neg (isAlphanum_ne (hs c hc) (by decide))]
    exact List.map_id s
  unfold tag
  rw [List.map_append, hkeep _ fun c hc => r.letters c (List.mem_append_left _ hc), List.map_flatMap]
  congr 1
  have hvariants : ∀ v ∈ r.variants, (('-' :: v).map fun c => if c = '-' then '_' else c) = '_' :: v := by
    intro v hv
    rw [List.map_cons, hkeep v]
    · rfl
    · exact fun c hc => r.letters c (List.mem_append_right _ (List.mem_flatten.mpr ⟨v, hv, hc⟩))
  exact List.flatMap_congr hvariants

end LanguageRange

theorem last_weight (q : Weight) (s : List Char) :
    ∃ c, (s ++ q.text).getLast? = some c ∧ Text.isSpace c = false := by
  have hne : q.text ≠ [] := by
    unfold Weight.text
    cases q.fraction with
    | none => exact q.ne
    | some fraction => simp
  refine ⟨q.text.getLast hne, ?_, ?_⟩
  · rw [List.getLast?_append, List.getLast?_eq_some_getLast hne]
    rfl
  · rcases mem_text (List.getLast_mem hne) with hdigit | hdot
    · exact Text.not_isSpace_of_isDigit hdigit
    · rw [hdot]
      decide

def Parameter.body (p : Parameter) : List Char := (if p.upperCase then 'Q' else 'q') :: '=' :: p.weight.text

theorem last_parameter (p : Parameter) (s : List Char) :
    ∃ c, (s ++ p.text).getLast? = some c ∧ Text.isSpace c = false := by
  have hsplit : s ++ p.text = (s ++ p.spaceBefore ++ ';' :: p.spaceAfter ++
      [if p.upperCase then 'Q' else 'q', '=']) ++ p.weight.text := by
    simp [Parameter.text]
  rw [hsplit]
  exact last_weight p.weight _

theorem params_text (p : Parameter) : Text.stripBy Text.isSpace (p.spaceAfter ++ p.body) = p.body := by
  have hspace : ∀ c ∈ p.spaceAfter, Text.isSpace c = true :=
    isSpace_of_blank fun c hc => p.blank c (List.mem_append_right _ hc)
  have hname : Text.isSpace (if p.upperCase then 'Q' else 'q') = false := by
    cases p.upperCase <;> decide
  have hlast := last_weight p.weight [if p.upperCase then 'Q' else 'q', '=']
  have hstrip := Text.stripBy_between (t := p.body) (u := []) hspace (by simp) ⟨_, rfl, hname⟩ hlast
  rwa [List.append_nil] at hstrip

/-- What is read of the parameter. -/
theorem quality_body (p : Parameter) :
    quality p.body = if p.upperCase then 1 else p.weight.value := by
  unfold Parameter.body
  cases p.upperCase with
  | true => rfl
  | false =>
    change (Text.float p.weight.text).getD 1 = p.weight.value
    rw [float_text]
    rfl

namespace LanguageRange

/-- The parameter as it is written after the tag. -/
def parameterText (r : LanguageRange) : List Char := r.parameter.elim [] Parameter.text

theorem strip_tag (r : LanguageRange) {s : List Char} (hs : ∀ c ∈ s, Text.isSpace c = true) :
    Text.stripBy Text.isSpace (r.tag ++ s) = r.tag := by
  have hhead := r.head_tag []
  rw [List.append_nil] at hhead
  exact Text.stripBy_between (s := []) (by simp) hs hhead r.last_tag

theorem strip_text (r : LanguageRange) : Text.stripBy Text.isSpace r.text = r.tag ++ r.parameterText := by
  have hbefore : ∀ c ∈ r.spaceBefore, Text.isSpace c = true :=
    isSpace_of_blank fun c hc => r.blank c (List.mem_append_left _ hc)
  have hafter : ∀ c ∈ r.spaceAfter, Text.isSpace c = true :=
    isSpace_of_blank fun c hc => r.blank c (List.mem_append_right _ hc)
  unfold text parameterText
  cases r.parameter with
  | none =>
    have hhead := r.head_tag []
    rw [List.append_nil] at hhead
    exact (Text.stripBy_between hbefore hafter hhead r.last_tag).trans (List.append_nil _).symm
  | some p =>
    rw [← List.append_assoc r.tag]
    exact Text.stripBy_between hbefore hafter (r.head_tag _) (last_parameter p _)

/-- What stands before the semicolon is the tag, and what is read of the rest is the weight. -/
theorem cut_text (r : LanguageRange) :
    Text.stripBy Text.isSpace ((r.tag ++ r.parameterText).takeWhile (· ≠ ';')) = r.tag ∧
      quality (Text.stripBy Text.isSpace (((r.tag ++ r.parameterText).dropWhile (· ≠ ';')).drop 1)) =
        r.readWeight := by
  have htag : ∀ c ∈ r.tag, decide (c ≠ ';') = true := by
    intro c hc
    apply decide_eq_true
    rcases r.mem_tag hc with h | rfl
    · exact isAlphanum_ne h (by decide)
    · decide
  unfold parameterText readWeight
  cases r.parameter with
  | none =>
    obtain ⟨htake, hdrop⟩ := Text.cut_all htag
    change Text.stripBy Text.isSpace ((r.tag ++ []).takeWhile _) = _ ∧
      quality (Text.stripBy Text.isSpace (((r.tag ++ []).dropWhile _).drop 1)) = 1
    have hstrip := r.strip_tag (s := []) (by simp)
    rw [List.append_nil] at hstrip ⊢
    rw [htake, hdrop]
    exact ⟨hstrip, rfl⟩
  | some p =>
    have hspace : ∀ c ∈ p.spaceBefore, c = ' ' ∨ c = '\t' := fun c hc => p.blank c (List.mem_append_left _ hc)
    have hplain : ∀ c ∈ r.tag ++ p.spaceBefore, decide (c ≠ ';') = true := by
      intro c hc
      rcases List.mem_append.mp hc with hc | hc
      · exact htag c hc
      · rcases hspace c hc with rfl | rfl
        · decide
        · decide
    have hsplit : r.tag ++ p.text = (r.tag ++ p.spaceBefore) ++ ';' :: (p.spaceAfter ++ p.body) :=
      (List.append_assoc ..).symm
    obtain ⟨htake, hdrop⟩ := Text.cut_at (c := ';') hplain (by decide) (p.spaceAfter ++ p.body)
    change Text.stripBy Text.isSpace ((r.tag ++ p.text).takeWhile _) = _ ∧
      quality (Text.stripBy Text.isSpace (((r.tag ++ p.text).dropWhile _).drop 1)) = _
    rw [hsplit, htake, hdrop, List.drop_succ_cons, List.drop_zero, params_text, quality_body]
    exact ⟨r.strip_tag (isSpace_of_blank hspace), rfl⟩

end LanguageRange

theorem rankedPart_text (r : LanguageRange) : rankedPart r.text = some (r.readWeight, r.code) := by
  obtain ⟨htag, hweight⟩ := r.cut_text
  have hpart : r.tag ++ r.parameterText ≠ [] := fun hnil => r.tag_ne (List.append_eq_nil_iff.mp hnil).1
  have hcode : r.language ++ (r.variants.flatMap fun v => '_' :: v) ≠ [] :=
    fun hnil => r.ne (List.append_eq_nil_iff.mp hnil).1
  unfold rankedPart
  dsimp only
  rw [r.strip_text, htag, hweight, r.tag_code, if_neg (not_or.mpr ⟨hpart, hcode⟩)]
  rfl

theorem comma_not_mem_text (r : LanguageRange) : ',' ∉ r.text := by
  have hblank : ∀ s : List Char, Blank s → ',' ∉ s := by
    intro s hs hmem
    rcases hs ',' hmem with h | h
    · exact absurd h (by decide)
    · exact absurd h (by decide)
  have hweight : ∀ q : Weight, ',' ∉ q.text := by
    intro q hmem
    rcases mem_text hmem with h | h
    · exact absurd h (by decide)
    · exact absurd h (by decide)
  have hparameter : ∀ p : Parameter, ',' ∉ p.text := by
    intro p hmem
    have hspaces := hblank _ p.blank
    rw [List.mem_append, not_or] at hspaces
    have hname : ',' ≠ (if p.upperCase then 'Q' else 'q') := by
      cases p.upperCase <;> decide
    simp [Parameter.text, hspaces, hname, hweight] at hmem
  have hspaces := hblank _ r.blank
  rw [List.mem_append, not_or] at hspaces
  intro hmem
  rcases List.mem_append.mp hmem with h | h
  · exact hspaces.1 h
  · rcases List.mem_append.mp h with h | h
    · rcases r.mem_tag h with h | h
      · exact absurd h (by decide)
      · exact absurd h (by decide)
    · rcases List.mem_append.mp h with h | h
      · cases hp : r.parameter with
        | none =>
          rw [hp] at h
          cases h
        | some p =>
          rw [hp] at h
          exact hparameter p h
      · exact hspaces.2 h

theorem parse_header (ranges : List LanguageRange) :
    parseAcceptLanguage (header ranges) = (ranked LanguageRange.readWeight ranges).map LanguageRange.code := by
  have hparts : ((header ranges).toList.splitOn ',').filterMap rankedPart =
      ranges.map fun r => (r.readWeight, r.code) := by
    unfold header
    rw [String.toList_ofList]
    cases ranges with
    | nil => rfl
    | cons r ranges =>
      rw [List.splitOn_intercalate ',' _ (by simp), List.filterMap_map]
      · rw [← List.filterMap_eq_map]
        exact List.filterMap_congr fun r _ => rankedPart_text r
      · intro part hpart
        obtain ⟨s, _, rfl⟩ := List.mem_map.mp hpart
        exact comma_not_mem_text s
  unfold parseAcceptLanguage
  rw [hparts, Rankings.ranked_map, List.map_map]
  rfl

theorem lower_lower {code : String} (h : code ∈ supportedLocales) : Text.lower code = code := by
  revert code
  decide

theorem mem_lower_supported {code : String} :
    code ∈ supportedLocales.map Text.lower ↔ code ∈ supportedLocales := by
  have hsame : supportedLocales.map Text.lower = supportedLocales := by decide
  rw [hsame]

/-- A range is matched by its language alone. -/
theorem matched_code (r : LanguageRange) :
    (let part := String.ofList (r.code.toList.takeWhile (· ≠ '_'))
    if Text.lower r.code ∈ supportedLocales.map Text.lower then some r.code
    else if '_' ∈ r.code.toList ∧ Text.lower part ∈ supportedLocales.map Text.lower then some part
    else none) = if r.Supported then some r.written else none := by
  have hlanguage : ∀ c ∈ r.language, decide (c ≠ '_') = true := by
    intro c hc
    exact decide_eq_true (isAlphanum_ne (r.letters c (List.mem_append_left _ hc)) (by decide))
  simp only [mem_lower_supported]
  cases hvariants : r.variants with
  | nil =>
    have hcode : r.code = r.written := by
      unfold LanguageRange.code LanguageRange.written
      rw [hvariants, List.flatMap_nil, List.append_nil]
    have hnone : '_' ∉ r.code.toList := by
      rw [hcode, LanguageRange.written, String.toList_ofList]
      intro hmem
      exact of_decide_eq_true (hlanguage '_' hmem) rfl
    rw [if_neg (c := _ ∧ _) fun h => hnone h.1, hcode]
    rfl
  | cons v vs =>
    have hcode : r.code.toList = r.language ++ '_' :: (v ++ vs.flatMap fun v => '_' :: v) := by
      unfold LanguageRange.code
      rw [hvariants, String.toList_ofList]
      rfl
    have hmem : '_' ∈ r.code.toList := by
      rw [hcode]
      simp
    have hnot : Text.lower r.code ∉ supportedLocales := by
      have hlower : '_' ∈ (Text.lower r.code).toList := by
        unfold Text.lower
        rw [String.toList_ofList]
        exact Lowercase.mem_lowerFrom hmem (by decide) rfl
      have hplain : ∀ code ∈ supportedLocales, '_' ∉ code.toList := by decide
      exact fun hsupported => hplain _ hsupported hlower
    have hpart : r.code.toList.takeWhile (· ≠ '_') = r.language := by
      rw [hcode]
      exact (Text.cut_at hlanguage (by decide) _).1
    rw [if_neg hnot, hpart]
    simp only [hmem, true_and]
    rfl

/-! ## The negotiation -/

/-- The range that is negotiated: the first of those with the greatest weight as it is read among the
supported ones. -/
theorem negotiated_eq {negotiateLocale : Negotiator} (h : Negotiates negotiateLocale)
    (ranges : List LanguageRange) : negotiateFromHeader negotiateLocale (header ranges) =
      ((ranked LanguageRange.readWeight ranges).find? (fun r => r.Supported)).map LanguageRange.written := by
  have hmatched : ∀ rs : List LanguageRange,
      negotiateLocale (rs.map LanguageRange.code) supportedLocales '_' =
        (rs.find? fun r => r.Supported).map LanguageRange.written := by
    intro rs
    rw [h, firstAvailable, List.findSome?_map]
    induction rs with
    | nil => rfl
    | cons r rs ih =>
      rw [List.findSome?_cons, List.find?_cons, Function.comp_apply, matched_code]
      by_cases hr : r.Supported
      · rw [if_pos hr, decide_eq_true hr]
        rfl
      · rw [if_neg hr, decide_eq_false hr]
        exact ih
  unfold negotiateFromHeader
  rw [parse_header, ← hmatched]
  by_cases hnil : (ranked LanguageRange.readWeight ranges).map LanguageRange.code = []
  · simp only [hnil, if_true]
    rw [h]
    rfl
  · simp only [hnil, if_false]

/-- The range that is negotiated is in lower case, and its language is also the first of those with
the greatest positive weight. -/
def Settled (ranges : List LanguageRange) : Prop :=
  (∀ r ∈ ranges, ¬ r.Supported) ∨
    ∃ r s, FirstHighest LanguageRange.readWeight LanguageRange.Supported ranges r ∧ r.written = r.base ∧
      FirstHighest LanguageRange.weight (fun s => s.Supported ∧ 0 < s.weight) ranges s ∧ s.base = r.base

/-- The negotiation does what the header says exactly when it is settled. -/
theorem honours_iff {negotiateLocale : Negotiator} (h : Negotiates negotiateLocale)
    (ranges : List LanguageRange) :
    Honours ranges (negotiateFromHeader negotiateLocale (header ranges)) ↔ Settled ranges := by
  rw [negotiated_eq h]
  cases hfind : (ranked LanguageRange.readWeight ranges).find? (fun r => r.Supported) with
  | none =>
    have hnone : ∀ r ∈ ranges, ¬ r.Supported := Rankings.find?_ranked_none_iff.mp hfind
    refine iff_of_true ⟨nofun, nofun, ?_⟩ (Or.inl hnone)
    exact iff_of_true rfl fun r hr hsupported => absurd hsupported (hnone r hr)
  | some r =>
    have hfirst : FirstHighest LanguageRange.readWeight LanguageRange.Supported ranges r :=
      Rankings.find?_ranked_iff.mp hfind
    obtain ⟨hr, hsupported⟩ := Rankings.firstHighest_mem hfirst
    constructor
    · intro hhonours
      obtain ⟨s, hbase, hbest⟩ := hhonours.best r.written rfl
      have hlower := lower_lower (hhonours.kept r.written rfl).1
      exact Or.inr ⟨r, s, hfirst, hlower.symm, hbest, hbase.trans hlower.symm⟩
    · intro hsettled
      rcases hsettled with hnone | ⟨r', s, hfirst', hwritten, hbest, hbase⟩
      · exact absurd hsupported (hnone r hr)
      · obtain rfl : r = r' := Option.some.inj (hfind.symm.trans (Rankings.find?_ranked_iff.mpr hfirst'))
        refine ⟨?_, ?_, ?_⟩
        · intro code hcode
          obtain rfl : r.written = code := Option.some.inj hcode
          rw [hwritten]
          exact ⟨hsupported, if_pos hsupported⟩
        · intro code hcode
          obtain rfl : r.written = code := Option.some.inj hcode
          exact ⟨s, hbase.trans hwritten.symm, hbest⟩
        · obtain ⟨hs, hpositive⟩ := Rankings.firstHighest_mem hbest
          exact iff_of_false nofun fun hnone => hnone s hs hpositive.1 hpositive.2

/-- Where no name of a weight is in upper case, the range that is negotiated needs only be in lower case
and not refused. -/
theorem settled_iff_of_read {ranges : List LanguageRange} (h : ∀ r ∈ ranges, r.readWeight = r.weight) :
    Settled ranges ↔ (∀ r ∈ ranges, ¬ r.Supported) ∨
      ∃ r, FirstHighest LanguageRange.weight LanguageRange.Supported ranges r ∧ r.written = r.base ∧
        0 < r.weight := by
  have hread : ∀ r, FirstHighest LanguageRange.readWeight LanguageRange.Supported ranges r ↔
      FirstHighest LanguageRange.weight LanguageRange.Supported ranges r :=
    fun r => Rankings.firstHighest_congr h
  constructor
  · intro hsettled
    rcases hsettled with hnone | ⟨r, s, hfirst, hwritten, hbest, _⟩
    · exact Or.inl hnone
    · obtain ⟨hs, hsupported, hpositive⟩ := Rankings.firstHighest_mem hbest
      have hle := Rankings.firstHighest_le ((hread r).mp hfirst) hs hsupported
      exact Or.inr ⟨r, (hread r).mp hfirst, hwritten, lt_of_lt_of_le hpositive hle⟩
  · intro hsettled
    rcases hsettled with hnone | ⟨r, hfirst, hwritten, hpositive⟩
    · exact Or.inl hnone
    · refine Or.inr ⟨r, r, (hread r).mpr hfirst, hwritten, ?_, rfl⟩
      obtain ⟨before, after, hsplit, hsupported, hbefore, hafter⟩ := hfirst
      exact ⟨before, after, hsplit, ⟨hsupported, hpositive⟩, fun b hb hp => hbefore b hb hp.1,
        fun b hb hp => hafter b hb hp.1⟩

/-- A visitor without a preference gets the language that was negotiated, or English. -/
theorem visitor_locale {negotiateLocale : Negotiator} {ranges : List LanguageRange}
    (h : Honours ranges (negotiateFromHeader negotiateLocale (header ranges))) :
    negotiateAndSetLocale negotiateLocale none none (header ranges) =
      (negotiateFromHeader negotiateLocale (header ranges)).getD defaultLocale := by
  unfold negotiateAndSetLocale
  cases hcode : negotiateFromHeader negotiateLocale (header ranges) with
  | none => rfl
  | some code => exact (h.kept code hcode).2

def plainRange (language : String) (parameter : Option Parameter) (ne : language.toList ≠ [])
    (letters : ∀ c ∈ language.toList, c.isAlphanum = true) : LanguageRange :=
  ⟨[], language.toList, [], parameter, [], nofun, ne, by simpa using letters⟩

def zeroWeight : Weight := ⟨['0'], none, by decide, List.all_eq_true.mp (by decide), by decide +kernel⟩

/-- `PT`. -/
def upperCaseRange : LanguageRange := plainRange "PT" none (by decide) (List.all_eq_true.mp (by decide))

/-- `fr;q=0`. -/
def refusedRange : LanguageRange :=
  plainRange "fr" (some ⟨[], [], false, zeroWeight, nofun⟩) (by decide) (List.all_eq_true.mp (by decide))

/-- `fr`. -/
def frenchRange : LanguageRange := plainRange "fr" none (by decide) (List.all_eq_true.mp (by decide))

theorem honours_iff_french :
    Honours [frenchRange] (negotiateFromHeader firstAvailable (header [frenchRange])) := by
  have hsupported : frenchRange.Supported := by decide +kernel
  have hweight : 0 < frenchRange.weight := by decide +kernel
  refine (honours_iff (fun _ _ _ => rfl) [frenchRange]).mpr (Or.inr ⟨frenchRange, frenchRange, ?_, ?_, ?_, rfl⟩)
  · exact ⟨[], [], rfl, hsupported, nofun, nofun⟩
  · decide +kernel
  · exact ⟨[], [], rfl, ⟨hsupported, hweight⟩, nofun, nofun⟩

/-- A tag in upper case is negotiated as written, so that English is set; a refused language is
negotiated. -/
theorem not_honours :
    ¬ Honours [upperCaseRange] (negotiateFromHeader firstAvailable (header [upperCaseRange])) ∧
    ¬ Honours [refusedRange] (negotiateFromHeader firstAvailable (header [refusedRange])) := by
  have hupper : negotiateFromHeader firstAvailable (header [upperCaseRange]) = some "PT" := by decide +kernel
  have hrefused : negotiateFromHeader firstAvailable (header [refusedRange]) = some "fr" := by
    decide +kernel
  refine ⟨fun h => ?_, fun h => ?_⟩
  · exact absurd (h.kept "PT" hupper).1 (by decide)
  · have hnone := h.none_iff.mpr fun r hr _ => by
      rw [List.mem_singleton.mp hr]
      decide +kernel
    cases hnone.symm.trans hrefused

end Orchestract.I18n
