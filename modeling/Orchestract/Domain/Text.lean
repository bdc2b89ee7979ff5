import Mathlib.Data.List.DropRight
import Orchestract.Library.Lowercase

/-!
# Texts

Python's `str.strip`, `str.lower` and the `slugify` built on them, and `int`.
-/

namespace Orchestract.Text

set_option autoImplicit false

/-- The characters for which `str.isspace` holds. -/
def isSpace (c : Char) : Bool :=
  c.toNat ∈ [0x85, 0xA0, 0x1680, 0x2028, 0x2029, 0x202F, 0x205F, 0x3000] ||
    (0x09 ≤ c.toNat && c.toNat ≤ 0x0D) || (0x1C ≤ c.toNat && c.toNat ≤ 0x20) ||
    (0x2000 ≤ c.toNat && c.toNat ≤ 0x200A)

def stripBy (p : Char → Bool) (s : List Char) : List Char := (s.dropWhile p).rdropWhile p

def strip (s : String) : String := String.ofList (stripBy isSpace s.toList)

def lower (s : String) : String := String.ofList (Lowercase.lower s.toList)

/-- The class `[a-z0-9]`. -/
def isSlugChar (c : Char) : Bool := ('a' ≤ c && c ≤ 'z') || ('0' ≤ c && c ≤ '9')

/-- `re.sub(r"[^a-z0-9]+", "-", s)`; the flag tells that the run of other characters before
this position was already replaced. -/
def subRuns : Bool → List Char → List Char
  | _, [] => []
  | replaced, c :: cs =>
    if isSlugChar c then c :: subRuns false cs
    else if replaced then subRuns true cs
    else '-' :: subRuns true cs

def slugify (text : String) : String :=
  let slug := stripBy (· = '-') (subRuns false (lower (strip text)).toList)
  if slug = [] then "n-a" else String.ofList slug

example : slugify "  Simple Approval (copy 2) " = "simple-approval-copy-2" := by decide

/-- `value or None` for a text read from a form. -/
def orNone (s : String) : Option String := if s = "" then none else some s

/-- Groups of digits between underscores. -/
def natural (s : List Char) : Option Nat :=
  if (s.splitOn '_').all fun group => !group.isEmpty && group.all Char.isDigit then
    some (((s.splitOn '_').flatten).foldl (fun n c => 10 * n + (c.toNat - '0'.toNat)) 0)
  else none

/-- Where the ten decimal digits of each script start, those of ASCII first. -/
def digitZeros : List Nat :=
  [0x30, 0x660, 0x6F0, 0x7C0, 0x966, 0x9E6, 0xA66, 0xAE6, 0xB66, 0xBE6, 0xC66, 0xCE6, 0xD66, 0xDE6, 0xE50,
    0xED0, 0xF20, 0x1040, 0x1090, 0x17E0, 0x1810, 0x1946, 0x19D0, 0x1A80, 0x1A90, 0x1B50, 0x1BB0, 0x1C40,
    0x1C50, 0xA620, 0xA8D0, 0xA900, 0xA9D0, 0xA9F0, 0xAA50, 0xABF0, 0xFF10, 0x104A0, 0x10D30, 0x11066,
    0x110F0, 0x11136, 0x111D0, 0x112F0, 0x11450, 0x114D0, 0x11650, 0x116C0, 0x11730, 0x118E0, 0x11950,
    0x11C50, 0x11D50, 0x11DA0, 0x11F50, 0x16A60, 0x16AC0, 0x16B50, 0x1D7CE, 0x1D7D8, 0x1D7E2, 0x1D7EC,
    0x1D7F6, 0x1E140, 0x1E2F0, 0x1E4F0, 0x1E950, 0x1FBF0]

/-- The value of a decimal digit. -/
def decimalDigit (c : Char) : Option Nat :=
  (digitZeros.find? fun first => first ≤ c.toNat ∧ c.toNat < first + 10).map (c.toNat - ·)

/-- What `int` reads for a character outside ASCII. -/
def toAscii (c : Char) : Char :=
  if c.toNat < 128 then c
  else if isSpace c then ' '
  else match decimalDigit c with
    | some d => Nat.digitChar d
    | none => '?'

/-- The blanks of ASCII. -/
def isBlank (c : Char) : Bool := c.toNat = 0x20 || (0x09 ≤ c.toNat && c.toNat ≤ 0x0D)

/-- `int` refuses a text with more than 4300 digits. -/
def digits (s : List Char) : Option Nat :=
  if s.countP Char.isDigit ≤ 4300 then natural s else none

/-- `int` of a text. -/
def int (s : List Char) : Option Int :=
  match stripBy isBlank (s.map toAscii) with
  | '-' :: s => (fun n : Nat => -(n : Int)) <$> digits s
  | '+' :: s => (fun n : Nat => (n : Int)) <$> digits s
  | s => (fun n : Nat => (n : Int)) <$> digits s

/-! ## What is stripped -/

theorem stripBy_eq_nil_iff {p : Char → Bool} {s : List Char} :
    stripBy p s = [] ↔ ∀ c ∈ s, p c = true := by
  unfold stripBy
  rw [List.rdropWhile_eq_nil_iff]
  constructor
  · intro h c hc
    rw [← List.takeWhile_append_dropWhile (p := p) (l := s)] at hc
    rcases List.mem_append.mp hc with hc | hc
    · exact List.mem_takeWhile_imp hc
    · exact h c hc
  · exact fun h c hc => h c ((List.dropWhile_sublist p).subset hc)

theorem strip_eq_empty_iff {s : String} : strip s = "" ↔ ∀ c ∈ s.toList, isSpace c = true := by
  rw [← stripBy_eq_nil_iff, strip]
  constructor
  · intro h
    simpa using congrArg String.toList h
  · intro h
    rw [h]

theorem stripBy_sublist (p : Char → Bool) (s : List Char) : (stripBy p s).Sublist s :=
  (List.rdropWhile_prefix p _).sublist.trans (List.dropWhile_sublist p)

/-- What is left after stripping starts with a character that stays. -/
theorem stripBy_head {p : Char → Bool} {s : List Char} (h : stripBy p s ≠ []) :
    ∃ c rest, stripBy p s = c :: rest ∧ p c = false := by
  cases hs : stripBy p s with
  | nil => exact absurd hs h
  | cons c rest =>
    refine ⟨c, rest, rfl, ?_⟩
    have hstart : stripBy p s <+: s.dropWhile p := List.rdropWhile_prefix p _
    rw [hs] at hstart
    obtain ⟨more, hmore⟩ := hstart
    have hhead := List.head?_dropWhile_not p s
    rw [← hmore] at hhead
    exact hhead

theorem stripBy_eq_self {p : Char → Bool} {s : List Char} (h : ∀ c ∈ s, p c = false) :
    stripBy p s = s := by
  unfold stripBy
  rw [List.dropWhile_eq_self_iff.mpr fun _ => by simp [h], List.rdropWhile_eq_self_iff]
  intro hne
  simp [h]

/-! ## Where a text is cut -/

/-- A text that nothing stops is taken whole. -/
theorem cut_all {p : Char → Bool} {s : List Char} (h : ∀ c ∈ s, p c = true) :
    s.takeWhile p = s ∧ s.dropWhile p = [] :=
  ⟨List.takeWhile_eq_self_iff.mpr h, List.dropWhile_eq_nil_iff.mpr h⟩

/-- A text is cut at the first character that stops it. -/
theorem cut_at {p : Char → Bool} {s : List Char} {c : Char} (h : ∀ d ∈ s, p d = true) (hc : p c = false)
    (t : List Char) : (s ++ c :: t).takeWhile p = s ∧ (s ++ c :: t).dropWhile p = c :: t := by
  have hstop : ¬ p c = true := by
    rw [hc]
    exact Bool.false_ne_true
  rw [List.takeWhile_append_of_pos h, List.dropWhile_append_of_pos h, List.takeWhile_cons_of_neg hstop,
    List.dropWhile_cons_of_neg hstop, List.append_nil]
  exact ⟨rfl, rfl⟩

/-! ## Numbers -/

theorem natural_toDigits (n : Nat) : natural (Nat.toDigits 10 n) = some n := by
  have hsplit : (Nat.toDigits 10 n).splitOn '_' = [Nat.toDigits 10 n] := by
    apply List.splitOnP_eq_singleton
    intro c hc
    have hne : c ≠ '_' := fun h => Nat.underscore_not_in_toDigits (h ▸ hc)
    simpa using hne
  have hdigit : ∀ c ∈ Nat.toDigits 10 n, c.isDigit = true :=
    fun c hc => Nat.isDigit_of_mem_toDigits (by decide) (by decide) hc
  have hgroup : [Nat.toDigits 10 n].all (fun group => !group.isEmpty && group.all Char.isDigit) = true := by
    simp [Nat.toDigits_ne_nil, List.all_eq_true.mpr hdigit]
  unfold natural
  rw [hsplit, if_pos hgroup, List.flatten_singleton, ← Nat.ofDigitChars_eq_foldl,
    Nat.ofDigitChars_toDigits (by decide) (by decide)]

/-- The digits of ASCII. -/
theorem toNat_of_isDigit {c : Char} (h : c.isDigit = true) : 48 ≤ c.toNat ∧ c.toNat ≤ 57 := by
  simp only [Char.isDigit, Bool.and_eq_true, decide_eq_true_eq, ge_iff_le, UInt32.le_iff_toNat_le] at h
  exact h

theorem isAlphanum_iff {c : Char} : c.isAlphanum = true ↔ (48 ≤ c.toNat ∧ c.toNat ≤ 57) ∨
    (65 ≤ c.toNat ∧ c.toNat ≤ 90) ∨ (97 ≤ c.toNat ∧ c.toNat ≤ 122) := by
  have hranges : c.isAlphanum = ((decide (65 ≤ c.val ∧ c.val ≤ 90) ||
      (decide (97 ≤ c.val) && decide (c.val ≤ 122))) || (decide (48 ≤ c.val) && decide (c.val ≤ 57))) := rfl
  simp only [hranges, Bool.or_eq_true, Bool.and_eq_true, decide_eq_true_eq, UInt32.le_iff_toNat_le]
  change ((65 ≤ c.toNat ∧ c.toNat ≤ 90) ∨ (97 ≤ c.toNat ∧ c.toNat ≤ 122)) ∨ (48 ≤ c.toNat ∧ c.toNat ≤ 57) ↔ _
  omega

theorem not_isSpace_of_isAlphanum {c : Char} (h : c.isAlphanum = true) : isSpace c = false := by
  have hrange := isAlphanum_iff.mp h
  simp only [isSpace, List.mem_cons, List.not_mem_nil, or_false, Bool.or_eq_false_iff,
    Bool.and_eq_false_iff, decide_eq_false_iff_not]
  omega

theorem not_isSpace_of_isDigit {c : Char} (h : c.isDigit = true) : isSpace c = false :=
  not_isSpace_of_isAlphanum (isAlphanum_iff.mpr (Or.inl (toNat_of_isDigit h)))

theorem not_isBlank_of_isDigit {c : Char} (h : c.isDigit = true) : isBlank c = false := by
  obtain ⟨hlow, hhigh⟩ := toNat_of_isDigit h
  simp only [isBlank, Bool.or_eq_false_iff, Bool.and_eq_false_iff, decide_eq_false_iff_not]
  omega

theorem toAscii_of_lt {c : Char} (h : c.toNat < 128) : toAscii c = c := by
  unfold toAscii
  rw [if_pos h]

theorem toAscii_of_isDigit {c : Char} (h : c.isDigit = true) : toAscii c = c := by
  obtain ⟨_, hhigh⟩ := toNat_of_isDigit h
  exact toAscii_of_lt (by omega)

/-- `int(str(n))`. -/
theorem int_toString {n : Nat} (hn : (Nat.toDigits 10 n).length ≤ 4300) :
    int (toString n).toList = some (n : Int) := by
  have hdigit : ∀ c ∈ Nat.toDigits 10 n, c.isDigit = true :=
    fun c hc => Nat.isDigit_of_mem_toDigits (by decide) (by decide) hc
  have hlist : (toString n).toList = Nat.toDigits 10 n := Nat.toList_repr
  have hascii : (Nat.toDigits 10 n).map toAscii = Nat.toDigits 10 n := by
    rw [List.map_congr_left fun c hc => toAscii_of_isDigit (hdigit c hc), List.map_id']
  have hdigits : digits (Nat.toDigits 10 n) = some n := by
    unfold digits
    rw [if_pos ((List.countP_le_length).trans hn), natural_toDigits]
  unfold int
  rw [hlist, hascii, stripBy_eq_self fun c hc => not_isBlank_of_isDigit (hdigit c hc)]
  split
  · rename_i heq
    exact absurd (hdigit '-' (by simp [heq])) (by decide)
  · rename_i heq
    exact absurd (hdigit '+' (by simp [heq])) (by decide)
  · rw [hdigits]
    rfl

end Orchestract.Text
