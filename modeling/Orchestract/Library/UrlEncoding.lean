import Orchestract.Library.Utf8

/-!
# URL-encoded parameters

Lists of parameters as the query of a URL: names and values are percent-encoded with `+` for a
space, joined by `=`, and the pairs by `&`. Reading them back is the inverse of writing.
-/

namespace Orchestract.UrlEncoding

set_option autoImplicit false

/-- The bytes that are written as they are. -/
def unreserved (b : Nat) : Bool :=
  (65 ≤ b && b ≤ 90) || (97 ≤ b && b ≤ 122) || (48 ≤ b && b ≤ 57) || b ∈ [45, 46, 95, 126]

def hexDigit (n : Nat) : Char := Char.ofNat (if n < 10 then 48 + n else 55 + n)

def hexValue (c : Char) : Option Nat :=
  if '0' ≤ c ∧ c ≤ '9' then some (c.toNat - 48)
  else if 'A' ≤ c ∧ c ≤ 'F' then some (c.toNat - 55)
  else if 'a' ≤ c ∧ c ≤ 'f' then some (c.toNat - 87)
  else none

def quoteByte (b : Nat) : List Char :=
  if b = 32 then ['+'] else if unreserved b then [Char.ofNat b] else ['%', hexDigit (b / 16), hexDigit (b % 16)]

def quotePlus (s : List Char) : List Char := (Utf8.encode s).flatMap quoteByte

/-- `quote` writes a space as any other byte, and keeps the slash. -/
def percentByte (b : Nat) : List Char :=
  if unreserved b || b = 47 then [Char.ofNat b] else ['%', hexDigit (b / 16), hexDigit (b % 16)]

def quote (s : List Char) : List Char := (Utf8.encode s).flatMap percentByte

/-- A percent sign without two hexadecimal digits stands for itself. -/
def unquoteBytes : List Char → List Nat
  | [] => []
  | '%' :: a :: b :: s =>
    match hexValue a, hexValue b with
    | some high, some low => (16 * high + low) :: unquoteBytes s
    | _, _ => 37 :: unquoteBytes (a :: b :: s)
  | c :: s => Utf8.encodeChar c ++ unquoteBytes s

def plusToSpace (c : Char) : Char := if c = '+' then ' ' else c

def unquotePlus (s : List Char) : List Char := Utf8.decode (unquoteBytes (s.map plusToSpace))

abbrev Parameters := List (List Char × List Char)

def pairText (p : List Char × List Char) : List Char := quotePlus p.1 ++ '=' :: quotePlus p.2

def urlencode (ps : Parameters) : List Char := ['&'].intercalate (ps.map pairText)

def readPair (text : List Char) : List Char × List Char :=
  (unquotePlus (text.takeWhile (· ≠ '=')), unquotePlus ((text.dropWhile (· ≠ '=')).drop 1))

/-- `parse_qsl` with blank values kept. -/
def parseQsl (query : List Char) : Parameters := ((query.splitOn '&').filter (· ≠ [])).map readPair

/-! ## One byte -/

theorem unquoteBytes_cons {c : Char} (hc : c ≠ '%') (s : List Char) :
    unquoteBytes (c :: s) = Utf8.encodeChar c ++ unquoteBytes s := by
  rw [unquoteBytes]
  intro a b t heq
  exact absurd heq hc

/-- What a byte is written as: a space, a character of its own, or three characters. -/
theorem quoteByte_cases {b : Nat} (hb : b < 256) :
    (b = 32 ∧ quoteByte b = ['+']) ∨
    (∃ c, quoteByte b = [c] ∧ c ≠ '%' ∧ c ≠ '+' ∧ Utf8.encodeChar c = [b]) ∨
    ∃ high low, quoteByte b = ['%', high, low] ∧ high ≠ '+' ∧ low ≠ '+' ∧
      hexValue high = some (b / 16) ∧ hexValue low = some (b % 16) := by
  have hown : ∀ b < 256, unreserved b = true → Char.ofNat b ≠ '%' ∧ Char.ofNat b ≠ '+' ∧
      Utf8.encodeChar (Char.ofNat b) = [b] := by decide +kernel
  have hhex : ∀ n < 16, hexDigit n ≠ '+' ∧ hexValue (hexDigit n) = some n := by decide
  unfold quoteByte
  split_ifs with hspace hunreserved
  · exact Or.inl ⟨hspace, rfl⟩
  · exact Or.inr (Or.inl ⟨Char.ofNat b, rfl, hown b hb hunreserved⟩)
  · obtain ⟨hhigh, hhighValue⟩ := hhex (b / 16) (by omega)
    obtain ⟨hlow, hlowValue⟩ := hhex (b % 16) (by omega)
    exact Or.inr (Or.inr ⟨_, _, rfl, hhigh, hlow, hhighValue, hlowValue⟩)

theorem unquoteBytes_quoteByte {b : Nat} (hb : b < 256) (s : List Char) :
    unquoteBytes ((quoteByte b).map plusToSpace ++ s) = b :: unquoteBytes s := by
  rcases quoteByte_cases hb with ⟨rfl, hquote⟩ | ⟨c, hquote, hpercent, hplus, hencode⟩ |
    ⟨high, low, hquote, hhigh, hlow, hhighValue, hlowValue⟩
  · rw [hquote]
    exact unquoteBytes_cons (by decide) s
  · rw [hquote]
    change unquoteBytes (plusToSpace c :: s) = _
    rw [plusToSpace, if_neg hplus, unquoteBytes_cons hpercent, hencode]
    rfl
  · have hmap : ['%', high, low].map plusToSpace = ['%', high, low] := by
      simp [plusToSpace, hhigh, hlow]
    rw [hquote, hmap]
    change unquoteBytes ('%' :: high :: low :: s) = _
    rw [unquoteBytes, hhighValue, hlowValue]
    change (16 * (b / 16) + b % 16) :: unquoteBytes s = b :: unquoteBytes s
    rw [Nat.div_add_mod]

theorem encode_lt (s : List Char) : ∀ b ∈ Utf8.encode s, b < 256 := by
  intro b hb
  obtain ⟨c, _, hc⟩ := List.mem_flatMap.mp hb
  have hvalid : c.toNat < 0xD800 ∨ 0xDFFF < c.toNat ∧ c.toNat < 0x110000 := c.valid
  unfold Utf8.encodeChar at hc
  dsimp only at hc
  split_ifs at hc
  all_goals
    simp only [List.mem_cons, List.not_mem_nil, or_false] at hc
    omega

theorem unquotePlus_quotePlus (s : List Char) : unquotePlus (quotePlus s) = s := by
  have hbytes : ∀ bs : List Nat, (∀ b ∈ bs, b < 256) →
      unquoteBytes ((bs.flatMap quoteByte).map plusToSpace) = bs := by
    intro bs hbs
    induction bs with
    | nil => rfl
    | cons b bs ih =>
      rw [List.flatMap_cons, List.map_append, unquoteBytes_quoteByte (hbs b List.mem_cons_self),
        ih fun b hb => hbs b (List.mem_cons_of_mem _ hb)]
  rw [unquotePlus, quotePlus, hbytes _ (encode_lt s), Utf8.decode_encode]

/-! ## Pairs and lists -/

/-- The characters of an encoded text. -/
def isPlain (c : Char) : Bool := c.isAlphanum || c ∈ ['-', '.', '_', '~', '+', '%']

theorem isPlain_quoteByte {b : Nat} (hb : b < 256) : ∀ c ∈ quoteByte b, isPlain c = true := by
  have hall : ∀ b < 256, (quoteByte b).all isPlain = true := by decide +kernel
  exact List.all_eq_true.mp (hall b hb)

theorem isPlain_quotePlus {s : List Char} {c : Char} (h : c ∈ quotePlus s) : isPlain c = true := by
  obtain ⟨b, hb, hc⟩ := List.mem_flatMap.mp h
  exact isPlain_quoteByte (encode_lt s b hb) c hc

theorem not_mem_quotePlus {c : Char} (hc : isPlain c = false) (s : List Char) : c ∉ quotePlus s := by
  intro hmem
  rw [isPlain_quotePlus hmem] at hc
  cases hc

theorem mem_pairText {p : List Char × List Char} {c : Char} (h : c ∈ pairText p) : isPlain c = true ∨ c = '=' := by
  rcases List.mem_append.mp h with h | h
  · exact Or.inl (isPlain_quotePlus h)
  · rcases List.mem_cons.mp h with rfl | h
    · exact Or.inr rfl
    · exact Or.inl (isPlain_quotePlus h)

theorem readPair_pairText (p : List Char × List Char) : readPair (pairText p) = p := by
  have hname : ∀ c ∈ quotePlus p.1, decide (c ≠ '=') = true := by
    intro c hc
    refine decide_eq_true fun heq => ?_
    exact not_mem_quotePlus (by decide) p.1 (heq ▸ hc)
  unfold readPair pairText
  rw [List.takeWhile_append_of_pos hname, List.dropWhile_append_of_pos hname,
    List.takeWhile_cons_of_neg (by decide), List.dropWhile_cons_of_neg (by decide), List.append_nil,
    unquotePlus_quotePlus]
  change (p.1, unquotePlus (quotePlus p.2)) = p
  rw [unquotePlus_quotePlus]

theorem mem_intercalate {α : Type} {sep : List α} {xs : List (List α)} {a : α}
    (h : a ∈ sep.intercalate xs) : a ∈ sep ∨ ∃ x ∈ xs, a ∈ x := by
  induction xs with
  | nil => cases h
  | cons y ys ih =>
    cases ys with
    | nil =>
      rw [List.intercalate_singleton] at h
      exact Or.inr ⟨y, List.mem_singleton_self y, h⟩
    | cons z zs =>
      rw [List.intercalate_cons_cons, List.mem_append, List.mem_append] at h
      rcases h with (h | h) | h
      · exact Or.inr ⟨y, List.mem_cons_self, h⟩
      · exact Or.inl h
      · rcases ih h with hsep | ⟨x, hx, ha⟩
        · exact Or.inl hsep
        · exact Or.inr ⟨x, List.mem_cons_of_mem y hx, ha⟩

theorem isInfix_intercalate {α : Type} {sep x : List α} {xs : List (List α)} (h : x ∈ xs) :
    x <:+: sep.intercalate xs := by
  induction xs with
  | nil => cases h
  | cons y ys ih =>
    cases ys with
    | nil =>
      obtain rfl := List.mem_singleton.mp h
      exact ⟨[], [], by simp⟩
    | cons z zs =>
      rw [List.intercalate_cons_cons]
      rcases List.mem_cons.mp h with rfl | h
      · exact ⟨[], sep ++ sep.intercalate (z :: zs), by simp⟩
      · exact (ih h).trans (List.suffix_append _ _).isInfix

theorem mem_urlencode {ps : Parameters} {c : Char} (h : c ∈ urlencode ps) :
    isPlain c = true ∨ c = '=' ∨ c = '&' := by
  rcases mem_intercalate h with h | ⟨text, htext, h⟩
  · exact Or.inr (Or.inr (List.mem_singleton.mp h))
  · obtain ⟨p, _, rfl⟩ := List.mem_map.mp htext
    rcases mem_pairText h with h | h
    · exact Or.inl h
    · exact Or.inr (Or.inl h)

/-- Reading gives back what was written: every name and value, blank or repeated, in order. -/
theorem parseQsl_urlencode (ps : Parameters) : parseQsl (urlencode ps) = ps := by
  unfold parseQsl urlencode
  have hne : ∀ p ∈ ps.map pairText, decide (p ≠ []) = true := by
    intro text htext
    obtain ⟨p, _, rfl⟩ := List.mem_map.mp htext
    simp [pairText]
  cases ps with
  | nil => rfl
  | cons p ps =>
    rw [List.splitOn_intercalate '&' _ (by simp), List.filter_eq_self.mpr hne, List.map_map]
    · exact (List.map_congr_left fun p _ => readPair_pairText p).trans (List.map_id _)
    · intro text htext hmem
      obtain ⟨p, _, rfl⟩ := List.mem_map.mp htext
      rcases mem_pairText hmem with h | h
      · exact absurd h (by decide)
      · exact absurd h (by decide)

theorem urlencode_eq_nil_iff {ps : Parameters} : urlencode ps = [] ↔ ps = [] := by
  constructor
  · intro h
    rw [← parseQsl_urlencode ps, h]
    rfl
  · rintro rfl
    rfl

/-- The name of a parameter, followed by its sign, stands in the text. -/
theorem quotePlus_isInfix {ps : Parameters} {p : List Char × List Char} (h : p ∈ ps) :
    quotePlus p.1 ++ ['='] <:+: urlencode ps := by
  have hpair : quotePlus p.1 ++ ['='] <:+: pairText p := ⟨[], quotePlus p.2, by simp [pairText]⟩
  exact hpair.trans (isInfix_intercalate (List.mem_map_of_mem h))

end Orchestract.UrlEncoding
