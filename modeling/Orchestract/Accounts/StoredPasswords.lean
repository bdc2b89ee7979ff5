import Orchestract.Domain.Integers
import Orchestract.Tenancy.PasswordLinking

/-!
# Stored passwords

The text of a stored password by its grammar: six fields joined by `$`. A password is accepted by a
text of this grammar whose digest is its key, and by no other text.
-/

namespace Orchestract.Password

set_option autoImplicit false

/-! ## Hexadecimal texts -/

/-- Pairs of hexadecimal digits and the bytes they write; a blank may stand before a pair and at the
end. -/
inductive HexText : List Char → List UInt8 → Prop
  | nil : HexText [] []
  | blank {c : Char} {s : List Char} {bytes : List UInt8} (hc : Text.isBlank c = true)
      (hs : HexText s bytes) : HexText (c :: s) bytes
  | byte {c d : Char} {high low : Nat} {s : List Char} {bytes : List UInt8} (hhigh : hexDigit c = some high)
      (hlow : hexDigit d = some low) (hs : HexText s bytes) :
      HexText (c :: d :: s) (UInt8.ofNat (16 * high + low) :: bytes)

theorem isBlank_iff {c : Char} :
    c.isWhitespace = true ∨ c ∈ ['\u000B', '\u000C'] ↔ Text.isBlank c = true := by
  simp only [Char.isWhitespace, Text.isBlank, List.mem_cons, List.not_mem_nil, or_false, Bool.or_eq_true,
    Bool.and_eq_true, decide_eq_true_eq, ← Char.toNat_inj]
  change (((c.toNat = 32 ∨ c.toNat = 9) ∨ c.toNat = 13) ∨ c.toNat = 10) ∨ c.toNat = 11 ∨ c.toNat = 12 ↔ _
  omega

theorem hexDigit_of_blank {c : Char} (h : Text.isBlank c = true) : hexDigit c = none := by
  simp only [Text.isBlank, Bool.or_eq_true, Bool.and_eq_true, decide_eq_true_eq] at h
  have hle : ∀ d : Char, 48 ≤ d.toNat → ¬ d ≤ c := by
    intro d hd
    rw [Char.le_def, UInt32.le_iff_toNat_le]
    change ¬ d.toNat ≤ c.toNat
    omega
  unfold hexDigit
  rw [if_neg fun hrange => hle '0' (by decide) hrange.1, if_neg fun hrange => hle 'a' (by decide) hrange.1,
    if_neg fun hrange => hle 'A' (by decide) hrange.1]

theorem HexText.fromHex {s : List Char} {bytes : List UInt8} (h : HexText s bytes) :
    fromHex s = some bytes := by
  induction h with
  | nil => rfl
  | @blank c s bytes hc hs ih =>
    cases s with
    | nil =>
      cases hs
      rw [Password.fromHex, if_pos (isBlank_iff.mpr hc)]
    | cons d s => rw [Password.fromHex, if_pos (isBlank_iff.mpr hc), ih]
  | @byte c d high low s bytes hhigh hlow hs ih =>
    have hc : ¬ (c.isWhitespace = true ∨ c ∈ ['\u000B', '\u000C']) := by
      intro hblank
      rw [hexDigit_of_blank (isBlank_iff.mp hblank)] at hhigh
      cases hhigh
    rw [Password.fromHex, if_neg hc, hhigh, hlow, ih]
    rfl

theorem hexText_of_fromHex {s : List Char} {bytes : List UInt8} (h : fromHex s = some bytes) :
    HexText s bytes := by
  fun_induction fromHex s generalizing bytes with
  | case1 =>
    cases h
    exact .nil
  | case2 c hc =>
    cases h
    exact .blank (isBlank_iff.mp hc) .nil
  | case3 c hc => cases h
  | case4 c d cs hc ih => exact .blank (isBlank_iff.mp hc) (ih h)
  | case5 c d cs hc ih =>
    simp only [Option.bind_eq_bind, Option.bind_eq_some_iff, Option.pure_def, Option.some.injEq] at h
    obtain ⟨high, hhigh, low, hlow, rest, hrest, rfl⟩ := h
    exact .byte hhigh hlow (ih hrest)

theorem HexText.dollar_notMem {s : List Char} {bytes : List UInt8} (h : HexText s bytes) : '$' ∉ s := by
  induction h with
  | nil => exact List.not_mem_nil
  | blank hc hs ih =>
    intro hmem
    rcases List.mem_cons.mp hmem with rfl | hmem
    · cases hc
    · exact ih hmem
  | byte hhigh hlow hs ih =>
    intro hmem
    rcases List.mem_cons.mp hmem with rfl | hmem
    · cases hhigh
    · rcases List.mem_cons.mp hmem with rfl | hmem
      · cases hlow
      · exact ih hmem

/-! ## Stored texts -/

/-- A text of six fields. -/
structure Stored where
  n : Text.IntegerNumeral
  r : Text.IntegerNumeral
  p : Text.IntegerNumeral
  saltHex : List Char
  salt : List UInt8
  hashHex : List Char
  digest : List UInt8
  hsalt : HexText saltHex salt
  hdigest : HexText hashHex digest

namespace Stored

variable (s : Stored)

def fields : List (List Char) := ["scrypt".toList, s.n.text, s.r.text, s.p.text, s.saltHex, s.hashHex]

def text : String := String.ofList (['$'].intercalate s.fields)

theorem dollar_notMem {field : List Char} (h : field ∈ s.fields) : '$' ∉ field := by
  have hnumeral : ∀ i : Text.IntegerNumeral, '$' ∉ i.text := by
    intro i
    apply i.notMem_text
    · exact mt Text.isBlank_toAscii_iff.mpr (by decide)
    · decide
    · decide
  simp only [fields, List.mem_cons, List.not_mem_nil, or_false] at h
  rcases h with rfl | rfl | rfl | rfl | rfl | rfl
  · decide
  · exact hnumeral s.n
  · exact hnumeral s.r
  · exact hnumeral s.p
  · exact s.hsalt.dollar_notMem
  · exact s.hdigest.dollar_notMem

theorem splitOn_text : s.text.toList.splitOn '$' = s.fields := by
  unfold text
  rw [String.toList_ofList]
  exact List.splitOn_intercalate '$' (fun _ h => s.dollar_notMem h) (by simp [fields])

end Stored

variable {scrypt : Scrypt} {rawPassword encoded : String} {salt : List UInt8}

theorem check_iff {n r p saltHex hashHex : List Char} :
    (check scrypt rawPassword n r p saltHex hashHex).getD false = true ↔
      ∃ salt n' r' p' key, fromHex saltHex = some salt ∧ Text.int n = some n' ∧ Text.int r = some r' ∧
        Text.int p = some p' ∧ scrypt (encode rawPassword) salt n' r' p' 32 = some key ∧
          fromHex hashHex = some key := by
  have hcheck : (check scrypt rawPassword n r p saltHex hashHex).getD false = true ↔
      check scrypt rawPassword n r p saltHex hashHex = some true := by
    cases check scrypt rawPassword n r p saltHex hashHex <;> simp
  rw [hcheck]
  simp only [check, Option.bind_eq_bind, Option.bind_eq_some_iff, Option.pure_def, Option.some.injEq,
    decide_eq_true_eq]
  constructor
  · rintro ⟨salt, hsalt, n', hn, r', hr, p', hp, key, hkey, digest, hdigest, rfl⟩
    exact ⟨salt, n', r', p', key, hsalt, hn, hr, hp, hkey, hdigest⟩
  · rintro ⟨salt, n', r', p', key, hsalt, hn, hr, hp, hkey, hdigest⟩
    exact ⟨salt, hsalt, n', hn, r', hr, p', hp, key, hkey, key, hdigest, rfl⟩

/-- What is accepted is a stored text whose digest is the key of the password. -/
theorem verify_iff : verifyPassword scrypt rawPassword encoded = true ↔
    ∃ s : Stored, encoded.toList.splitOn '$' = s.fields ∧
      scrypt (encode rawPassword) s.salt s.n.value s.r.value s.p.value 32 = some s.digest := by
  constructor
  · intro h
    unfold verifyPassword at h
    split at h
    case h_1 scheme n r p saltHex hashHex hsplit =>
      split_ifs at h with hscheme
      obtain ⟨salt, n', r', p', key, hsalt, hn, hr, hp, hkey, hdigest⟩ := check_iff.mp h
      obtain ⟨n, rfl, rfl⟩ := Text.exists_numeral hn
      obtain ⟨r, rfl, rfl⟩ := Text.exists_numeral hr
      obtain ⟨p, rfl, rfl⟩ := Text.exists_numeral hp
      refine ⟨⟨n, r, p, saltHex, salt, hashHex, key, hexText_of_fromHex hsalt, hexText_of_fromHex hdigest⟩, ?_,
        hkey⟩
      rw [hsplit, hscheme]
      rfl
    case h_2 => cases h
  · rintro ⟨s, hfields, hkey⟩
    unfold verifyPassword
    rw [hfields]
    change (check scrypt rawPassword s.n.text s.r.text s.p.text s.saltHex s.hashHex).getD false = true
    exact check_iff.mpr ⟨s.salt, _, _, _, s.digest, s.hsalt.fromHex, s.n.int_text, s.r.int_text, s.p.int_text,
      hkey, s.hdigest.fromHex⟩

theorem hexText_hex (bytes : List UInt8) : HexText (hex bytes) bytes :=
  hexText_of_fromHex (fromHex_hex bytes)

/-- The text of a new hash. -/
theorem exists_stored (salt key : List UInt8) : ∃ s : Stored,
    s.fields = ["scrypt".toList, (toString scryptN).toList, (toString scryptR).toList,
      (toString scryptP).toList, hex salt, hex key] := by
  obtain ⟨n, hn, _⟩ := Text.exists_numeral (Text.int_toString (n := scryptN) (by decide))
  obtain ⟨r, hr, _⟩ := Text.exists_numeral (Text.int_toString (n := scryptR) (by decide))
  obtain ⟨p, hp, _⟩ := Text.exists_numeral (Text.int_toString (n := scryptP) (by decide))
  refine ⟨⟨n, r, p, hex salt, salt, hex key, key, hexText_hex salt, hexText_hex key⟩, ?_⟩
  rw [← hn, ← hr, ← hp]
  rfl

/-- The fields of a text say what is stored. -/
theorem Stored.reads {s : Stored} {n r p : Nat} {salt key : List UInt8}
    (h : s.fields = ["scrypt".toList, (toString n).toList, (toString r).toList, (toString p).toList,
      hex salt, hex key]) (hlimit : ∀ m ∈ [n, r, p], (Nat.toDigits 10 m).length ≤ 4300) :
    s.n.value = n ∧ s.r.value = r ∧ s.p.value = p ∧ s.salt = salt ∧ s.digest = key := by
  simp only [Stored.fields, List.cons.injEq, true_and, and_true] at h
  obtain ⟨hn, hr, hp, hsalt, hdigest⟩ := h
  have hvalue : ∀ (i : Text.IntegerNumeral) (m : Nat), m ∈ [n, r, p] → i.text = (toString m).toList →
      i.value = m := by
    intro i m hm hi
    have hread := i.int_text
    rw [hi, Text.int_toString (hlimit m hm)] at hread
    exact (Option.some.inj hread).symm
  have hbytes : ∀ {t : List Char} {bytes other : List UInt8}, HexText t bytes → t = hex other →
      bytes = other := by
    rintro t bytes other ht rfl
    have hread := ht.fromHex
    rw [fromHex_hex] at hread
    exact (Option.some.inj hread).symm
  exact ⟨hvalue s.n n (by simp) hn, hvalue s.r r (by simp) hr, hvalue s.p p (by simp) hp, hbytes s.hsalt hsalt,
    hbytes s.hdigest hdigest⟩

/-- What is stored for a password reads as it was written, and accepts the passwords with the same
key; every other text is refused. -/
theorem stored_passwords (scrypt : Scrypt) :
    (∀ (salt : List UInt8) (rawPassword encoded : String), hashPassword scrypt salt rawPassword = some encoded →
      (∃ s : Stored, encoded.toList.splitOn '$' = s.fields) ∧
      (∀ s : Stored, encoded.toList.splitOn '$' = s.fields →
        s.n.value = scryptN ∧ s.r.value = scryptR ∧ s.p.value = scryptP ∧ s.salt = salt ∧
          scrypt (encode rawPassword) salt scryptN scryptR scryptP dklen = some s.digest) ∧
      (∀ other, verifyPassword scrypt other encoded = true ↔
        scrypt (encode other) salt scryptN scryptR scryptP dklen =
          scrypt (encode rawPassword) salt scryptN scryptR scryptP dklen) ∧
      verifyPassword scrypt rawPassword encoded = true) ∧
    ∀ rawPassword encoded : String, verifyPassword scrypt rawPassword encoded = true ↔
      ∃ s : Stored, encoded.toList.splitOn '$' = s.fields ∧
        scrypt (encode rawPassword) s.salt s.n.value s.r.value s.p.value 32 = some s.digest := by
  refine ⟨fun salt rawPassword encoded h => ?_, fun rawPassword encoded => verify_iff⟩
  obtain ⟨key, hkey, rfl⟩ := hashPassword_eq_some h
  obtain ⟨s, hs⟩ := exists_stored salt key
  have hsplit := s.splitOn_text
  unfold Stored.text at hsplit
  rw [hs] at hsplit
  refine ⟨⟨s, hsplit.trans hs.symm⟩, fun s' hs' => ?_, fun other => ?_, verify_hash h⟩
  · obtain ⟨hn, hr, hp, hsalt, hdigest⟩ := Stored.reads (hs'.symm.trans hsplit) (by decide)
    exact ⟨hn, hr, hp, hsalt, by rw [hkey, hdigest]⟩
  · rw [verify_stored, hkey]

/-- The password `secret` with a salt of 16 bytes. -/
theorem stored_passwords_secret : saltSecret.length = 16 ∧
    ∃ encoded, hashPassword scryptSecret saltSecret "secret" = some encoded ∧
      verifyPassword scryptSecret "secret" encoded = true :=
  ⟨rfl, _, rfl, ((stored_passwords scryptSecret).1 saltSecret "secret" _ rfl).2.2.2⟩

end Orchestract.Password
