import Orchestract.Domain.Text

/-!
# Passwords

The stored form of a password, `app/domain/shared/password.py`. The key derivation `hashlib.scrypt`
is a parameter: password, salt, `n`, `r`, `p` and the length of the key, and `none` where it raises.
-/

namespace Orchestract.Password

set_option autoImplicit false

abbrev Scrypt := List UInt8 → List UInt8 → Int → Int → Int → Nat → Option (List UInt8)

/-! The parameters of a new hash; `scryptN` is `2**14`. -/

def scryptN : Nat := 16384

def scryptR : Nat := 8

def scryptP : Nat := 1

def dklen : Nat := 32

/-- `bytes.hex`. -/
def hex (bytes : List UInt8) : List Char :=
  bytes.flatMap fun b => [Nat.digitChar (b.toNat / 16), Nat.digitChar (b.toNat % 16)]

def hexDigit (c : Char) : Option Nat :=
  if '0' ≤ c ∧ c ≤ '9' then some (c.toNat - '0'.toNat)
  else if 'a' ≤ c ∧ c ≤ 'f' then some (c.toNat - 'a'.toNat + 10)
  else if 'A' ≤ c ∧ c ≤ 'F' then some (c.toNat - 'A'.toNat + 10)
  else none

/-- `bytes.fromhex`: two digits a byte, with blanks between the bytes. -/
def fromHex : List Char → Option (List UInt8)
  | [] => some []
  | [c] => if c.isWhitespace ∨ c ∈ ['\u000B', '\u000C'] then some [] else none
  | c :: d :: cs =>
    if c.isWhitespace ∨ c ∈ ['\u000B', '\u000C'] then fromHex (d :: cs)
    else do
      let high ← hexDigit c
      let low ← hexDigit d
      let bytes ← fromHex cs
      return UInt8.ofNat (16 * high + low) :: bytes

def encode (rawPassword : String) : List UInt8 := rawPassword.toUTF8.data.toList

/-- The fields are joined with `$`. -/
def hashPassword (scrypt : Scrypt) (salt : List UInt8) (rawPassword : String) : Option String := do
  let derived ← scrypt (encode rawPassword) salt scryptN scryptR scryptP dklen
  return String.ofList (['$'].intercalate ["scrypt".toList, (toString scryptN).toList,
    (toString scryptR).toList, (toString scryptP).toList, hex salt, hex derived])

/-- What `verify_password` returns where nothing raises. -/
def check (scrypt : Scrypt) (rawPassword : String) (n r p saltHex hashHex : List Char) : Option Bool := do
  let salt ← fromHex saltHex
  let n ← Text.int n
  let r ← Text.int r
  let p ← Text.int p
  let derived ← scrypt (encode rawPassword) salt n r p 32
  let expected ← fromHex hashHex
  return decide (derived = expected)

def verifyPassword (scrypt : Scrypt) (rawPassword encoded : String) : Bool :=
  match encoded.toList.splitOn '$' with
  | [scheme, n, r, p, saltHex, hashHex] =>
    if scheme = "scrypt".toList then (check scrypt rawPassword n r p saltHex hashHex).getD false
    else false
  | _ => false

/-! ## The round trip -/

theorem hexDigit_digitChar {n : Nat} (h : n < 16) :
    hexDigit (Nat.digitChar n) = some n ∧ (Nat.digitChar n).isWhitespace = false ∧
      Nat.digitChar n ∉ ['\u000B', '\u000C', '$'] := by
  revert n
  decide

theorem fromHex_hex (bytes : List UInt8) : fromHex (hex bytes) = some bytes := by
  induction bytes with
  | nil => rfl
  | cons b bytes ih =>
    obtain ⟨hhigh, hspace, hmem⟩ := hexDigit_digitChar (n := b.toNat / 16) (by have := b.toNat_lt; omega)
    obtain ⟨hlow, _, _⟩ := hexDigit_digitChar (n := b.toNat % 16) (by omega)
    have hbyte : UInt8.ofNat (16 * (b.toNat / 16) + b.toNat % 16) = b := by
      rw [Nat.div_add_mod]
      exact UInt8.ofNat_toNat
    have hskip : ¬ ((Nat.digitChar (b.toNat / 16)).isWhitespace = true ∨
        Nat.digitChar (b.toNat / 16) ∈ ['\u000B', '\u000C']) := by
      simp only [List.mem_cons, not_or] at hmem ⊢
      simp [hspace, hmem]
    have hcons : hex (b :: bytes) =
        Nat.digitChar (b.toNat / 16) :: Nat.digitChar (b.toNat % 16) :: hex bytes := rfl
    rw [hcons, fromHex, if_neg hskip, hhigh, hlow, ih]
    simp only [Option.bind_eq_bind, Option.bind_some, hbyte, Option.pure_def]

theorem dollar_notMem_hex (bytes : List UInt8) : '$' ∉ hex bytes := by
  intro h
  obtain ⟨b, _, hb⟩ := List.mem_flatMap.mp h
  obtain ⟨_, _, hhigh⟩ := hexDigit_digitChar (n := b.toNat / 16) (by have := b.toNat_lt; omega)
  obtain ⟨_, _, hlow⟩ := hexDigit_digitChar (n := b.toNat % 16) (by omega)
  simp only [List.mem_cons, List.not_mem_nil, or_false, not_or] at hb hhigh hlow
  rcases hb with hb | hb
  · exact hhigh.2.2 hb.symm
  · exact hlow.2.2 hb.symm

/-- What is checked against a stored password is the key of the given one. -/
theorem verify_stored (scrypt : Scrypt) (salt key : List UInt8) (rawPassword : String) :
    verifyPassword scrypt rawPassword (String.ofList (['$'].intercalate ["scrypt".toList,
      (toString scryptN).toList, (toString scryptR).toList, (toString scryptP).toList, hex salt, hex key])) =
        true ↔ scrypt (encode rawPassword) salt scryptN scryptR scryptP dklen = some key := by
  let fields := ["scrypt".toList, (toString scryptN).toList, (toString scryptR).toList,
    (toString scryptP).toList, hex salt, hex key]
  have hfields : ∀ field ∈ fields, '$' ∉ field := by
    simp only [fields, List.forall_mem_cons, List.not_mem_nil, false_imp_iff, implies_true, and_true]
    exact ⟨by decide, by decide, by decide, by decide, dollar_notMem_hex salt, dollar_notMem_hex key⟩
  have hsplit : (['$'].intercalate fields).splitOn '$' = fields :=
    List.splitOn_intercalate '$' hfields (by simp [fields])
  unfold verifyPassword
  rw [String.toList_ofList, hsplit]
  change (check scrypt rawPassword (toString scryptN).toList (toString scryptR).toList
    (toString scryptP).toList (hex salt) (hex key)).getD false = true ↔
      scrypt (encode rawPassword) salt scryptN scryptR scryptP 32 = some key
  have hn : Text.int (toString scryptN).toList = some (scryptN : Int) := Text.int_toString (by decide)
  have hr : Text.int (toString scryptR).toList = some (scryptR : Int) := Text.int_toString (by decide)
  have hp : Text.int (toString scryptP).toList = some (scryptP : Int) := Text.int_toString (by decide)
  simp only [check, fromHex_hex, hn, hr, hp, Option.bind_eq_bind, Option.bind_some, Option.pure_def]
  cases scrypt (encode rawPassword) salt scryptN scryptR scryptP 32 with
  | none => simp
  | some derived => simp

theorem hashPassword_eq_some {scrypt : Scrypt} {salt : List UInt8} {rawPassword encoded : String}
    (h : hashPassword scrypt salt rawPassword = some encoded) :
    ∃ key, scrypt (encode rawPassword) salt scryptN scryptR scryptP dklen = some key ∧
      encoded = String.ofList (['$'].intercalate ["scrypt".toList, (toString scryptN).toList,
        (toString scryptR).toList, (toString scryptP).toList, hex salt, hex key]) := by
  simp only [hashPassword, Option.bind_eq_bind, Option.bind_eq_some_iff, Option.pure_def,
    Option.some.injEq] at h
  obtain ⟨key, hkey, hencoded⟩ := h
  exact ⟨key, hkey, hencoded.symm⟩

/-- A stored password is accepted. -/
theorem verify_hash {scrypt : Scrypt} {salt : List UInt8} {rawPassword encoded : String}
    (h : hashPassword scrypt salt rawPassword = some encoded) :
    verifyPassword scrypt rawPassword encoded = true := by
  obtain ⟨key, hkey, rfl⟩ := hashPassword_eq_some h
  exact (verify_stored scrypt salt key rawPassword).mpr hkey

/-! ## Other passwords -/

theorem encode_inj {a b : String} (h : encode a = encode b) : a = b := by
  apply String.toByteArray_inj.mp
  exact ByteArray.ext (Array.toList_inj.mp h)

/-- No two passwords have the same key under one salt. -/
def CollisionFree (scrypt : Scrypt) : Prop :=
  ∀ salt n r p length a b key,
    scrypt a salt n r p length = some key → scrypt b salt n r p length = some key → a = b

/-- Only the password that was stored is accepted. -/
theorem verify_hash_iff {scrypt : Scrypt} {salt : List UInt8} {rawPassword encoded : String}
    (hfree : CollisionFree scrypt) (h : hashPassword scrypt salt rawPassword = some encoded) (other : String) :
    verifyPassword scrypt other encoded = true ↔ other = rawPassword := by
  obtain ⟨key, hkey, rfl⟩ := hashPassword_eq_some h
  rw [verify_stored]
  constructor
  · intro hother
    exact encode_inj (hfree _ _ _ _ _ _ _ key hother hkey)
  · rintro rfl
    exact hkey

end Orchestract.Password
