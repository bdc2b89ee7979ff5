import Mathlib.Data.List.Basic
import Mathlib.Tactic.IntervalCases

/-!
# UTF-8

The bytes of a text, as numbers, and the text of any bytes. Where bytes are no UTF-8, each longest
beginning of a sequence that is cut short, and each byte that begins none, becomes U+FFFD.
-/

namespace Orchestract.Utf8

set_option autoImplicit false

def encodeChar (c : Char) : List Nat :=
  let n := c.toNat
  if n < 0x80 then [n]
  else if n < 0x800 then [0xC0 + n / 64, 0x80 + n % 64]
  else if n < 0x10000 then [0xE0 + n / 4096, 0x80 + n / 64 % 64, 0x80 + n % 64]
  else [0xF0 + n / 262144, 0x80 + n / 4096 % 64, 0x80 + n / 64 % 64, 0x80 + n % 64]

def encode (s : List Char) : List Nat := s.flatMap encodeChar

/-- A sequence that is begun: its bits so far, the bounds of its next byte and how many bytes it still
needs. -/
structure Begun where
  bits : Nat
  low : Nat
  high : Nat
  missing : Nat

def replacement : Char := '\uFFFD'

/-- What a byte gives where no sequence is begun. -/
def start (b : Nat) : List Char × Option Begun :=
  if b < 0x80 then ([Char.ofNat b], none)
  else if 0xC2 ≤ b ∧ b ≤ 0xDF then ([], some ⟨b - 0xC0, 0x80, 0xBF, 1⟩)
  else if 0xE0 ≤ b ∧ b ≤ 0xEF then
    ([], some ⟨b - 0xE0, if b = 0xE0 then 0xA0 else 0x80, if b = 0xED then 0x9F else 0xBF, 2⟩)
  else if 0xF0 ≤ b ∧ b ≤ 0xF4 then
    ([], some ⟨b - 0xF0, if b = 0xF0 then 0x90 else 0x80, if b = 0xF4 then 0x8F else 0xBF, 3⟩)
  else ([replacement], none)

def step (begun : Option Begun) (b : Nat) : List Char × Option Begun :=
  match begun with
  | none => start b
  | some p =>
    if p.low ≤ b ∧ b ≤ p.high then
      let bits := p.bits * 64 + (b - 0x80)
      if p.missing = 1 then ([Char.ofNat bits], none) else ([], some ⟨bits, 0x80, 0xBF, p.missing - 1⟩)
    else (replacement :: (start b).1, (start b).2)

def decodeFrom (begun : Option Begun) : List Nat → List Char
  | [] => if begun.isSome then [replacement] else []
  | b :: bs => (step begun b).1 ++ decodeFrom (step begun b).2 bs

def decode (bytes : List Nat) : List Char := decodeFrom none bytes

variable {b n bits low high missing : Nat} {bs : List Nat}

theorem decode_last (hlow : low ≤ b) (hhigh : b ≤ high) :
    decodeFrom (some ⟨bits, low, high, 1⟩) (b :: bs) = Char.ofNat (bits * 64 + (b - 0x80)) :: decode bs := by
  have hstep : step (some ⟨bits, low, high, 1⟩) b = ([Char.ofNat (bits * 64 + (b - 0x80))], none) := by
    simp only [step, hlow, hhigh, and_self, if_true]
  rw [decodeFrom, hstep]
  rfl

theorem decode_next (hlow : low ≤ b) (hhigh : b ≤ high) :
    decodeFrom (some ⟨bits, low, high, missing + 2⟩) (b :: bs) =
      decodeFrom (some ⟨bits * 64 + (b - 0x80), 0x80, 0xBF, missing + 1⟩) bs := by
  have hstep : step (some ⟨bits, low, high, missing + 2⟩) b =
      ([], some ⟨bits * 64 + (b - 0x80), 0x80, 0xBF, missing + 1⟩) := by
    simp [step, hlow, hhigh]
  rw [decodeFrom, hstep]
  rfl

theorem decode_start {p : Begun} (h : start b = ([], some p)) : decode (b :: bs) = decodeFrom (some p) bs := by
  change (start b).1 ++ decodeFrom (start b).2 bs = _
  rw [h]
  rfl

theorem start_two (h : 2 ≤ n) (h' : n ≤ 31) : start (0xC0 + n) = ([], some ⟨n, 0x80, 0xBF, 1⟩) := by
  interval_cases n <;> rfl

theorem start_three (h : n ≤ 15) : start (0xE0 + n) =
    ([], some ⟨n, if n = 0 then 0xA0 else 0x80, if n = 13 then 0x9F else 0xBF, 2⟩) := by
  interval_cases n <;> rfl

theorem start_four (h : n ≤ 4) : start (0xF0 + n) =
    ([], some ⟨n, if n = 0 then 0x90 else 0x80, if n = 4 then 0x8F else 0xBF, 3⟩) := by
  interval_cases n <;> rfl

/-- The bytes of a character give it back, whatever follows. -/
theorem decode_encodeChar (c : Char) (bs : List Nat) : decode (encodeChar c ++ bs) = c :: decode bs := by
  have hvalid : c.toNat < 0xD800 ∨ 0xDFFF < c.toNat ∧ c.toNat < 0x110000 := c.valid
  have hback : ∀ m, m = c.toNat → Char.ofNat m = c := by
    rintro m rfl
    exact Char.ofNat_toNat c
  unfold encodeChar
  generalize c.toNat = n at hvalid hback
  dsimp only
  split_ifs with h1 h2 h3
  · change (start n).1 ++ decodeFrom (start n).2 bs = _
    rw [start, if_pos h1, hback n rfl]
    rfl
  · change decode ((0xC0 + n / 64) :: (0x80 + n % 64) :: bs) = _
    rw [decode_start (start_two (by omega) (by omega)), decode_last (by omega) (by omega)]
    rw [hback _ (by omega)]
  · change decode ((0xE0 + n / 4096) :: (0x80 + n / 64 % 64) :: (0x80 + n % 64) :: bs) = _
    have hlow : (if n / 4096 = 0 then 0xA0 else 0x80) ≤ 0x80 + n / 64 % 64 := by
      split_ifs <;> omega
    have hhigh : 0x80 + n / 64 % 64 ≤ if n / 4096 = 13 then 0x9F else 0xBF := by
      split_ifs <;> omega
    rw [decode_start (start_three (by omega)), decode_next hlow hhigh,
      decode_last (by omega) (by omega)]
    rw [hback _ (by omega)]
  · change decode ((0xF0 + n / 262144) :: (0x80 + n / 4096 % 64) :: (0x80 + n / 64 % 64) ::
      (0x80 + n % 64) :: bs) = _
    have hlow : (if n / 262144 = 0 then 0x90 else 0x80) ≤ 0x80 + n / 4096 % 64 := by
      split_ifs <;> omega
    have hhigh : 0x80 + n / 4096 % 64 ≤ if n / 262144 = 4 then 0x8F else 0xBF := by
      split_ifs <;> omega
    rw [decode_start (start_four (by omega)), decode_next hlow hhigh,
      decode_next (by omega) (by omega),
      decode_last (by omega) (by omega)]
    rw [hback _ (by omega)]

theorem decode_encode (s : List Char) : decode (encode s) = s := by
  induction s with
  | nil => rfl
  | cons c s ih => rw [encode, List.flatMap_cons, decode_encodeChar, ← encode, ih]

end Orchestract.Utf8
