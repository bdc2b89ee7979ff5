import Mathlib.Data.List.TakeWhile

/-!
# Decimal numerals in a text

A numeral that ends at a character which is no digit can be read back from the text it stands in.
-/

namespace Orchestract.Numerals

set_option autoImplicit false

variable {m n : Nat} {c d : Char} {xs ys : List Char}

theorem toDigits_inj (h : Nat.toDigits 10 m = Nat.toDigits 10 n) : m = n := by
  rw [← Nat.ofDigitChars_ten_toDigits (n := m), h, Nat.ofDigitChars_ten_toDigits]

theorem takeWhile_toDigits (n : Nat) (hc : c.isDigit = false) :
    (Nat.toDigits 10 n ++ c :: xs).takeWhile Char.isDigit = Nat.toDigits 10 n := by
  have hdigits : ∀ d ∈ Nat.toDigits 10 n, d.isDigit = true :=
    fun d hd => Nat.isDigit_of_mem_toDigits (by decide) (by decide) hd
  rw [List.takeWhile_append_of_pos hdigits, List.takeWhile_cons_of_neg (by simp [hc]), List.append_nil]

/-- The numeral at the head of a text and what follows it. -/
theorem toDigits_append_inj (hc : c.isDigit = false) (hd : d.isDigit = false)
    (h : Nat.toDigits 10 m ++ c :: xs = Nat.toDigits 10 n ++ d :: ys) : m = n ∧ c = d ∧ xs = ys := by
  have hhead := congrArg (List.takeWhile Char.isDigit) h
  rw [takeWhile_toDigits m hc, takeWhile_toDigits n hd] at hhead
  obtain rfl := toDigits_inj hhead
  obtain ⟨rfl, rfl⟩ := List.cons.inj (List.append_cancel_left h)
  exact ⟨rfl, rfl, rfl⟩

end Orchestract.Numerals
