import Mathlib.Data.Int.Notation
import Mathlib.Data.List.Basic

/-!
# Formatted output

The conversions `%d` and `%u` of the `printf` family, and `snprintf` into a buffer of bounded size.

## Main definitions

* `Printf.decimal`, `Printf.signedDecimal`: `%u` and `%d`.
* `Printf.snprintf`: what of a text is left in the buffer.

## Main results

* `Printf.decimal_injective`, `Printf.signedDecimal_injective`: the number can be read off its text;
* `Printf.mem_decimal`, `Printf.mem_signedDecimal`: the characters that may occur in it;
* `Printf.append_separator_inj`: a field is read off up to the separator behind it.
-/

namespace Printf

/-- `%u`: the decimal digits of a number. -/
def decimal (n : ℕ) : List UInt8 :=
  (Nat.toDigits 10 n).map fun c => UInt8.ofNat c.toNat

/-- `%d`: a minus sign before the digits of a negative number. -/
def signedDecimal (x : ℤ) : List UInt8 :=
  if x < 0 then 45 :: decimal x.natAbs else decimal x.natAbs

/-- `snprintf(buf, size, …)`: the characters before the terminator, of a text that was formatted. -/
def snprintf (size : ℕ) (s : List UInt8) : List UInt8 :=
  s.take (size - 1)

/-- The code of a decimal digit. -/
theorem toNat_of_isDigit {c : Char} (h : c.isDigit) : 48 ≤ c.toNat ∧ c.toNat ≤ 57 := by
  simpa [Char.isDigit, UInt32.le_iff_toNat_le] using h

theorem mem_decimal {n : ℕ} {b : UInt8} (h : b ∈ decimal n) : 48 ≤ b ∧ b ≤ 57 := by
  obtain ⟨c, hc, rfl⟩ := List.mem_map.mp h
  obtain ⟨hlo, hhi⟩ := toNat_of_isDigit (Nat.isDigit_of_mem_toDigits (by decide) (by decide) hc)
  rw [UInt8.le_iff_toNat_le, UInt8.le_iff_toNat_le, UInt8.toNat_ofNat',
    Nat.mod_eq_of_lt (by omega)]
  exact ⟨hlo, hhi⟩

theorem mem_signedDecimal {x : ℤ} {b : UInt8} (h : b ∈ signedDecimal x) :
    b = 45 ∨ 48 ≤ b ∧ b ≤ 57 := by
  unfold signedDecimal at h
  split_ifs at h
  · rcases List.mem_cons.mp h with rfl | h
    · exact Or.inl rfl
    · exact Or.inr (mem_decimal h)
  · exact Or.inr (mem_decimal h)

/-- The digits of a number, read back from their codes. -/
theorem map_decimal (n : ℕ) :
    (decimal n).map (fun b => Char.ofNat b.toNat) = Nat.toDigits 10 n := by
  rw [decimal, List.map_map, List.map_congr_left (g := id), List.map_id]
  intro c hc
  obtain ⟨-, hhi⟩ := toNat_of_isDigit (Nat.isDigit_of_mem_toDigits (by decide) (by decide) hc)
  -- a code below 256 survives the way through a byte
  rw [Function.comp_apply, UInt8.toNat_ofNat', Nat.mod_eq_of_lt (by omega), Char.ofNat_toNat]
  rfl

/-- A number is determined by its digits. -/
theorem decimal_injective : Function.Injective decimal := by
  intro m n h
  have hdigits : Nat.toDigits 10 m = Nat.toDigits 10 n := by
    rw [← map_decimal m, h, map_decimal n]
  rw [← Nat.ofDigitChars_ten_toDigits (n := m), hdigits, Nat.ofDigitChars_ten_toDigits]

/-- A number is determined by its sign and its digits. -/
theorem signedDecimal_injective : Function.Injective signedDecimal := by
  intro x y h
  -- the minus sign is not a digit
  have hsign : ∀ n m, 45 :: decimal n ≠ decimal m := by
    intro n m hnm
    have hmem : (45 : UInt8) ∈ decimal m := hnm ▸ List.mem_cons_self
    exact absurd (mem_decimal hmem).1 (by decide)
  unfold signedDecimal at h
  split_ifs at h with hx hy hy
  · have habs := decimal_injective (List.cons.inj h).2
    omega
  · exact absurd h (hsign _ _)
  · exact absurd h.symm (hsign _ _)
  · have habs := decimal_injective h
    omega

/-! ### Separators -/

/-- A field that a separator ends is read off, if the separator does not occur in it. -/
theorem append_separator_inj {sep : UInt8} {xs ys us vs : List UInt8} (hxs : sep ∉ xs)
    (hys : sep ∉ ys) (h : xs ++ sep :: us = ys ++ sep :: vs) : xs = ys ∧ us = vs := by
  -- a field is what comes before the first separator
  have hspan : ∀ zs ws : List UInt8, sep ∉ zs → (zs ++ sep :: ws).takeWhile (· != sep) = zs := by
    intro zs ws hzs
    have hpos : ∀ b ∈ zs, (b != sep) = true := by
      intro b hb
      exact bne_iff_ne.mpr fun heq => hzs (heq ▸ hb)
    rw [List.takeWhile_append_of_pos hpos]
    simp
  have hfield : xs = ys := by
    rw [← hspan xs us hxs, h, hspan ys vs hys]
  subst hfield
  exact ⟨rfl, (List.cons.inj (List.append_cancel_left h)).2⟩

end Printf
