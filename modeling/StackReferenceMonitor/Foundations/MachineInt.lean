import Mathlib.Algebra.Group.Int.Defs
import Mathlib.Algebra.Group.Nat.Defs

/-!
# Fixed-width integers

The value that a C object of `w` bits holds after an operation whose result is `x`: the one in its
range that differs from `x` by a multiple of `2 ^ w`.

## Main definitions

* `MachineInt.signed`, `MachineInt.unsigned`: the conversions.
* `MachineInt.encodeLe`, `MachineInt.decodeLe`: integers in memory, the low byte first.

## Main results

* `MachineInt.signed_of_mem`, `MachineInt.unsigned_of_mem`: a value in range is kept;
* `MachineInt.decodeLe_encodeLe`: what is stored in `w` bytes is read back modulo `256 ^ w`.
-/

namespace MachineInt

/-- Conversion to a signed type of `w` bits. -/
def signed (w : ℕ) (x : ℤ) : ℤ :=
  x.bmod (2 ^ w)

/-- Conversion to an unsigned type of `w` bits. -/
def unsigned (w : ℕ) (x : ℤ) : ℤ :=
  x % 2 ^ w

/-- A value in the range of `int` is kept. -/
theorem signed_32_of_mem {x : ℤ} (hlo : -2 ^ 31 ≤ x) (hhi : x < 2 ^ 31) : signed 32 x = x := by
  apply Int.bmod_eq_of_le <;> omega

/-- A value in the range of a signed 64-bit type is kept. -/
theorem signed_64_of_mem {x : ℤ} (hlo : -2 ^ 63 ≤ x) (hhi : x < 2 ^ 63) : signed 64 x = x := by
  apply Int.bmod_eq_of_le <;> omega

/-- A value in the range of an unsigned type is kept. -/
theorem unsigned_of_mem {w : ℕ} {x : ℤ} (hlo : 0 ≤ x) (hhi : x < 2 ^ w) : unsigned w x = x :=
  Int.emod_eq_of_lt hlo hhi

/-- An increment before or after the conversion is the same. -/
theorem signed_signed_add (w : ℕ) (x y : ℤ) : signed w (signed w x + y) = signed w (x + y) := by
  simp [signed]

/-- A conversion to a signed type and back to an unsigned one of the same width. -/
theorem unsigned_signed (w : ℕ) (x : ℤ) : unsigned w (signed w x) = unsigned w x := by
  have hcast : ((2 ^ w : ℕ) : ℤ) = 2 ^ w := Int.natCast_pow 2 w
  rw [unsigned, signed, ← hcast, Int.bmod_emod, hcast, unsigned]

/-- The other way round. -/
theorem signed_unsigned (w : ℕ) (x : ℤ) : signed w (unsigned w x) = signed w x := by
  have hcast : ((2 ^ w : ℕ) : ℤ) = 2 ^ w := Int.natCast_pow 2 w
  rw [signed, unsigned, ← hcast, Int.emod_bmod, signed]

/-- An `int`, by the remainder of what is converted to it. -/
theorem signed_32_eq (x : ℤ) :
    signed 32 x = if x % 2 ^ 32 < 2 ^ 31 then x % 2 ^ 32 else x % 2 ^ 32 - 2 ^ 32 := by
  rw [signed, Int.bmod_def]
  rfl

/-- An `int` that is not negative is kept by a conversion to an unsigned 64-bit type. -/
theorem toNat_unsigned_64_signed_32_of_lt {x : ℤ} (h : x % 2 ^ 32 < 2 ^ 31) :
    (unsigned 64 (signed 32 x)).toNat = (x % 2 ^ 32).toNat := by
  rw [signed_32_eq, if_pos h, unsigned_of_mem (by omega) (by omega)]

/-- A number in the range of `int` is kept by a conversion to `int` and on to an unsigned 64-bit
type. -/
theorem toNat_unsigned_64_signed_32 {k : ℕ} (hk : k < 2 ^ 31) :
    (unsigned 64 (signed 32 k)).toNat = k := by
  rw [toNat_unsigned_64_signed_32_of_lt (by omega)]
  omega

/-- A negative `int` is as an unsigned 64-bit value beyond every signed one. -/
theorem le_unsigned_64_signed_32 {x : ℤ} (h : 2 ^ 31 ≤ x % 2 ^ 32) :
    2 ^ 63 ≤ unsigned 64 (signed 32 x) := by
  rw [signed_32_eq, if_neg (by omega), unsigned]
  omega

/-! ### Integers in memory -/

/-- The `w` bytes of an integer in memory, the low byte first. -/
def encodeLe : ℕ → ℕ → List UInt8
  | 0, _ => []
  | w + 1, x => UInt8.ofNat x :: encodeLe w (x / 256)

/-- The integer whose bytes are given, the low byte first. -/
def decodeLe : List UInt8 → ℕ
  | [] => 0
  | b :: bs => b.toNat + 256 * decodeLe bs

@[simp]
theorem length_encodeLe (w x : ℕ) : (encodeLe w x).length = w := by
  induction w generalizing x with
  | zero => rfl
  | succ w ih => simp [encodeLe, ih]

/-- What is stored in `w` bytes is read back modulo `256 ^ w`. -/
theorem decodeLe_encodeLe (w x : ℕ) : decodeLe (encodeLe w x) = x % 256 ^ w := by
  induction w generalizing x with
  | zero => simp [encodeLe, decodeLe, Nat.mod_one]
  | succ w ih =>
    rw [encodeLe, decodeLe, ih, Nat.pow_succ', Nat.mod_mul]
    simp

end MachineInt
