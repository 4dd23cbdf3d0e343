import Mathlib.Data.Int.ModEq
import Mathlib.Tactic.Linarith

/-!
# Machine words

The integer types of C as functions on `Int`: `Word.unsigned w x` is the value an unsigned
word of `w` bits has after `x` is stored in it, `Word.signed w x` the value of the same bits
in two's complement. A model that computes on words wraps every result; the lemmas here
remove the wrapping where the result is in range.
-/

namespace Word

variable {w : Nat} {x y : Int}

/-- `x` stored in an unsigned word of `w` bits. -/
def unsigned (w : Nat) (x : Int) : Int := x % 2 ^ w

/-- `x` stored in a signed word of `w` bits. -/
def signed (w : Nat) (x : Int) : Int := x.bmod (2 ^ w)

/-- An unsigned word is not negative. -/
theorem unsigned_nonneg : 0 ≤ unsigned w x := Int.emod_nonneg x (by positivity)

/-- A number in the range of the word is stored as it is. -/
theorem unsigned_of_range (h0 : 0 ≤ x) (h : x < 2 ^ w) : unsigned w x = x :=
  Int.emod_eq_of_lt h0 h

/-- A number in the signed range of the word is stored as it is. -/
theorem signed_of_range (h0 : -2 ^ w ≤ 2 * x) (h : 2 * x < 2 ^ w) : signed w x = x := by
  refine Int.bmod_eq_of_le_mul_two ?_ ?_
  · rw [Nat.cast_pow, Nat.cast_ofNat]
    linarith
  · rw [Nat.cast_pow, Nat.cast_ofNat]
    linarith

/-- Storing as unsigned first loses nothing for a signed word. -/
@[simp] theorem signed_unsigned : signed w (unsigned w x) = signed w x := by
  have h := Int.emod_bmod x (2 ^ w)
  rwa [Nat.cast_pow, Nat.cast_ofNat] at h

@[simp] theorem unsigned_unsigned : unsigned w (unsigned w x) = unsigned w x :=
  Int.emod_emod_of_dvd x (dvd_refl _)

end Word
