import Mathlib.Algebra.Group.Nat.Defs
import Testplan.Uuid
/-!
# Identifiers are read as they are written

An identifier is written as the hexadecimal digits of a number, cut into groups.  The groups
put together are again the digits of the number (`digits_add`), and the number is read from
them (`ofDigits?_digits`).
-/
namespace Testplan.Uuid

@[simp] theorem length_digits (count n : Nat) : (digits count n).length = count := by
  induction count generalizing n with
  | zero => rfl
  | succ count ih => simp [digits, ih]

/-- The digits of a number are those of its higher and those of its lower part. -/
theorem digits_add (high low n : Nat) :
    digits (high + low) n = digits high (n / 16 ^ low) ++ digits low n := by
  induction low generalizing n with
  | zero => simp [digits]
  | succ low ih =>
    have hpow : n / 16 / 16 ^ low = n / 16 ^ (low + 1) := by
      rw [Nat.div_div_eq_div_mul, Nat.pow_succ, Nat.mul_comm]
    rw [Nat.add_succ, digits, ih, hpow, digits, List.append_assoc]

theorem digit?_digitChar : ∀ d < 16, digit? (Nat.digitChar d) = some d := by decide

/-- **A number below a bound is read from its digits.** -/
theorem ofDigits?_digits {count n : Nat} (h : n < 16 ^ count) :
    ofDigits? (digits count n) = some n := by
  unfold ofDigits?
  induction count generalizing n with
  | zero =>
    have hzero : n = 0 := by simpa using h
    rw [hzero]
    rfl
  | succ count ih =>
    have hhigh : n / 16 < 16 ^ count := by
      rw [Nat.div_lt_iff_lt_mul (by decide)]
      exact h
    have hsum : 16 * (n / 16) + n % 16 = n := Nat.div_add_mod n 16
    rw [digits, List.foldl_append, ih hhigh]
    simp [digit?_digitChar _ (Nat.mod_lt n (by decide : 0 < 16)), hsum]

/-- The groups of the hyphenated form are read without the hyphens. -/
theorem ofHyphenated?_groups {a b c d e : List Char} (ha : a.length = 8) (hb : b.length = 4)
    (hc : c.length = 4) (hd : d.length = 4) :
    ofHyphenated? (a ++ '-' :: b ++ '-' :: c ++ '-' :: d ++ '-' :: e) =
      (ofDigits? (a ++ b ++ c ++ d ++ e)).map fun n => ⟨BitVec.ofNat 128 n⟩ := by
  match a, ha, b, hb, c, hc, d, hd with
  | [_, _, _, _, _, _, _, _], _, [_, _, _, _], _, [_, _, _, _], _, [_, _, _, _], _ =>
    exact if_pos ⟨rfl, rfl, rfl, rfl⟩

/-- **An identifier is read as it is written.** -/
theorem parse?_render (u : Uuid) : parse? u.render = some u := by
  have hlt : u.val.toNat < 16 ^ 32 := u.val.isLt
  have hgroups : digits 8 (u.val.toNat >>> 96) ++ digits 4 (u.val.toNat >>> 80) ++
      digits 4 (u.val.toNat >>> 64) ++ digits 4 (u.val.toNat >>> 48) ++ digits 12 u.val.toNat =
        digits 32 u.val.toNat := by
    simp only [Nat.shiftRight_eq_div_pow]
    rw [show 32 = 8 + 4 + 4 + 4 + 12 from rfl, digits_add, digits_add, digits_add, digits_add]
    simp only [Nat.div_div_eq_div_mul, Nat.reducePow, Nat.reduceMul]
  unfold parse? render
  dsimp only
  rw [String.toList_ofList, if_neg (by simp), if_pos (by simp),
    ofHyphenated?_groups (length_digits ..) (length_digits ..) (length_digits ..)
      (length_digits ..), hgroups, ofDigits?_digits hlt, Option.map_some]
  simp

end Testplan.Uuid
