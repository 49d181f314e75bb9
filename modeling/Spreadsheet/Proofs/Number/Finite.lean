import Mathlib.Algebra.Group.Nat.Defs
import Spreadsheet.Number.Read

/-! Which doubles are finite. A finite double is below `2 ^ 1024`; rounding a quotient moves it by less than a binary place, so
dividing by two or more leaves it finite. -/

namespace Spreadsheet.Number

open Float.Model
open Float.Model.UnpackedFloat hiding unpack pack

variable {s : Sign} {m n : Nat} {d e : Int} {x y : Float}

/-! Packing. Finite numbers have an exponent up to 971. -/

/-- What a double keeps of a number. -/
def kept (u : UnpackedFloat) : UnpackedFloat := UnpackedFloat.unpack Format.binary64 (UnpackedFloat.pack Format.binary64 u)

/-- A mantissa of 53 bits and an exponent up to 971. -/
def InRange : UnpackedFloat → Prop
  | .finite _ m e _ => m.log2 ≤ 52 ∧ e ≤ 971
  | _ => True

lemma log2_le_of_lt {k : Nat} (h : m < 2 ^ (k + 1)) : m.log2 ≤ k := by
  by_cases hzero : m = 0
  · rw [hzero]
    exact Nat.zero_le k
  · exact Nat.le_of_lt_succ ((Nat.log2_lt hzero).mpr h)

/-- A finite double is below `2 ^ 1024`, and its exponent field is not the highest one. -/
lemma unpack_spec (b : BitVec Format.binary64.numBits) :
    ((UnpackedFloat.unpack Format.binary64 b).isFinite = true ↔ unpackExponent b ≠ -1#11) ∧
      InRange (UnpackedFloat.unpack Format.binary64 b) := by
  have hbias : (Format.binary64.exponentBias : Int) = 1023 := rfl
  have hlt : (unpackExponent b).toNat < 2048 := (unpackExponent b).isLt
  unfold UnpackedFloat.unpack
  dsimp only
  by_cases hones : unpackExponent b = -1#11
  · rw [if_pos hones]
    by_cases hmantissa : unpackMantissa b = 0#52
    · rw [if_pos hmantissa]
      exact ⟨iff_of_false Bool.false_ne_true (not_not_intro hones), trivial⟩
    · rw [if_neg hmantissa]
      exact ⟨iff_of_false Bool.false_ne_true (not_not_intro hones), trivial⟩
  · rw [if_neg hones]
    have hne : (unpackExponent b).toNat ≠ 2047 := fun heq => hones (BitVec.eq_of_toNat_eq heq)
    by_cases hzero : unpackExponent b = 0#11
    · rw [if_pos hzero]
      by_cases hmantissa : unpackMantissa b = 0#52
      · rw [dif_pos hmantissa]
        exact ⟨iff_of_true rfl hones, trivial⟩
      · rw [dif_neg hmantissa]
        have hfield : (unpackExponent b).toNat = 0 := congrArg BitVec.toNat hzero
        exact ⟨iff_of_true rfl hones, log2_le_of_lt (Nat.lt_trans (unpackMantissa b).isLt (by decide)), by omega⟩
    · rw [if_neg hzero]
      exact ⟨iff_of_true rfl hones, log2_le_of_lt (BitVec.isLt _), by omega⟩

lemma isFinite_kept_finite (s : Sign) (hm : 0 < m) (he : e ≤ 971) : (kept (.finite s m e hm)).isFinite = true := by
  have hbias : (Format.binary64.exponentBias : Int) = 1023 := rfl
  have hbits : (Format.binary64.mantissaBitsWithoutImplicit : Int) = 52 := rfl
  rw [kept, (unpack_spec _).1]
  unfold UnpackedFloat.pack
  simp only [hbias, hbits]
  have hfield : (e + 1023 + 52).toNat < 2047 := by omega
  have hinfinite : ¬ 2 ^ Format.binary64.exponentBits ≤ (e + 1023 + 52).toNat + 1 := Nat.not_le.mpr (Nat.succ_lt_succ hfield)
  rw [if_neg hinfinite]
  split
  · rw [unpackExponent_packComponents]
    intro h
    have hnat := congrArg BitVec.toNat h
    rw [BitVec.toNat_ofNat] at hnat
    have hmod : (e + 1023 + 52).toNat % 2 ^ 11 = (e + 1023 + 52).toNat := Nat.mod_eq_of_lt (by omega)
    have hones : (-1#11).toNat = 2047 := rfl
    omega
  · rw [unpackExponent_packComponents]
    decide

lemma isFinite_kept_zero (s : Sign) : (kept (.zero s)).isFinite = true := by cases s <;> rfl

lemma isFinite_kept_infinity (s : Sign) : (kept (.infinity s)).isFinite = false := by
  rw [← Bool.not_eq_true, kept, (unpack_spec _).1]
  exact not_not_intro unpackExponent_packComponents

lemma isFinite_kept_notANumber : (kept .notANumber).isFinite = false := by
  rw [← Bool.not_eq_true, kept, (unpack_spec _).1]
  exact not_not_intro unpackExponent_packComponents

lemma bounds_of_unpack {b : BitVec Format.binary64.numBits} {hm : 0 < m}
    (h : UnpackedFloat.unpack Format.binary64 b = .finite s m e hm) : m.log2 ≤ 52 ∧ e ≤ 971 := by
  have hrange := (unpack_spec b).2
  rwa [h] at hrange

/-! Rounding. -/

lemma mantissa_shiftRight (em : ExtendedMantissa) (k : Nat) : (em >>> k).mantissa = em.mantissa / 2 ^ k := by
  induction k with
  | zero => exact (Nat.div_one _).symm
  | succ k ih =>
    change (em >>> k).mantissa / 2 = _
    rw [ih, Nat.div_div_eq_div_mul, Nat.pow_succ]

lemma roundedMantissa_le (em : ExtendedMantissa) : em.roundedMantissa ≤ em.mantissa + 1 := by
  obtain ⟨m, _ | _, _ | _⟩ := em <;>
    simp only [ExtendedMantissa.roundedMantissa, ExtendedMantissa.accuracy, Accuracy.roundToNearestEven] <;> omega

/-- Cutting binary places off and rounding gains at most one binary place. -/
lemma log2_le_of_le_div {k r : Nat} (hr : r ≤ m / 2 ^ k + 1) : r.log2 ≤ m.log2 + 1 - k := by
  have hlt : m / 2 ^ k < 2 ^ (m.log2 + 1 - k) := by
    refine Nat.div_lt_of_lt_mul (Nat.lt_of_lt_of_le Nat.lt_log2_self ?_)
    rw [← Nat.pow_add]
    exact Nat.pow_le_pow_right Nat.two_pos (by omega)
  exact log2_le_of_lt (Nat.lt_of_le_of_lt (Nat.le_trans hr hlt) (Nat.pow_lt_pow_succ Nat.one_lt_two))

lemma targetExponent_eq (t : Int) : Format.binary64.targetExponent t = max (t - 53) (-1074) := rfl

lemma exponent_shiftToTarget (m : Nat) (e : Int) (acc : Accuracy) :
    (shiftToTargetExponent Format.binary64 m e acc).2 = max e (max (totalExponent m e - 53) (-1074)) := by
  change e + ((Format.binary64.targetExponent (totalExponent m e) - e).toNat : Int) = _
  rw [targetExponent_eq]
  omega

lemma log2_shiftToTarget (m : Nat) (e : Int) (acc : Accuracy) :
    ((shiftToTargetExponent Format.binary64 m e acc).1.roundedMantissa.log2 : Int) ≤
      max 0 (m.log2 + 1 + e - (shiftToTargetExponent Format.binary64 m e acc).2) := by
  let k := (Format.binary64.targetExponent (totalExponent m e) - e).toNat
  have hmantissa : (ExtendedMantissa.ofMantissaAndAccuracy m acc).mantissa = m := by
    obtain _ | _ | _ | _ := acc <;> rfl
  have hshift : (ExtendedMantissa.ofMantissaAndAccuracy m acc >>> k).mantissa = m / 2 ^ k := by
    rw [mantissa_shiftRight, hmantissa]
  have hrounded : (shiftToTargetExponent Format.binary64 m e acc).1.roundedMantissa ≤ m / 2 ^ k + 1 :=
    Nat.le_trans (roundedMantissa_le _) (Nat.succ_le_succ (Nat.le_of_eq hshift))
  have hlog := log2_le_of_le_div hrounded
  change _ ≤ max 0 ((m.log2 : Int) + 1 + e - (e + (k : Int)))
  omega

lemma isFinite_round (s : Sign) (acc : Accuracy) (he : e ≤ 971) (htotal : totalExponent m e ≤ 1023) :
    (kept (roundWithAccuracy Format.binary64 s m e acc)).isFinite = true := by
  have hfirst := exponent_shiftToTarget m e acc
  have hlog := log2_shiftToTarget m e acc
  unfold roundWithAccuracy
  generalize shiftToTargetExponent Format.binary64 m e acc = first at hfirst hlog
  obtain ⟨em, e₁⟩ := first
  have hsecond := exponent_shiftToTarget em.roundedMantissa e₁ .exact
  dsimp only at hfirst hlog ⊢
  by_cases hzero : (shiftToTargetExponent Format.binary64 em.roundedMantissa e₁ .exact).1.mantissa = 0
  · rw [dif_pos hzero]
    exact isFinite_kept_zero s
  · rw [dif_neg hzero]
    refine isFinite_kept_finite s _ ?_
    rw [hsecond]
    simp only [totalExponent] at htotal ⊢
    simp only [totalExponent] at hfirst
    omega

/-! Dividing. -/

lemma log2_div_le (hn : 0 < n) : (m / n).log2 ≤ m.log2 - n.log2 := by
  refine log2_le_of_lt (Nat.div_lt_of_lt_mul ?_)
  calc m < 2 ^ (m.log2 + 1) := Nat.lt_log2_self
    _ ≤ 2 ^ (n.log2 + (m.log2 - n.log2 + 1)) := Nat.pow_le_pow_right Nat.two_pos (by omega)
    _ = 2 ^ n.log2 * 2 ^ (m.log2 - n.log2 + 1) := Nat.pow_add 2 _ _
    _ ≤ n * 2 ^ (m.log2 - n.log2 + 1) := Nat.mul_le_mul_right _ (Nat.log2_self_le (Nat.ne_of_gt hn))

lemma log2_shiftLeft (hm : 0 < m) (k : Nat) : (m <<< k).log2 = m.log2 + k := by
  have hne : m <<< k ≠ 0 := Nat.ne_of_gt (Nat.shiftLeft_pos_iff.mpr hm)
  rw [Nat.log2_eq_iff hne, Nat.shiftLeft_eq, Nat.pow_add, Nat.add_right_comm, Nat.pow_add _ _ k]
  exact ⟨Nat.mul_le_mul_right _ (Nat.log2_self_le (Nat.ne_of_gt hm)), Nat.mul_lt_mul_of_pos_right Nat.lt_log2_self (Nat.two_pow_pos k)⟩

lemma bounds_of_divCore (hm : 0 < m) (hn : 0 < n) {q : Nat} {f : Int} {acc : Accuracy}
    (h : divCore Format.binary64 m e n d = (q, f, acc)) (hlog : m.log2 ≤ 52) (he : e ≤ 971) (htwo : 2 ≤ totalExponent n d) :
    f ≤ 971 ∧ totalExponent q f ≤ 1023 := by
  simp only [divCore, targetExponent_eq, Prod.mk.injEq] at h
  obtain ⟨hq, hf, -⟩ := h
  have hquotient := log2_div_le (m := m <<< (e - d - f).toNat) hn
  rw [log2_shiftLeft hm] at hquotient
  rw [hf] at hq
  rw [hq] at hquotient
  simp only [totalExponent] at htwo hf ⊢
  omega

lemma isFinite_eq_unpack : x.isFinite = x.toModel.unpack.isFinite := rfl

lemma isFinite_div_eq_kept :
    (x / y).isFinite = (kept (UnpackedFloat.div Format.binary64 x.toModel.unpack y.toModel.unpack)).isFinite := rfl

lemma isFinite_div (hn : 0 < n) (hy : y.toModel.unpack = .finite s n d hn) (htwo : 2 ≤ totalExponent n d) :
    (x / y).isFinite = x.isFinite := by
  rw [isFinite_div_eq_kept, isFinite_eq_unpack, hy]
  cases hx : x.toModel.unpack with
  | notANumber => exact isFinite_kept_notANumber
  | infinity s' => exact isFinite_kept_infinity (s' / s)
  | zero s' => exact isFinite_kept_zero (s' / s)
  | finite s' m e hm =>
    obtain ⟨hlog, he⟩ := bounds_of_unpack hx
    obtain ⟨hexponent, htotal⟩ := bounds_of_divCore hm hn rfl hlog he htwo
    exact isFinite_round (s' / s) (divCore Format.binary64 m e n d).2.2 hexponent htotal

lemma isFinite_div_hundred (x : Float) : (x / 100).isFinite = x.isFinite :=
  isFinite_div (n := 100 <<< 46) (d := -46) (s := .positive) (by decide) rfl (by decide)

end Spreadsheet.Number
