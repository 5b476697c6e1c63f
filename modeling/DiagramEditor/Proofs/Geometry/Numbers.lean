import DiagramEditor.Proofs.Geometry.Containment
import Mathlib

/-! When a difference of doubles is a number. Subtraction takes its operands apart, subtracts and
rounds the mantissas and packs the result again; only infinities of one sign make it lose a number,
and `contain` never brings one back. -/
namespace DiagramEditor

open Float.Model (UnpackedFloat Format)

namespace Axis

open Float.Model.UnpackedFloat

theorem unpack_isNaN {spec : Format} (b : BitVec spec.numBits) :
    (unpack spec b).isNaN = isNaNBits b := by
  rw [isNaNBits]
  fun_cases unpack spec b with
  | case1 mantissa exponent sign s he hm => simp [UnpackedFloat.isNaN, mantissa, hm]
  | case2 mantissa exponent he hm => simp [UnpackedFloat.isNaN, mantissa, exponent, he, hm]
  | case3 mantissa exponent sign s he he' hm => simp [UnpackedFloat.isNaN, mantissa, hm]
  | case4 mantissa exponent e sign s he he' hm => simp [UnpackedFloat.isNaN, exponent, he]
  | case5 mantissa exponent e sign s he he' => simp [UnpackedFloat.isNaN, exponent, he]

theorem pack_isNaN {spec : Format} (u : UnpackedFloat) :
    (unpack spec (pack spec u)).isNaN = u.isNaN := by
  rw [unpack_isNaN]
  fun_cases pack with
  | case1 => exact isNaNBits_packedNaN
  | case2 s => simp [isNaNBits, packedInfinity, UnpackedFloat.isNaN]
  | case3 s => simp [isNaNBits, packedZero, UnpackedFloat.isNaN]
  | case4 s m e hm biased hlarge => simp [isNaNBits, packedInfinity, UnpackedFloat.isNaN]
  | case5 s m e hm bits biased hsmall hnormal =>
    have hexponent : BitVec.ofNat spec.exponentBits biased ≠ -1#_ := by
      have hmod : biased % 2 ^ spec.exponentBits ≠ 2 ^ spec.exponentBits - 1 := by
        rw [Nat.mod_eq_of_lt (by omega)]
        omega
      simpa [BitVec.neg_one_eq_allOnes, ← BitVec.toNat_inj] using hmod
    simp [isNaNBits, UnpackedFloat.isNaN, hexponent]
  | case6 s m e hm bits biased hsmall hsubnormal =>
    simp [isNaNBits, UnpackedFloat.isNaN, Nat.pos_iff_ne_zero.mp spec.he]

theorem normalize_isNaN (spec : Format) (m e : ℤ) (s : Sign) :
    (UnpackedFloat.normalize spec m e s).isNaN = false := by
  have hround : ∀ s n e, (UnpackedFloat.round spec s n e).isNaN = false := by
    intro s n e
    simp only [UnpackedFloat.round, roundWithAccuracy]
    split <;> rfl
  rw [UnpackedFloat.normalize]
  split
  · exact hround _ _ _
  · rfl
  · exact hround _ _ _

theorem unpacked_sub_isNaN (spec : Format) (a b : UnpackedFloat) :
    (UnpackedFloat.sub spec a b).isNaN = (a.isNaN || b.isNaN || (a.isInf && a.beq b)) := by
  -- the signs decide for infinities and zeros, and only two finite doubles are rounded
  rcases a with ⟨_ | _⟩ | _ | ⟨_ | _⟩ | _ <;> rcases b with ⟨_ | _⟩ | _ | ⟨_ | _⟩ | _ <;>
    first
      | rfl
      | exact normalize_isNaN _ _ _ _

section Sub
variable {x y : Float}

theorem sub_isNaN : (x - y).isNaN = true ↔
    x.isNaN = true ∨ y.isNaN = true ∨ (x.isInf = true ∧ (x == y) = true) := by
  have hsub := unpacked_sub_isNaN .binary64 x.toModel.unpack y.toModel.unpack
  have hpack : (x - y).isNaN =
      (UnpackedFloat.sub .binary64 x.toModel.unpack y.toModel.unpack).isNaN := pack_isNaN _
  rw [hpack, hsub, Bool.or_eq_true, Bool.or_eq_true, Bool.and_eq_true, or_assoc]
  rfl

theorem isFinite_iff : x.isFinite = true ↔ x.isNaN = false ∧ x.isInf = false := by
  change x.toModel.unpack.isFinite = true ↔
    x.toModel.unpack.isNaN = false ∧ x.toModel.unpack.isInf = false
  cases x.toModel.unpack <;> simp [UnpackedFloat.isFinite, UnpackedFloat.isNaN, UnpackedFloat.isInf]

theorem isInf_of_beq (h : (x == y) = true) : x.isInf = y.isInf := by
  rcases (Float.beq_iff_ne_nan_and_eq.mp h).2.2 with rfl | ⟨rfl, rfl⟩ | ⟨rfl, rfl⟩
  · rfl
  · decide
  · decide

theorem sub_isNaN_of_isFinite (h : x.isFinite = true ∨ y.isFinite = true) :
    (x - y).isNaN = true ↔ x.isNaN = true ∨ y.isNaN = true := by
  rw [sub_isNaN]
  have hnot : ¬ (x.isInf = true ∧ (x == y) = true) := by
    intro hinf
    obtain ⟨hx, heq⟩ := hinf
    rcases h with h | h
    · exact Bool.false_ne_true ((isFinite_iff.mp h).2.symm.trans hx)
    · exact Bool.false_ne_true ((isFinite_iff.mp h).2.symm.trans ((isInf_of_beq heq).symm.trans hx))
  simp only [hnot, or_false]

end Sub

/-- A pointer that holds an item at `grab` asks for a coordinate that is not a number. -/
def Blurs (page origin grab : Float) : Prop :=
  page.isNaN = true ∨ grab.isNaN = true ∨
    ((page - origin).isInf = true ∧ (page - origin == grab) = true)

theorem want_isNaN {page origin grab : Float} (h : origin.isFinite = true) :
    (page - origin - grab).isNaN = true ↔ Blurs page origin grab := by
  rw [sub_isNaN, sub_isNaN_of_isFinite (Or.inr h), (isFinite_iff.mp h).1, Blurs]
  simp

theorem drag_isNaN {first last c : Float} (hfirst : first.isFinite = true)
    (hlast : last.isFinite = true) : (last - (first - c)).isNaN = true ↔ c.isNaN = true := by
  rw [sub_isNaN_of_isFinite (Or.inl hlast), sub_isNaN_of_isFinite (Or.inl hfirst),
    (isFinite_iff.mp hfirst).1, (isFinite_iff.mp hlast).1]
  simp

end Axis

theorem Fits.isNaN {want extent box c : Float} (h : Fits want extent box c) :
    c.isNaN = true ↔ want.isNaN = true := by
  constructor
  · intro hc
    by_contra hwant
    have hnumber := (Axis.le_iff.mp (h.nonneg (Bool.eq_false_iff.mpr hwant))).2.1
    exact Bool.false_ne_true (hnumber.symm.trans hc)
  · exact h.nan

end DiagramEditor
