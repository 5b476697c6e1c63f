import DiagramEditor.Proofs.Geometry.Numbers

/-! The sign of a difference of doubles: it is positive only if the first is the larger one.
Doubles come apart in canonical form, so that the larger mantissa or exponent is the larger number,
and neither rounding nor packing changes a sign. -/
namespace DiagramEditor.Axis

open Float.Model (UnpackedFloat Format)
open Float.Model.UnpackedFloat

def IsPositive : UnpackedFloat → Prop
  | .infinity .positive | .finite .positive .. => True
  | _ => False

@[simp] theorem isPositive_infinity {s : Sign} : IsPositive (.infinity s) ↔ s = .positive := by
  cases s <;> simp [IsPositive]

@[simp] theorem isPositive_finite {s : Sign} {m : ℕ} {e : ℤ} {hm : 0 < m} :
    IsPositive (.finite s m e hm) ↔ s = .positive := by
  cases s <;> simp [IsPositive]

theorem isPositive_iff {u : UnpackedFloat} : IsPositive u ↔ rank (.zero .positive) < rank u := by
  rcases u with ⟨_ | _⟩ | _ | _ | ⟨_ | _⟩ <;> simp [IsPositive, rank, Prod.Lex.toLex_lt_toLex]

theorem zero_lt_iff {x : Float} : 0 < x ↔ IsPositive x.toModel.unpack := by
  have hzero : (0 : Float).toModel.unpack = .zero .positive := rfl
  have hnan : IsPositive x.toModel.unpack → x.isNaN = false := by
    change _ → x.toModel.unpack.isNaN = false
    cases x.toModel.unpack <;> simp [IsPositive, UnpackedFloat.isNaN]
  rw [lt_iff, hzero, ← isPositive_iff]
  exact ⟨fun h => h.2.2, fun h => ⟨isNaN_zero, hnan h, h⟩⟩

theorem ofBitVec_unpackSign {spec : Format} (s : Sign) (e : BitVec spec.exponentBits)
    (m : BitVec spec.mantissaBitsWithoutImplicit) :
    Sign.ofBitVec (unpackSign (packComponents spec s e m)) = s := by
  have hsign : unpackSign (packComponents spec s e m) = s.toBitVec := by
    ext i hi
    obtain rfl : i = 0 := by omega
    simp [unpackSign, packComponents, BitVec.getLsbD_append, BitVec.getElem_append]
  rw [hsign]
  cases s <;> rfl

theorem sign_of_isPositive {spec : Format} {b : BitVec spec.numBits}
    (h : IsPositive (unpack spec b)) : Sign.ofBitVec (unpackSign b) = .positive := by
  revert h
  fun_cases unpack spec b with
  | case1 => exact isPositive_infinity.mp
  | case2 | case3 => exact False.elim
  | case4 | case5 => exact isPositive_finite.mp

theorem not_isPositive_packedZero {spec : Format} (s : Sign) :
    ¬ IsPositive (unpack spec (packedZero spec s)) := by
  have hbits := Nat.one_lt_two_pow (Nat.pos_iff_ne_zero.mp spec.he)
  have hexponent : (0#_ : BitVec spec.exponentBits) ≠ -1#_ := by
    rw [BitVec.neg_one_eq_allOnes, Ne, ← BitVec.toNat_inj, BitVec.toNat_allOnes, BitVec.toNat_ofNat,
      Nat.zero_mod]
    omega
  have he : unpackExponent (packedZero spec s) = 0#_ := unpackExponent_packComponents
  have hm : unpackMantissa (packedZero spec s) = 0#_ := unpackMantissa_packComponents
  rw [unpack, if_neg (he ▸ hexponent), if_pos he, dif_pos hm]
  exact id

theorem isPositive_of_pack {spec : Format} {u : UnpackedFloat}
    (h : IsPositive (unpack spec (pack spec u))) : IsPositive u := by
  have hnumber : u.isNaN = false := by
    have hpack := @pack_isNaN spec u
    rw [← hpack]
    revert h
    cases unpack spec (pack spec u) <;> simp [IsPositive, UnpackedFloat.isNaN]
  have hsign := sign_of_isPositive h
  revert h hnumber hsign
  fun_cases pack spec u with
  | case1 => simp [UnpackedFloat.isNaN]
  | case2 s =>
    intro h _ hs
    rw [packedInfinity, ofBitVec_unpackSign] at hs
    exact isPositive_infinity.mpr hs
  | case3 s => exact fun h => absurd h (not_isPositive_packedZero s)
  | case4 s m e hm biased hlarge =>
    intro h _ hs
    rw [packedInfinity, ofBitVec_unpackSign] at hs
    exact isPositive_finite.mpr hs
  | case5 s m e hm bits biased hsmall hnormal =>
    intro h _ hs
    rw [ofBitVec_unpackSign] at hs
    exact isPositive_finite.mpr hs
  | case6 s m e hm bits biased hsmall hsubnormal =>
    intro h _ hs
    rw [ofBitVec_unpackSign] at hs
    exact isPositive_finite.mpr hs

theorem isPositive_round {spec : Format} {s : Sign} {m : ℕ} {e : ℤ}
    (h : IsPositive (UnpackedFloat.round spec s m e)) : s = .positive := by
  simp only [UnpackedFloat.round, roundWithAccuracy] at h
  cases s with
  | positive => rfl
  | negative => split at h <;> exact h.elim

theorem isPositive_normalize {spec : Format} {m e : ℤ}
    (h : IsPositive (UnpackedFloat.normalize spec m e .positive)) : 0 < m := by
  rw [UnpackedFloat.normalize] at h
  split at h
  · cases isPositive_round h
  · exact h.elim
  · next hm => exact compare_gt_iff_gt.mp hm

/-- A mantissa of at most 53 bits, and of fewer only at the least exponent. -/
structure Canonical (m : ℕ) (e : ℤ) : Prop where
  small : m < 2 ^ 53
  least : -1074 ≤ e
  full : -1074 < e → 2 ^ 52 ≤ m

theorem toNat_one_append {w : ℕ} (v : BitVec w) : (1#1 ++ v).toNat = 2 ^ w + v.toNat := by
  rw [BitVec.toNat_append, ← Nat.shiftLeft_add_eq_or_of_lt v.isLt, BitVec.toNat_ofNat,
    Nat.shiftLeft_eq]
  omega

theorem canonical_of_unpack {b : BitVec 64} {s : Sign} {m : ℕ} {e : ℤ} {hm : 0 < m}
    (h : unpack .binary64 b = .finite s m e hm) : Canonical m e := by
  have hbias : (Format.binary64.exponentBias : ℤ) = 1023 := rfl
  have hwidth : (Format.binary64.mantissaBitsWithoutImplicit : ℤ) = 52 := rfl
  revert h
  fun_cases unpack .binary64 b with
  | case1 | case2 | case3 => exact nofun
  | case4 mantissa exponent e' sign s' _ he' hm' =>
    intro h
    injection h with _ hmant hexp
    have hzero : exponent.toNat = 0 := by rw [he']; rfl
    have hsmall : mantissa.toNat < 2 ^ 52 := mantissa.isLt
    subst hmant hexp
    exact ⟨by omega, by omega, by omega⟩
  | case5 mantissa exponent e' sign s' he he' =>
    intro h
    injection h with _ hmant hexp
    have hpos : exponent.toNat ≠ 0 := fun hzero => he' (BitVec.eq_of_toNat_eq hzero)
    have hsmall : mantissa.toNat < 2 ^ 52 := mantissa.isLt
    have happend : (1#1 ++ mantissa).toNat = 2 ^ 52 + mantissa.toNat := toNat_one_append _
    subst hmant hexp
    exact ⟨by omega, by omega, by omega⟩

theorem lt_of_scaled {m n : ℕ} {e f : ℤ} (hm : Canonical m e) (hn : Canonical n f)
    (h : (decreaseExponent m e (min e f)).1 < (decreaseExponent n f (min e f)).1) :
    e < f ∨ (e = f ∧ m < n) := by
  rcases lt_trichotomy e f with hlt | rfl | hgt
  · exact Or.inl hlt
  · simp [decreaseExponent] at h
    exact Or.inr ⟨rfl, h⟩
  · -- the mantissa at the larger exponent is full, so one shift makes it as large as any
    have hfull := hm.full (hn.least.trans_lt hgt)
    obtain ⟨k, hk⟩ : ∃ k, (e - f).toNat = k + 1 := ⟨(e - f).toNat - 1, by omega⟩
    have hshift : m * 2 ≤ m <<< (e - f).toNat := by
      rw [hk, Nat.shiftLeft_eq, Nat.pow_succ', ← Nat.mul_assoc]
      exact Nat.le_mul_of_pos_right _ (Nat.two_pow_pos k)
    have hsmall := hn.small
    simp only [decreaseExponent, min_eq_right hgt.le, Int.sub_self, Int.toNat_zero,
      Nat.shiftLeft_zero] at h
    omega

theorem rank_lt_finite {s t : Sign} {m n : ℕ} {e f : ℤ} {hm : 0 < m} {hn : 0 < n}
    (ha : Canonical m e) (hb : Canonical n f)
    (h : 0 < s.apply (decreaseExponent m e (min e f)).1 -
      t.apply (decreaseExponent n f (min e f)).1) :
    rank (.finite t n f hn) < rank (.finite s m e hm) := by
  cases s with
  | positive =>
    cases t with
    | positive =>
      have hlt := Int.ofNat_lt.mp (Int.sub_pos.mp h)
      rw [min_comm] at hlt
      have hscaled := lt_of_scaled hb ha hlt
      simpa [rank, Prod.Lex.toLex_lt_toLex] using hscaled
    | negative => simp [rank, Prod.Lex.toLex_lt_toLex]
  | negative =>
    cases t with
    | positive =>
      simp only [Sign.apply] at h
      omega
    | negative =>
      have hscaled := lt_of_scaled ha hb (Int.ofNat_lt.mp (by simpa [Sign.apply] using h))
      simpa [rank, Prod.Lex.toLex_lt_toLex, eq_comm] using hscaled

def IsCanonical (u : UnpackedFloat) : Prop :=
  ∀ s m e hm, u = .finite s m e hm → Canonical m e

theorem rank_lt_of_sub {a b : UnpackedFloat} (ha : IsCanonical a) (hb : IsCanonical b)
    (h : IsPositive (UnpackedFloat.sub .binary64 a b)) : rank b < rank a := by
  -- only two finite doubles need more than a look at their kinds
  rcases a with ⟨_ | _⟩ | _ | ⟨_ | _⟩ | ⟨_ | _, m, e, hm⟩ <;>
    rcases b with ⟨_ | _⟩ | _ | ⟨_ | _⟩ | ⟨_ | _, n, f, hn⟩ <;>
    first
      | exact False.elim h
      | exact rank_lt_finite (ha _ _ _ _ rfl) (hb _ _ _ _ rfl) (isPositive_normalize h)
      | simp [rank, Prod.Lex.toLex_lt_toLex]

section Sub
variable {x y : Float}

theorem isCanonical_unpack (x : Float) : IsCanonical x.toModel.unpack :=
  fun _ _ _ _ h => canonical_of_unpack h

theorem lt_of_sub_pos (h : 0 < x - y) : y < x := by
  have hnumber : ¬ (x - y).isNaN = true := Bool.eq_false_iff.mp (lt_iff.mp h).2.1
  simp only [sub_isNaN, not_or, Bool.not_eq_true] at hnumber
  have hunpack : (x - y).toModel.unpack = unpack .binary64 (pack .binary64
      (UnpackedFloat.sub .binary64 x.toModel.unpack y.toModel.unpack)) := rfl
  rw [zero_lt_iff, hunpack] at h
  have hrank := rank_lt_of_sub (isCanonical_unpack x) (isCanonical_unpack y) (isPositive_of_pack h)
  exact lt_iff.mpr ⟨hnumber.2.1, hnumber.1, hrank⟩

end Sub

end DiagramEditor.Axis
