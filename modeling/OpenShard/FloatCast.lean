import Mathlib

/-!
# Casts between the two binary floating-point formats

`x as f64` and `x as f32` on top of the logical model that Lean gives its own floating-point types:
a finite value is rounded to the target format, everything else keeps its class and sign. Every
`binary32` value is a `binary64` value, so widening is exact and narrowing takes it back.
-/

namespace OpenShard.FloatCast

open Float.Model (Format UnpackedFloat totalExponent)
open Float.Model.UnpackedFloat
open Float.Model.Format (binary32 binary64)

/-- Round a finite value to the format; zeros, infinities and the NaN stay. -/
def roundTo (spec : Format) : UnpackedFloat → UnpackedFloat
  | .finite s m e _ => UnpackedFloat.round spec s m e
  | u => u

/-- `x as f64` for `x : f32`. -/
def toF64 (x : Float32) : Float := .ofModel (.pack (roundTo binary64 x.toModel.unpack))

/-- `x as f32` for `x : f64`. -/
def toF32 (x : Float) : Float32 := .ofModel (.pack (roundTo binary32 x.toModel.unpack))

section Components

@[simp] theorem unpackSign_components {spec : Format} (s : Sign) (e : BitVec spec.exponentBits)
    (m : BitVec spec.mantissaBitsWithoutImplicit) :
    unpackSign (packComponents spec s e m) = s.toBitVec := by
  refine BitVec.eq_of_getLsbD_eq fun i hi => ?_
  obtain rfl : i = 0 := by omega
  simp [unpackSign, packComponents, BitVec.getLsbD_append, BitVec.getElem_append]

theorem ofBitVec_toBitVec (s : Sign) : Sign.ofBitVec s.toBitVec = s := by
  cases s <;> rfl

theorem toBitVec_ofBitVec (b : BitVec 1) : (Sign.ofBitVec b).toBitVec = b := by
  revert b
  decide

theorem packComponents_unpack {spec : Format} (b : BitVec spec.numBits) :
    packComponents spec (Sign.ofBitVec (unpackSign b)) (unpackExponent b) (unpackMantissa b) =
      b := by
  have hm := spec.hm
  have he := spec.he
  apply BitVec.eq_of_getLsbD_eq
  intro i hi
  simp only [packComponents, toBitVec_ofBitVec, BitVec.getLsbD_append, unpackSign,
    unpackExponent, unpackMantissa, BitVec.getLsbD_cast, BitVec.getLsbD_extractLsb]
  split_ifs with h₁ h₂
  · simp
    omega
  · rw [show spec.mantissaBitsWithoutImplicit + (i - spec.mantissaBitsWithoutImplicit) = i by omega]
    simp
    omega
  · have hi' : i = spec.mantissaBitsWithoutImplicit + spec.exponentBits := by
      dsimp only [Format.numBits] at hi
      omega
    subst hi'
    simp

end Components

section Exact

def Canonical32 (m : ℕ) (e : ℤ) : Prop :=
  0 < m ∧ m < 2 ^ 24 ∧ -149 ≤ e ∧ e ≤ 104 ∧ (2 ^ 23 ≤ m ∨ e = -149)

theorem shiftRight_shiftLeft (m k : ℕ) :
    (ExtendedMantissa.ofMantissaAndAccuracy (m <<< k) .exact) >>> k = ⟨m, false, false⟩ := by
  change k.repeat ExtendedMantissa.shiftRightOne ⟨m <<< k, false, false⟩ = _
  induction k generalizing m with
  | zero => rfl
  | succ k ih =>
      have hshift : m <<< (k + 1) = (2 * m) <<< k := by
        rw [Nat.shiftLeft_eq, Nat.shiftLeft_eq, pow_succ]
        ring
      rw [Nat.repeat, hshift, ih]
      simp [ExtendedMantissa.shiftRightOne]

theorem log2_shiftLeft {m : ℕ} (hm : 0 < m) (k : ℕ) : (m <<< k).log2 = m.log2 + k := by
  induction k with
  | zero => rfl
  | succ k ih =>
      have hne : m <<< k ≠ 0 := by
        rw [Nat.shiftLeft_eq]
        exact Nat.mul_ne_zero hm.ne' (by positivity)
      rw [Nat.shiftLeft_succ, Nat.log2_two_mul hne, ih]
      omega

theorem totalExponent_shiftLeft {m : ℕ} (hm : 0 < m) (e : ℤ) (i : ℕ) :
    totalExponent (m <<< i) (e - i) = m.log2 + 1 + e := by
  rw [totalExponent, log2_shiftLeft hm]
  push_cast
  ring

theorem shiftToTarget_exact (spec : Format) {m : ℕ} {e : ℤ} {i k : ℕ} (hm : 0 < m) (hk : k ≤ i)
    (ht : spec.targetExponent (m.log2 + 1 + e) = e - k) :
    shiftToTargetExponent spec (m <<< i) (e - i) .exact = (⟨m <<< k, false, false⟩, e - k) := by
  have hamount : (e - k - (e - i)).toNat = i - k := by omega
  have hshift : m <<< i = (m <<< k) <<< (i - k) := by
    rw [← Nat.shiftLeft_add]
    congr 1
    omega
  simp only [shiftToTargetExponent, shiftToExponent, totalExponent_shiftLeft hm, ht, hamount]
  rw [hshift, shiftRight_shiftLeft]
  congr 1
  omega

/-- A value that has the target exponent once zeros are shifted in or out is rounded to itself. -/
theorem round_exact (spec : Format) (s : Sign) {m : ℕ} {e : ℤ} (j k : ℕ) (hm : 0 < m)
    (ht : spec.targetExponent (m.log2 + 1 + e) = e - k) :
    UnpackedFloat.round spec s (m <<< j) (e - j) =
      .finite s (m <<< k) (e - k) (by rw [Nat.shiftLeft_eq]; positivity) := by
  have hne : m <<< k ≠ 0 := by
    rw [Nat.shiftLeft_eq]
    exact Nat.mul_ne_zero hm.ne' (by positivity)
  have hamount : (e - j - (e - k)).toNat = k - j := by omega
  have hdown : (e - j - ((k - j : ℕ) : ℤ)) = e - ((j + (k - j) : ℕ) : ℤ) := by
    push_cast
    ring
  simp only [UnpackedFloat.round, totalExponent_shiftLeft hm, ht, decreaseExponent, hamount]
  rw [← Nat.shiftLeft_add, hdown, roundWithAccuracy,
    shiftToTarget_exact spec hm (show k ≤ j + (k - j) by omega) ht]
  simp only [ExtendedMantissa.roundedMantissa, ExtendedMantissa.accuracy,
    Accuracy.roundToNearestEven, shiftToTarget_exact spec hm le_rfl ht, dif_neg hne]

theorem log2_bounds {m : ℕ} {e : ℤ} (h : Canonical32 m e) :
    m.log2 ≤ 23 ∧ (m.log2 = 23 ∨ e = -149) := by
  obtain ⟨hpos, hlt, _, _, hor⟩ := h
  have hle : m.log2 < 24 := (Nat.log2_lt hpos.ne').2 hlt
  refine ⟨by omega, ?_⟩
  rcases hor with hbig | he
  · have hge : 23 ≤ m.log2 := (Nat.le_log2 hpos.ne').2 hbig
    exact Or.inl (by omega)
  · exact Or.inr he

theorem target64 {m : ℕ} {e : ℤ} (h : Canonical32 m e) :
    binary64.targetExponent (m.log2 + 1 + e) = e - ((52 - m.log2 : ℕ) : ℤ) := by
  obtain ⟨hle, _⟩ := log2_bounds h
  obtain ⟨_, _, hlow, _, _⟩ := h
  simp only [Format.targetExponent, Format.mantissaBits, Format.minExponent]
  omega

theorem target32 {m : ℕ} {e : ℤ} (h : Canonical32 m e) :
    binary32.targetExponent (m.log2 + 1 + e) = e - ((0 : ℕ) : ℤ) := by
  obtain ⟨hle, hor⟩ := log2_bounds h
  obtain ⟨_, _, hlow, _, _⟩ := h
  simp only [Format.targetExponent, Format.mantissaBits, Format.minExponent]
  omega

theorem round64_canonical (s : Sign) {m : ℕ} {e : ℤ} (h : Canonical32 m e) :
    UnpackedFloat.round binary64 s m e = .finite s (m <<< (52 - m.log2)) (e - ((52 - m.log2 : ℕ) : ℤ))
      (by rw [Nat.shiftLeft_eq]; exact Nat.mul_pos h.1 (by positivity)) := by
  have hr := round_exact binary64 s 0 (52 - m.log2) h.1 (target64 h)
  simpa only [Nat.shiftLeft_zero, Nat.cast_zero, sub_zero] using hr

theorem round32_normalized (s : Sign) {m : ℕ} {e : ℤ} (h : Canonical32 m e) (j : ℕ) :
    UnpackedFloat.round binary32 s (m <<< j) (e - j) = .finite s m e h.1 := by
  have hr := round_exact binary32 s j 0 h.1 (target32 h)
  simpa only [Nat.shiftLeft_zero, Nat.cast_zero, sub_zero] using hr

end Exact

section Packed

/-- A normal mantissa is its stored bits behind the implicit leading bit. -/
theorem implicit_bit {w : ℕ} (v : BitVec w) : (1#1 ++ v).toNat = 2 ^ w + v.toNat := by
  have hor := Nat.two_pow_add_eq_or_of_lt v.isLt 1
  rw [mul_one] at hor
  rw [BitVec.toNat_append, Nat.shiftLeft_eq, show (1#1).toNat * 2 ^ w = 2 ^ w by simp, ← hor]

theorem stored_bits {w m : ℕ} (hbig : 2 ^ w ≤ m) (hsmall : m < 2 ^ (w + 1)) :
    (1#1 ++ BitVec.ofNat w m).toNat = m := by
  rw [pow_succ] at hsmall
  rw [implicit_bit, BitVec.toNat_ofNat, Nat.mod_eq_sub_mod hbig, Nat.mod_eq_of_lt (by omega)]
  omega

theorem unpack_pack_finite (s : Sign) {m : ℕ} {e : ℤ} (hm : 0 < m) (hlog : m.log2 = 52)
    (hlow : -1074 < e) (hhigh : e ≤ 971) :
    unpack binary64 (pack binary64 (.finite s m e hm)) = .finite s m e hm := by
  have hbig : 2 ^ 52 ≤ m := (Nat.le_log2 hm.ne').1 (by omega)
  have hsmall : m < 2 ^ 53 := (Nat.log2_lt hm.ne').1 (by omega)
  obtain ⟨x, rfl⟩ : ∃ x : ℕ, e = (x : ℤ) - 1075 := ⟨(e + 1075).toNat, by omega⟩
  have hexp : (BitVec.ofNat 11 x).toNat = x := by
    rw [BitVec.toNat_ofNat]
    omega
  have hne : BitVec.ofNat 11 x ≠ -1#11 := by
    intro hc
    have hv : x = 2047 := by rw [← hexp, hc]; rfl
    omega
  have hz : BitVec.ofNat 11 x ≠ 0#11 := by
    intro hc
    have hv : x = 0 := by rw [← hexp, hc]; rfl
    omega
  have hpack : pack binary64 (.finite s m (x - 1075) hm) =
      packComponents binary64 s (BitVec.ofNat 11 x) (BitVec.ofNat 52 m) := by
    have hbias : ((x : ℤ) - 1075 + (binary64.exponentBias : ℤ) + (52 : ℕ)).toNat = x := by
      simp only [Format.exponentBias]
      omega
    simp only [pack, hbias, hlog]
    rw [if_neg (by omega), if_pos (by simp [Format.mantissaBits])]
  rw [hpack]
  simp only [unpack, unpackExponent_packComponents, unpackMantissa_packComponents,
    unpackSign_components, ofBitVec_toBitVec, if_neg hne, if_neg hz, hexp,
    stored_bits hbig hsmall]
  rfl

theorem unpack32_canonical {b : BitVec binary32.numBits} {s : Sign} {m : ℕ} {e : ℤ} {hm : 0 < m}
    (h : unpack binary32 b = .finite s m e hm) : Canonical32 m e := by
  have hmant : (unpackMantissa b).toNat < 2 ^ 23 := (unpackMantissa b).isLt
  have hexp : (unpackExponent b).toNat < 2 ^ 8 := (unpackExponent b).isLt
  simp only [unpack] at h
  split_ifs at h with h₁ h₂ h₃ h₄
  · simp only [UnpackedFloat.finite.injEq, h₃] at h
    obtain ⟨_, rfl, rfl⟩ := h
    exact ⟨hm, by omega, by decide, by decide, Or.inr (by decide)⟩
  · simp only [UnpackedFloat.finite.injEq, implicit_bit] at h
    obtain ⟨_, rfl, rfl⟩ := h
    have hlow : (unpackExponent b).toNat ≠ 0 := fun hc => h₃ (BitVec.eq_of_toNat_eq hc)
    have hhigh : (unpackExponent b).toNat ≠ 255 := fun hc => h₁ (BitVec.eq_of_toNat_eq hc)
    simp only [Canonical32, Format.exponentBias]
    omega

theorem pack_unpack32 (b : BitVec binary32.numBits) (hb : binary32.Valid b) :
    pack binary32 (unpack binary32 b) = b := by
  have hself := packComponents_unpack b
  have hmant : (unpackMantissa b).toNat < 2 ^ 23 := (unpackMantissa b).isLt
  have hexp : (unpackExponent b).toNat < 2 ^ 8 := (unpackExponent b).isLt
  simp only [unpack]
  split_ifs with h₁ h₂ h₃ h₄
  · rw [h₁, h₂] at hself
    exact hself
  · exact (hb.eq_packedNaN h₁ h₂).symm
  · rw [h₃, h₄] at hself
    exact hself
  · have hne : (unpackMantissa b).toNat ≠ 0 := fun hc => h₄ (BitVec.eq_of_toNat_eq hc)
    have hlog : (unpackMantissa b).toNat.log2 < 23 := (Nat.log2_lt hne).2 hmant
    simp only [pack]
    rw [if_neg (by rw [h₃]; decide), if_neg (by simp only [Format.mantissaBits]; omega),
      BitVec.ofNat_toNat, BitVec.setWidth_eq, ← h₃]
    exact hself
  · have hhigh : (unpackExponent b).toNat ≠ 255 := fun hc => h₁ (BitVec.eq_of_toNat_eq hc)
    have hlog : (2 ^ 23 + (unpackMantissa b).toNat).log2 = 23 :=
      (Nat.log2_eq_iff (by omega)).2 ⟨by omega, by omega⟩
    have hbias : ((unpackExponent b).toNat - ((binary32.exponentBias : ℤ) + (23 : ℕ)) +
        (binary32.exponentBias : ℤ) + (23 : ℕ)).toNat = (unpackExponent b).toNat := by omega
    simp only [pack, implicit_bit, hbias, hlog]
    rw [if_neg (by omega), if_pos (by simp [Format.mantissaBits]), BitVec.ofNat_toNat,
      BitVec.setWidth_eq, BitVec.ofNat_add, BitVec.ofNat_toNat, BitVec.setWidth_eq,
      show BitVec.ofNat 23 (2 ^ 23) = 0#23 from rfl, BitVec.zero_add]
    exact hself

end Packed

theorem roundTo32_roundTo64 (b : BitVec binary32.numBits) :
    roundTo binary32 (unpack binary64 (pack binary64 (roundTo binary64 (unpack binary32 b)))) =
      unpack binary32 b := by
  cases hu : unpack binary32 b with
  | infinity s => cases s <;> rfl
  | notANumber => rfl
  | zero s => cases s <;> rfl
  | finite s m e hm =>
      have hc := unpack32_canonical hu
      obtain ⟨hle, _⟩ := log2_bounds hc
      have hlog := log2_shiftLeft hm (52 - m.log2)
      have hlow := hc.2.2.1
      have hhigh := hc.2.2.2.1
      simp only [roundTo, round64_canonical s hc]
      rw [unpack_pack_finite s _ (by omega) (by omega) (by omega)]
      exact round32_normalized s hc _

/-- Narrowing undoes widening on every `f32`. -/
theorem toF32_toF64 (x : Float32) : toF32 (toF64 x) = x := by
  obtain ⟨⟨bits, hvalid⟩⟩ := x
  have hround := roundTo32_roundTo64 bits.toBitVec
  simp only [toF32, toF64, Float.Model.unpack, Float.Model.pack, Float32.Model.unpack,
    Float32.Model.pack, hround, pack_unpack32 _ hvalid]

end OpenShard.FloatCast
