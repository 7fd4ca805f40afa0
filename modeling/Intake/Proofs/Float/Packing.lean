import Mathlib

/-!
# Packing a double

A double is packed into 64 bits: a sign, eleven bits for the exponent and 52 for the significand.
The first bit of a significand of 53 bits is not kept, and that it is missing shows in the exponent.
`IsDouble` says which significands and exponents a finite double has.  They are unpacked as they
were packed, `unpack_pack`, and a double is known from them and the sign, `eq_of_unpack`.
-/

namespace Intake.Binary64

open Float.Model Float.Model.UnpackedFloat

/-- A significand and an exponent as a finite double has them: the significand has 53 bits, or fewer
if the exponent is the least one. -/
structure IsDouble (m : Nat) (e : Int) : Prop where
  pos : 0 < m
  lt : m < 2 ^ 53
  le_exponent : -1074 ≤ e
  exponent_le : e ≤ 971
  normal : 2 ^ 52 ≤ m ∨ e = -1074

/-! ## Components -/

/-- The sign bit at its place. -/
def signValue : Sign → Nat
  | .negative => 2 ^ 63
  | .positive => 0

theorem signValue_injective : Function.Injective signValue := by
  intro s s' h
  cases s <;> cases s' <;> first | rfl | exact absurd h (by decide)

@[simp] theorem toNat_unpackExponent (b : BitVec 64) :
    (@unpackExponent .binary64 b).toNat = b.toNat / 2 ^ 52 % 2 ^ 11 := by
  show (b.toNat >>> 52) % 2 ^ 11 = _
  rw [Nat.shiftRight_eq_div_pow]

@[simp] theorem toNat_unpackMantissa (b : BitVec 64) :
    (@unpackMantissa .binary64 b).toNat = b.toNat % 2 ^ 52 := by
  show (b.toNat >>> 0) % 2 ^ 52 = _
  rw [Nat.shiftRight_zero]

@[simp] theorem signValue_unpackSign (b : BitVec 64) :
    signValue (Sign.ofBitVec (@unpackSign .binary64 b)) = b.toNat / 2 ^ 63 * 2 ^ 63 := by
  have hbit : (@unpackSign .binary64 b).toNat = b.toNat / 2 ^ 63 := by
    show (b.toNat >>> 63) % 2 ^ 1 = _
    rw [Nat.shiftRight_eq_div_pow, Nat.mod_eq_of_lt]
    have := b.isLt
    omega
  have hcases : ∀ t : BitVec 1, signValue (Sign.ofBitVec t) = t.toNat * 2 ^ 63 := by decide
  rw [hcases, hbit]

theorem toNat_implicit (mantissa : BitVec 52) :
    (1#1 ++ mantissa).toNat = 2 ^ 52 + mantissa.toNat := by
  rw [BitVec.toNat_append, ← Nat.shiftLeft_add_eq_or_of_lt mantissa.isLt]
  rfl

/-! ## Unpacking -/

/-- The bits of a finite double that is not zero: its sign, and an exponent that says whether the
first bit of the significand is missing. -/
theorem bits_of_unpack {x : Float.Model} {s : Sign} {m : Nat} {e : Int} {h : 0 < m}
    (hx : x.unpack = .finite s m e h) :
    signValue s = x.toBits.toNat / 2 ^ 63 * 2 ^ 63 ∧
      (x.toBits.toNat / 2 ^ 52 % 2 ^ 11 = 0 ∧ m = x.toBits.toNat % 2 ^ 52 ∧ e = -1074 ∨
        0 < x.toBits.toNat / 2 ^ 52 % 2 ^ 11 ∧ x.toBits.toNat / 2 ^ 52 % 2 ^ 11 < 2047 ∧
          m = 2 ^ 52 + x.toBits.toNat % 2 ^ 52 ∧
          e = (x.toBits.toNat / 2 ^ 52 % 2 ^ 11 : Nat) - 1075) := by
  have hx : UnpackedFloat.unpack .binary64 x.toBits.toBitVec = .finite s m e h := hx
  have hsign := signValue_unpackSign x.toBits.toBitVec
  have hexponent := toNat_unpackExponent x.toBits.toBitVec
  have hmantissa := toNat_unpackMantissa x.toBits.toBitVec
  have hbound := (@unpackExponent .binary64 x.toBits.toBitVec).isLt
  rw [UnpackedFloat.unpack] at hx
  split at hx
  · split at hx <;> cases hx
  next hones =>
  split at hx
  · next hzero =>
    split at hx
    · cases hx
    · cases hx
      refine ⟨hsign, .inl ⟨?_, hmantissa, ?_⟩⟩
      · exact hexponent.symm.trans (congrArg BitVec.toNat hzero)
      · rw [hzero]
        rfl
  · next hzero =>
    cases hx
    have hmax : (@unpackExponent .binary64 x.toBits.toBitVec).toNat ≠ 2047 :=
      fun hmax => hones (BitVec.eq_of_toNat_eq hmax)
    have hmin : (@unpackExponent .binary64 x.toBits.toBitVec).toNat ≠ 0 :=
      fun hmin => hzero (BitVec.eq_of_toNat_eq hmin)
    have hbound : (@unpackExponent .binary64 x.toBits.toBitVec).toNat < 2 ^ 11 := hbound
    have himplicit := toNat_implicit (@unpackMantissa .binary64 x.toBits.toBitVec)
    rw [hmantissa] at himplicit
    have hfield : x.toBits.toBitVec.toNat = x.toBits.toNat := rfl
    rw [hfield] at hexponent
    refine ⟨hsign, .inr ⟨by omega, by omega, himplicit, ?_⟩⟩
    show ((@unpackExponent .binary64 x.toBits.toBitVec).toNat : Int) -
      (((1023 : Nat) : Int) + ((52 : Nat) : Int)) = _
    omega

/-- The bits of a zero are its sign. -/
theorem bits_of_unpack_zero {x : Float.Model} {s : Sign} (hx : x.unpack = .zero s) :
    x.toBits.toNat = signValue s := by
  have hx : UnpackedFloat.unpack .binary64 x.toBits.toBitVec = .zero s := hx
  have hsign := signValue_unpackSign x.toBits.toBitVec
  have hexponent := toNat_unpackExponent x.toBits.toBitVec
  have hmantissa := toNat_unpackMantissa x.toBits.toBitVec
  have hfield : x.toBits.toBitVec.toNat = x.toBits.toNat := rfl
  rw [UnpackedFloat.unpack] at hx
  split at hx
  · split at hx <;> cases hx
  split at hx
  · next hzero =>
    split at hx
    · next hnone =>
      cases hx
      have hexponent := hexponent.symm.trans (congrArg BitVec.toNat hzero)
      have hmantissa := hmantissa.symm.trans (congrArg BitVec.toNat hnone)
      have hexponent : x.toBits.toBitVec.toNat / 2 ^ 52 % 2 ^ 11 = 0 := hexponent
      have hmantissa : x.toBits.toBitVec.toNat % 2 ^ 52 = 0 := hmantissa
      rw [hsign]
      omega
    · cases hx
  · cases hx

theorem isDouble_of_unpack {x : Float.Model} {s : Sign} {m : Nat} {e : Int} {h : 0 < m}
    (hx : x.unpack = .finite s m e h) : IsDouble m e := by
  obtain ⟨-, hfields⟩ := bits_of_unpack hx
  refine ⟨h, ?_, ?_, ?_, ?_⟩ <;> omega

theorem eq_of_toBits {x y : Float} (h : x.toBits = y.toBits) : x = y := by
  rw [← Float.ofBits_toBits x, h, Float.ofBits_toBits]

/-- A double is packed from what it is unpacked to. -/
theorem toModel_eq_pack (x : Float) : x.toModel = Float.Model.pack x.toModel.unpack := by
  obtain ⟨⟨bits, valid⟩⟩ := x
  refine (Float.Model.mk.injEq ..).mpr ?_
  exact congrArg UInt64.ofBitVec (pack_unpack_of_valid valid).symm

/-- A double is known from what it is unpacked to. -/
theorem eq_of_unpack {x y : Float} {u : UnpackedFloat} (hx : x.toModel.unpack = u)
    (hy : y.toModel.unpack = u) : x = y := by
  refine congrArg Float.ofModel ?_
  rw [toModel_eq_pack x, toModel_eq_pack y, hx, hy]

/-! ## Packing -/

/-- The exponent bits of a finite double. -/
def exponentBits (m : Nat) (e : Int) : BitVec 11 :=
  if m.log2 = 52 then BitVec.ofNat 11 (e + 1075).toNat else 0#11

theorem pack_finite_of_le {s : Sign} {m : Nat} {e : Int} (h : 0 < m) (he : e ≤ 971) :
    UnpackedFloat.pack .binary64 (.finite s m e h) =
      packComponents .binary64 s (exponentBits m e) (BitVec.ofNat 52 m) := by
  have hbiased : (e + ((1023 : Nat) : Int) + ((52 : Nat) : Int)).toNat = (e + 1075).toNat := by
    omega
  rw [UnpackedFloat.pack, exponentBits]
  split
  · next hlarge =>
    have hlarge : 2 ^ 11 ≤ (e + ((1023 : Nat) : Int) + ((52 : Nat) : Int)).toNat + 1 := hlarge
    omega
  · split
    · next hnormal =>
      have hnormal : m.log2 + 1 = 1 + 52 := hnormal
      rw [if_pos (by omega), ← hbiased]
      rfl
    · next hsubnormal =>
      have hsubnormal : ¬ m.log2 + 1 = 1 + 52 := hsubnormal
      rw [if_neg (by omega)]

theorem toNat_exponentBits {m : Nat} {e : Int} (hm : m.log2 = 52) (hle : -1074 ≤ e)
    (he : e ≤ 971) : ((exponentBits m e).toNat : Int) = e + 1075 := by
  rw [exponentBits, if_pos hm, BitVec.toNat_ofNat, Nat.mod_eq_of_lt (by omega)]
  omega

theorem exponentBits_ne_allOnes {m : Nat} {e : Int} (he : e ≤ 971) :
    exponentBits m e ≠ -1#11 := by
  intro heq
  have hones : (exponentBits m e).toNat = 2047 := by
    rw [heq]
    decide
  rw [exponentBits] at hones
  split at hones
  · rw [BitVec.toNat_ofNat, Nat.mod_eq_of_lt (by omega)] at hones
    omega
  · exact absurd hones (by decide)

theorem isFinite_unpack_packComponents {s : Sign} {exponent : BitVec 11} {mantissa : BitVec 52}
    (h : exponent ≠ -1#11) :
    (UnpackedFloat.unpack .binary64 (packComponents .binary64 s exponent mantissa)).isFinite =
      true := by
  rw [UnpackedFloat.unpack]
  simp only [unpackSign_packComponents, unpackExponent_packComponents,
    unpackMantissa_packComponents, Sign.ofBitVec_toBitVec]
  rw [if_neg h]
  split
  · split <;> rfl
  · rfl

/-- A significand with an exponent of at most 971 is packed as a finite double. -/
theorem isFinite_pack_finite {s : Sign} {m : Nat} {e : Int} (h : 0 < m) (he : e ≤ 971) :
    (Float.Model.pack (.finite s m e h)).isFinite = true := by
  show (UnpackedFloat.unpack .binary64
    (UnpackedFloat.pack .binary64 (.finite s m e h))).isFinite = true
  rw [pack_finite_of_le h he]
  exact isFinite_unpack_packComponents (exponentBits_ne_allOnes he)

@[simp] theorem isFinite_pack_zero (s : Sign) : (Float.Model.pack (.zero s)).isFinite = true :=
  isFinite_unpack_packComponents (by decide)

@[simp] theorem unpack_pack_zero (s : Sign) : (Float.Model.pack (.zero s)).unpack = .zero s := by
  cases s <;> rfl

/-- A double is unpacked as it was packed. -/
theorem unpack_pack {s : Sign} {m : Nat} {e : Int} (h : IsDouble m e) :
    (Float.Model.pack (.finite s m e h.pos)).unpack = .finite s m e h.pos := by
  show UnpackedFloat.unpack .binary64
    (UnpackedFloat.pack .binary64 (.finite s m e h.pos)) = .finite s m e h.pos
  rw [pack_finite_of_le h.pos h.exponent_le, UnpackedFloat.unpack]
  simp only [unpackSign_packComponents, unpackExponent_packComponents,
    unpackMantissa_packComponents, Sign.ofBitVec_toBitVec]
  rw [if_neg (exponentBits_ne_allOnes h.exponent_le)]
  have hlt := h.lt
  by_cases hnormal : 2 ^ 52 ≤ m
  · have hlog : m.log2 = 52 := (Nat.log2_eq_iff h.pos.ne').2 ⟨hnormal, hlt⟩
    have hexponent := toNat_exponentBits hlog h.le_exponent h.exponent_le
    have hzero : exponentBits m e ≠ 0#11 := by
      intro heq
      rw [heq] at hexponent
      have hbits : ((0#11).toNat : Int) = 0 := rfl
      have hle := h.le_exponent
      omega
    have hmantissa : (1#1 ++ BitVec.ofNat 52 m).toNat = m := by
      rw [toNat_implicit, BitVec.toNat_ofNat]
      omega
    rw [if_neg hzero]
    refine (UnpackedFloat.finite.injEq ..).mpr ⟨rfl, hmantissa, ?_⟩
    rw [hexponent]
    show e + 1075 - (((1023 : Nat) : Int) + ((52 : Nat) : Int)) = e
    omega
  · have hlog : m.log2 ≠ 52 := fun hlog =>
      hnormal ((Nat.log2_eq_iff h.pos.ne').1 hlog).1
    have hsmall : m % 2 ^ 52 = m := Nat.mod_eq_of_lt (by omega)
    have hzero : exponentBits m e = 0#11 := if_neg hlog
    have hmantissa : BitVec.ofNat 52 m ≠ 0#52 := by
      intro heq
      have hvalue := congrArg BitVec.toNat heq
      rw [BitVec.toNat_ofNat, hsmall] at hvalue
      exact h.pos.ne' hvalue
    rw [hzero, if_pos rfl, dif_neg hmantissa]
    refine (UnpackedFloat.finite.injEq ..).mpr ⟨rfl, ?_, ?_⟩
    · rw [BitVec.toNat_ofNat, hsmall]
    · exact (h.normal.resolve_left hnormal).symm

end Intake.Binary64
