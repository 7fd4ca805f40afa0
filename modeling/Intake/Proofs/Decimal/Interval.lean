import Intake.Decimal.FloatText
import Intake.Proofs.Decimal.Shortest
import Intake.Proofs.Float.Nearest

/-!
# The interval of a double

The search for the shortest decimal has its own picture of a double: a significand, an exponent, and
whether the doubles below lie closer.  Rounding has another, in which a number is nearest to a
multiple of a place.  The two agree on the double that some bits are, `ofBits_of_unpack`, and on its
interval, `inInterval_of_contains`.  So the decimal that is written for a double is a number that
rounds to it: `inInterval_decimal`.
-/

namespace Intake.Decimal

open Binary64 Float.Model

namespace Dyadic

/-- Numbers in the interval that the search looks at round to the double. -/
theorem inInterval_of_contains {x : Dyadic} {v : ℚ}
    (hclose : x.closeBelow = true ↔ x.significand = 2 ^ 52 ∧ -1074 < x.exponent)
    (h : x.Contains v) : InInterval x.significand x.exponent v := by
  have hpos := two_zpow_pos x.exponent
  have hquarter : (2 : ℚ) ^ (x.exponent - 2) = 2 ^ x.exponent / 4 := by
    rw [zpow_sub₀ two_ne_zero]
    norm_num
  have hupper : x.upperEnd = (x.significand + 1 / 2) * 2 ^ x.exponent := by
    rw [upperEnd, hquarter]
    ring
  have hle := h.le
  rw [hupper, ← div_le_iff₀ hpos] at hle
  by_cases hshort : x.closeBelow = true
  · have hlower : x.lowerEnd = (x.significand - 1 / 4) * 2 ^ x.exponent := by
      rw [lowerEnd, hquarter, if_pos hshort]
      ring
    have hpower := (hclose.1 hshort).1
    have hge := h.ge
    rw [hlower, ← le_div_iff₀ hpos] at hge
    refine ⟨⟨by linarith, by linarith, fun _ => by omega⟩, fun _ _ => ?_⟩
    rw [hpower, le_div_iff₀ hpos] at hge
    exact_mod_cast hge
  · have hlower : x.lowerEnd = (x.significand - 1 / 2) * 2 ^ x.exponent := by
      rw [lowerEnd, hquarter, if_neg hshort]
      ring
    have hge := h.ge
    rw [hlower, ← le_div_iff₀ hpos] at hge
    refine ⟨⟨by linarith, by linarith, fun hend => h.even ?_⟩,
      fun hpower hleast => absurd (hclose.2 ⟨hpower, hleast⟩) hshort⟩
    rw [hlower, hupper, ← div_eq_iff hpos.ne', ← div_eq_iff hpos.ne']
    rcases hend with hend | hend
    · exact .inl (by linarith)
    · exact .inr (by linarith)

/-- The search looks at the significand and the exponent of the double. -/
theorem ofBits_of_unpack {x : Float} {s : UnpackedFloat.Sign} {m : Nat} {e : Int} {h : 0 < m}
    (hx : x.toModel.unpack = .finite s m e h) :
    ofBits (x.toBits.toNat % FloatStyle.signBit) = ⟨m, e, decide (m = 2 ^ 52 ∧ -1074 < e)⟩ := by
  obtain ⟨-, hfields⟩ := bits_of_unpack hx
  have hbits : x.toModel.toBits.toNat = x.toBits.toNat := rfl
  rw [hbits] at hfields
  generalize x.toBits.toNat = b at hfields ⊢
  have hsign : FloatStyle.signBit = 2 ^ 63 := by decide
  have hfraction : b % 2 ^ 63 % 0x10000000000000 = b % 2 ^ 52 := by omega
  have hbiased : b % 2 ^ 63 / 0x10000000000000 % 0x800 = b / 2 ^ 52 % 2 ^ 11 := by omega
  unfold ofBits
  simp only [hsign, hfraction, hbiased]
  rcases hfields with ⟨hzero, hm, he⟩ | ⟨hpos, hlt, hm, he⟩
  · have hclose : ¬ (m = 2 ^ 52 ∧ -1074 < e) := by omega
    rw [if_pos hzero, decide_eq_false hclose, hm, he]
  · have hclose : (b % 2 ^ 52 = 0 ∧ 1 < b / 2 ^ 52 % 2 ^ 11) ↔ (m = 2 ^ 52 ∧ -1074 < e) := by
      omega
    rw [if_neg (by omega), decide_eq_decide.2 hclose]
    exact (mk.injEq ..).mpr ⟨hm.symm, he.symm, rfl⟩

end Dyadic

/-- The decimal of a double is a number that rounds to the double. -/
theorem FloatStyle.inInterval_decimal (style : FloatStyle) {x : Float} {s : UnpackedFloat.Sign}
    {m : Nat} {e : Int} (hd : IsDouble m e) (hx : x.toModel.unpack = .finite s m e hd.pos) :
    InInterval m e (style.decimal (x.toBits.toNat % signBit)).toRat := by
  have hbits := Dyadic.ofBits_of_unpack hx
  have hne : x.toBits.toNat % signBit ≠ 0 := by
    intro hzero
    rw [hzero] at hbits
    have hm : 0 = m := congrArg Dyadic.significand hbits
    exact hd.pos.ne hm
  rw [decimal, if_neg hne, hbits]
  have hspec := (Dyadic.shortest_spec (x := ⟨m, e, decide (m = 2 ^ 52 ∧ -1074 < e)⟩) style.tie
    hd.pos hd.lt).2
  exact Dyadic.inInterval_of_contains decide_eq_true_iff hspec

end Intake.Decimal
