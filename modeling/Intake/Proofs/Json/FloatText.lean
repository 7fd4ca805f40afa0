import Intake.Proofs.Json.DecimalNumeral

/-!
# The text of a double is read as a double

A finite double is written as a numeral with a fraction or an exponent, so it is read as a double
again and never as an integer.  It need not be the same double, because reading rounds more than
once.  But it is a finite one: what is written is at most half a place above the double, and reading
adds less than three places, so only the three greatest doubles come near overflow, and for those
the reading is carried out.  `numeralText_documentNumeral` and `exists_toNumber_documentNumeral` are
the results.
-/

namespace Intake.Decimal

open Json Json.Grammar Binary64

/-! ## Doubles near overflow -/

/-- The bits of positive infinity.  The finite doubles without a sign are the bits below it. -/
def infinityBits : Nat := 0x7FF0000000000000

theorem mod_signBit_lt_of_isFinite {x : Float} (h : x.isFinite = true) :
    x.toBits.toNat % FloatStyle.signBit < infinityBits := by
  have hbits : x.toModel.toBits.toNat = x.toBits.toNat := rfl
  rw [FloatStyle.signBit, infinityBits]
  rcases isFinite_cases h with ⟨s, hx⟩ | ⟨s, m, e, hd, hx⟩
  · have hzero := bits_of_unpack_zero hx
    cases s <;> simp only [signValue] at hzero <;> omega
  · have hfields := (bits_of_unpack hx).2
    omega

namespace Dyadic

theorem significand_ofBits_lt (b : Nat) : (ofBits b).significand < 2 ^ 53 := by
  unfold ofBits
  simp only
  split
  · dsimp only
    omega
  · dsimp only
    omega

theorem significand_ofBits_pos {b : Nat} (hb : b ≠ 0) (h : b < infinityBits) :
    0 < (ofBits b).significand := by
  rw [infinityBits] at h
  unfold ofBits
  simp only
  split
  · dsimp only
    omega
  · dsimp only
    omega

theorem ofBits_bounds {b : Nat} (h : b + 3 < infinityBits) :
    (ofBits b).significand < 2 ^ 53 ∧ (ofBits b).exponent ≤ 970 ∨
      (ofBits b).significand + 4 ≤ 2 ^ 53 ∧ (ofBits b).exponent = 971 := by
  rw [infinityBits] at h
  unfold ofBits
  simp only
  split
  · dsimp only
    omega
  · dsimp only
    omega

theorem upperEnd_le {x : Dyadic} {m k : Nat} (hm : 4 * x.significand + 2 ≤ m)
    (hk : x.exponent ≤ k + 2) : x.upperEnd ≤ (m * 2 ^ k : Nat) := by
  have hsignificand : (4 * x.significand + 2 : ℚ) ≤ m := by exact_mod_cast hm
  have hpower : (2 : ℚ) ^ (x.exponent - 2) ≤ 2 ^ k := by
    rw [← zpow_natCast]
    exact zpow_le_zpow_right₀ (by norm_num) (by omega)
  rw [Nat.cast_mul, Nat.cast_pow, Nat.cast_ofNat]
  exact mul_le_mul hsignificand hpower (by positivity) (Nat.cast_nonneg m)

/-- Apart from the three greatest doubles, numbers up to the upper end of a double are read without
overflow. -/
theorem upperEnd_ofBits_le {b : Nat} (h : b + 3 < infinityBits) :
    (ofBits b).upperEnd ≤ safeLimit := by
  rcases ofBits_bounds h with ⟨hsignificand, hexponent⟩ | ⟨hsignificand, hexponent⟩
  · refine (upperEnd_le (m := 2 ^ 55) (k := 968) (by omega) (by omega)).trans (Nat.cast_le.2 ?_)
    decide +kernel
  · exact upperEnd_le (m := 2 ^ 55 - 14) (k := 969) (by omega) (by omega)

/-- The three greatest doubles have the same magnitude. -/
theorem magnitude_of_greatest :
    ∀ k ∈ [0, 1, 2], (ofBits (0x7FEFFFFFFFFFFFFD + k)).magnitude = 308 := by
  -- bounds are decided and not the magnitude, whose 309 digits would be computed one by one
  have hbounds : ∀ k ∈ [0, 1, 2], let x := ofBits (0x7FEFFFFFFFFFFFFD + k)
      0 ≤ x.exponent ∧ 10 ^ 308 ≤ x.significand * 2 ^ x.exponent.toNat ∧
        x.significand * 2 ^ x.exponent.toNat < 10 ^ (308 + 1) := by
    decide +kernel
  intro k hk
  obtain ⟨hexponent, hlow, hhigh⟩ := hbounds k hk
  exact magnitude_eq (k := 308) hexponent hlow hhigh

end Dyadic

namespace FloatStyle

variable {b : Nat}

theorem isWritten_decimal (style : FloatStyle) (h : b < infinityBits) :
    (style.decimal b).IsWritten := by
  rw [decimal]
  split
  · exact Scientific.isWritten_zero
  · next hb =>
    have hspec := Dyadic.shortest_spec style.tie (Dyadic.significand_ofBits_pos hb h)
      (Dyadic.significand_ofBits_lt b)
    exact Scientific.isWritten_of_isProper hspec.1

theorem toRat_decimal_le (style : FloatStyle) (h : b + 3 < infinityBits) :
    (style.decimal b).toRat ≤ safeLimit := by
  rw [decimal]
  split
  · show (value [0] : ℚ) * _ ≤ _
    rw [show value [0] = 0 from rfl, Nat.cast_zero, zero_mul]
    exact Nat.cast_nonneg _
  · next hb =>
    have hspec := Dyadic.shortest_spec style.tie (Dyadic.significand_ofBits_pos hb (by omega))
      (Dyadic.significand_ofBits_lt b)
    exact hspec.2.le.trans (Dyadic.upperEnd_ofBits_le h)

theorem exponent_decimal_le (style : FloatStyle) (h : b + 3 < infinityBits) :
    (style.decimal b).exponent ≤ Numeral.exponentLimit := by
  rw [decimal]
  split
  · decide
  next hb =>
  obtain ⟨hproper, hcontains⟩ := Dyadic.shortest_spec style.tie
    (Dyadic.significand_ofBits_pos hb (by omega)) (Dyadic.significand_ofBits_lt b)
  have hle := (Scientific.pow_exponent_le hproper).trans
    (hcontains.le.trans (Dyadic.upperEnd_ofBits_le h))
  generalize ((Dyadic.ofBits b).shortest style.tie).exponent = e at hle ⊢
  by_contra hgreat
  rw [← Int.toNat_of_nonneg (a := e) (by omega), zpow_natCast] at hle
  have hmax := lt_of_pow_le_safeLimit safeLimit_lt_pow (by exact_mod_cast hle : 10 ^ e.toNat ≤ _)
  rw [Numeral.exponentLimit] at hgreat
  omega

/-- The digits of the three greatest doubles, as numbers. -/
def greatestDecimals : List Nat := [17976931348623153, 17976931348623155, 17976931348623157]

theorem decimal_of_greatest (h : b < infinityBits) (hgreat : ¬ b + 3 < infinityBits) :
    ∃ n ∈ greatestDecimals, document.decimal b = ⟨digits n, 308⟩ := by
  rw [infinityBits] at h hgreat
  obtain ⟨k, rfl⟩ := Nat.exists_eq_add_of_le (show 0x7FEFFFFFFFFFFFFD ≤ b by omega)
  have hk : k ∈ [0, 1, 2] := by
    simp only [List.mem_cons, List.not_mem_nil, or_false]
    omega
  have hdecimals : ∀ k ∈ [0, 1, 2], 17976931348623153 + 2 * k ∈ greatestDecimals ∧
      (Dyadic.ofBits (0x7FEFFFFFFFFFFFFD + k)).searchFrom .even 17 308 =
        ⟨digits (17976931348623153 + 2 * k), 308⟩ := by
    decide +kernel
  obtain ⟨hmem, hdigits⟩ := hdecimals k hk
  refine ⟨17976931348623153 + 2 * k, hmem, ?_⟩
  rw [decimal, if_neg (by omega), Dyadic.shortest, Dyadic.magnitude_of_greatest k hk]
  exact hdigits

theorem exponent_document_le (h : b < infinityBits) :
    (document.decimal b).exponent ≤ Numeral.exponentLimit := by
  by_cases hsafe : b + 3 < infinityBits
  · exact exponent_decimal_le document hsafe
  · obtain ⟨n, -, hdecimal⟩ := decimal_of_greatest h hsafe
    rw [hdecimal]
    exact show (308 : Int) ≤ _ by decide

theorem length_digits_decimal_le (style : FloatStyle) (h : b < infinityBits) :
    (style.decimal b).digits.length ≤ 19 := by
  rw [decimal]
  split
  · decide
  · next hb =>
    exact Dyadic.length_digits_shortest_le style.tie (Dyadic.significand_ofBits_pos hb h)
      (Dyadic.significand_ofBits_lt b)

/-- Scaling the digits of a double stays finite. -/
theorem isFinite_scaled_decimal (h : b < infinityBits) (negative : Bool) :
    (scaled ((document.decimal b).documentNumeral negative).significand.1
      (((document.decimal b).documentNumeral negative).significand.2 +
        ((document.decimal b).documentNumeral negative).exponentValue)).isFinite = true := by
  have hwritten := isWritten_decimal document h
  by_cases hsafe : b + 3 < infinityBits
  · have hvalue := Scientific.value_documentNumeral_le hwritten (length_digits_decimal_le _ h)
      negative
    refine Numeral.isFinite_scaled_significand ((Numeral.value_whole_le _).trans hvalue) ?_
    rw [Scientific.toRat_documentNumeral hwritten.ne_nil]
    exact toRat_decimal_le document hsafe
  · obtain ⟨n, hn, hdecimal⟩ := decimal_of_greatest h hsafe
    have hscaled : ∀ n ∈ greatestDecimals, ∀ negative,
        let x := Scientific.documentNumeral ⟨digits n, 308⟩ negative
        (scaled x.significand.1 (x.significand.2 + x.exponentValue)).isFinite = true := by
      decide +kernel
    rw [hdecimal]
    exact hscaled n hn negative

/-- The numeral of a double is read as a double. -/
theorem toNumber_decimal (h : b < infinityBits) (negative : Bool) :
    ∃ f finite, ((document.decimal b).documentNumeral negative).toNumber =
      .ok (.float f finite) :=
  Numeral.toNumber_of_isMarked (Scientific.isMarked_documentNumeral _ negative)
    (Scientific.exponentFits_documentNumeral (exponent_document_le h) negative)
    (isFinite_scaled_decimal h negative)

/-- The numeral that a finite double is written as in a document. -/
def documentNumeral (x : Float) : Numeral :=
  (document.decimal (x.toBits.toNat % signBit)).documentNumeral
    (decide ¬ x.toBits.toNat < signBit)

theorem numeralText_documentNumeral {x : Float} (h : x.isFinite = true) :
    NumeralText (document.text x) (documentNumeral x) := by
  have htext := Scientific.numeralText_document
    (isWritten_decimal document (mod_signBit_lt_of_isFinite h))
    (decide ¬ x.toBits.toNat < signBit)
  have hsign : document.text x = minusText (decide ¬ x.toBits.toNat < signBit) ++
      document.scientificText (document.decimal (x.toBits.toNat % signBit)) := by
    unfold text
    simp only
    split <;> simp [minusText, *]
  rwa [hsign]

theorem isMarked_documentNumeral (x : Float) : (documentNumeral x).IsMarked :=
  Scientific.isMarked_documentNumeral _ _

theorem exponentFits_documentNumeral {x : Float} (h : x.isFinite = true) :
    (documentNumeral x).ExponentFits :=
  Scientific.exponentFits_documentNumeral (exponent_document_le (mod_signBit_lt_of_isFinite h)) _

/-- **Reading a written double.**  The text of a finite double is a numeral, and it is read as a
double. -/
theorem exists_toNumber_documentNumeral {x : Float} (h : x.isFinite = true) :
    ∃ f finite, (documentNumeral x).toNumber = .ok (.float f finite) :=
  toNumber_decimal (mod_signBit_lt_of_isFinite h) _

end FloatStyle

end Intake.Decimal
