import Intake.Text.Lowercase

/-!
# Strings in lower case

A string is put in lower case by looking at what stands around its capital sigmas, so the result is
not made character by character.  But it is made of characters that are lower case already and are
no capital sigmas, and on a string of such characters nothing depends on the place any more.  So a
string is in lower case exactly if all its characters are, and lowering twice is lowering once.

What this needs of the table of mappings is that no mapping leads to a code point that is mapped
again, and none to one of the two characters with rules of their own.
-/

namespace Intake.Text

/-! ## The table -/

namespace CaseRange

/-- The code points in a range. -/
def codes (r : CaseRange) : List Nat :=
  (List.range' r.first (r.last + 1 - r.first)).filter r.contains

theorem contains_iff {r : CaseRange} {n : Nat} :
    r.contains n = true ↔ r.first ≤ n ∧ n ≤ r.last ∧ (n - r.first) % r.step = 0 := by
  simp [contains, and_assoc]

theorem mem_codes {r : CaseRange} {n : Nat} (h : r.contains n = true) : n ∈ r.codes := by
  obtain ⟨hfirst, hlast, -⟩ := contains_iff.1 h
  refine List.mem_filter.2 ⟨List.mem_range'_1.2 ⟨hfirst, ?_⟩, h⟩
  omega

/-- What the code points in a range are lowered to. -/
def lowered (r : CaseRange) : List Nat := r.codes.map fun (n : Nat) => (n + r.offset).toNat

/-- Whether nothing that is lowered in one range is in another one.  Most ranges lie wholly beside
each other; only where they do not the code points are looked at. -/
def avoids (r s : CaseRange) : Bool :=
  (r.last + r.offset).toNat < s.first || s.last < (r.first + r.offset).toNat ||
    r.lowered.all fun n => !s.contains n

theorem contains_of_avoids {r s : CaseRange} (h : r.avoids s = true) {n : Nat}
    (hn : n ∈ r.lowered) : s.contains n = false := by
  obtain ⟨m, hm, rfl⟩ := List.mem_map.1 hn
  obtain ⟨hfirst, hlast, -⟩ := contains_iff.1 (List.mem_filter.1 hm).2
  rw [← Bool.not_eq_true, contains_iff]
  rintro ⟨hs, hs', hstep⟩
  simp only [avoids, Bool.or_eq_true, decide_eq_true_eq] at h
  rcases h with (h | h) | h
  · omega
  · omega
  · have hcontains := List.all_eq_true.1 h _ hn
    rw [contains_iff.2 ⟨hs, hs', hstep⟩] at hcontains
    exact absurd hcontains (by decide)

end CaseRange

/-- Nothing that is lowered by the table is in one of its ranges. -/
theorem avoids_lowerRanges : ∀ r ∈ lowerRanges, ∀ s ∈ lowerRanges, r.avoids s = true := by
  have hall : (lowerRanges.all fun r => lowerRanges.all r.avoids) = true := by decide +kernel
  simpa only [List.all_eq_true] using hall

/-- What is lowered by the table is a character, and not one with a rule of its own. -/
theorem valid_lowerRanges :
    ∀ r ∈ lowerRanges, ∀ n ∈ r.lowered, n.isValidChar ∧ n ≠ 0x3A3 ∧ n ≠ 0x130 := by
  decide +kernel

/-! ## Characters -/

/-- A character in lower case, whatever stands around it. -/
structure IsLower (c : Char) : Prop where
  ne_sigma : c ≠ 'Σ'
  lowerChar_eq : lowerChar c = [c]

theorem isLower_iff {c : Char} :
    IsLower c ↔ c ≠ 'Σ' ∧ c ≠ 'İ' ∧ lowerMapping c = c := by
  constructor
  · rintro ⟨hsigma, hlower⟩
    by_cases hdotted : c = 'İ'
    · rw [lowerChar, if_pos hdotted] at hlower
      exact absurd hlower (by simp)
    · rw [lowerChar, if_neg hdotted] at hlower
      exact ⟨hsigma, hdotted, List.singleton_inj.1 hlower⟩
  · rintro ⟨hsigma, hdotted, hmapping⟩
    refine ⟨hsigma, ?_⟩
    rw [lowerChar, if_neg hdotted, hmapping]

instance (c : Char) : Decidable (IsLower c) := decidable_of_iff _ isLower_iff.symm

/-- A code point is mapped by a range of the table that it is in, or stays as it is. -/
theorem lowerCode_eq (n : Nat) :
    lowerCode n = n ∨ ∃ r ∈ lowerRanges, n ∈ r.codes ∧ lowerCode n = (n + r.offset).toNat := by
  unfold lowerCode
  cases hfind : lowerRanges.find? fun r => r.contains n with
  | none => exact .inl rfl
  | some r =>
    have hcontains : r.contains n = true := by simpa using List.find?_some hfind
    exact .inr ⟨r, List.mem_of_find?_eq_some hfind, CaseRange.mem_codes hcontains, rfl⟩

theorem lowerCode_cases (n : Nat) :
    lowerCode n = n ∨ ∃ r ∈ lowerRanges, lowerCode n ∈ r.lowered := by
  rcases lowerCode_eq n with hsame | ⟨r, hr, hmem, hcode⟩
  · exact .inl hsame
  · rw [hcode]
    exact .inr ⟨r, hr, List.mem_map_of_mem hmem⟩

theorem lowerCode_of_mem_lowered {r : CaseRange} (hr : r ∈ lowerRanges) {n : Nat}
    (hn : n ∈ r.lowered) : lowerCode n = n := by
  have hnone : lowerRanges.find? (fun s => s.contains n) = none := by
    refine List.find?_eq_none.2 fun s hs => ?_
    rw [CaseRange.contains_of_avoids (avoids_lowerRanges r hr s hs) hn]
    exact Bool.false_ne_true
  rw [lowerCode, hnone]

theorem toNat_ofNat {n : Nat} (h : n.isValidChar) : (Char.ofNat n).toNat = n := by
  rw [Char.ofNat, dif_pos h]
  rfl

theorem isLower_lowerMapping {c : Char} (hsigma : c ≠ 'Σ') (hdotted : c ≠ 'İ') :
    IsLower (lowerMapping c) := by
  rcases lowerCode_cases c.toNat with hsame | ⟨r, hr, hn⟩
  · have hself : lowerMapping c = c := by rw [lowerMapping, hsame, Char.ofNat_toNat]
    rw [hself]
    exact isLower_iff.2 ⟨hsigma, hdotted, hself⟩
  · obtain ⟨hvalid, hsigma', hdotted'⟩ := valid_lowerRanges r hr _ hn
    have hcode : (lowerMapping c).toNat = lowerCode c.toNat := toNat_ofNat hvalid
    refine isLower_iff.2 ⟨fun h => hsigma' ?_, fun h => hdotted' ?_, ?_⟩
    · rw [← hcode, h]
      rfl
    · rw [← hcode, h]
      rfl
    · show Char.ofNat (lowerCode (lowerMapping c).toNat) = _
      rw [hcode, lowerCode_of_mem_lowered hr hn]
      rfl

theorem isLower_of_mem_lowerChar {c d : Char} (hsigma : c ≠ 'Σ') (hd : d ∈ lowerChar c) :
    IsLower d := by
  by_cases hdotted : c = 'İ'
  · rw [lowerChar, if_pos hdotted] at hd
    rcases List.mem_cons.1 hd with rfl | hd
    · decide +kernel
    · rw [List.mem_singleton.1 hd]
      decide +kernel
  · rw [lowerChar, if_neg hdotted] at hd
    rw [List.mem_singleton.1 hd]
    exact isLower_lowerMapping hsigma hdotted

/-! ## Strings -/

/-- Whatever stands before them, characters are put in lower case. -/
theorem isLower_of_mem_lowerFrom {before cs : List Char} {d : Char}
    (hd : d ∈ lowerFrom before cs) : IsLower d := by
  induction cs generalizing before with
  | nil => exact absurd hd List.not_mem_nil
  | cons c after ih =>
    rw [lowerFrom] at hd
    rcases List.mem_append.1 hd with hd | hd
    · split at hd
      · have hsigmas : ∀ final : Bool, IsLower (if final then 'ς' else 'σ') := by decide +kernel
        rw [List.mem_singleton.1 hd]
        exact hsigmas _
      · next hsigma => exact isLower_of_mem_lowerChar hsigma hd
    · exact ih hd

/-- Characters in lower case stay as they are, whatever stands before them. -/
theorem lowerFrom_of_isLower {before cs : List Char} (h : ∀ c ∈ cs, IsLower c) :
    lowerFrom before cs = cs := by
  induction cs generalizing before with
  | nil => rfl
  | cons c after ih =>
    obtain ⟨hc, hafter⟩ := List.forall_mem_cons.1 h
    rw [lowerFrom, if_neg hc.ne_sigma, hc.lowerChar_eq, ih hafter]
    rfl

theorem isLower_of_mem_lowercase {s : String} : ∀ c ∈ (lowercase s).toList, IsLower c := by
  intro c hc
  rw [lowercase, String.toList_ofList] at hc
  exact isLower_of_mem_lowerFrom hc

/-- A string is in lower case exactly if all its characters are. -/
theorem lowercase_eq_self_iff {s : String} : lowercase s = s ↔ ∀ c ∈ s.toList, IsLower c := by
  constructor
  · intro h
    rw [← h]
    exact isLower_of_mem_lowercase
  · intro h
    rw [lowercase, lowerFrom_of_isLower h, String.ofList_toList]

/-- A string in lower case is not changed by putting it in lower case once more. -/
@[simp] theorem lowercase_lowercase (s : String) : lowercase (lowercase s) = lowercase s :=
  lowercase_eq_self_iff.2 isLower_of_mem_lowercase

end Intake.Text
