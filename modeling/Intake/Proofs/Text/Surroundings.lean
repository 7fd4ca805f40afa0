import Intake.Proofs.Text.Lowercase
import Mathlib.Data.List.Chain

/-!
# The surroundings of a sigma

What a capital sigma becomes depends on what stands before it and after it, however far away, but
only through one truth value for each side, `startsCased`.  Characters may be exchanged for others
as long as these truth values stay the same, and there are two ways to do that.

Lowering a character keeps them: a character that is mapped is cased, what it is mapped to is cased,
and neither is ignorable.  So it makes no difference if all characters but the capital sigmas are
lowered first, `lowercase_eq_of_lowerButSigma`.

A character that is neither cased nor ignorable ends the search for a cased one on both of its
sides.  So the texts before and after it are lowered each on its own, `lowercase_append_separator`.
-/

namespace Intake.Text

/-! ## Ranges of code points -/

theorem inRanges_iff {ranges : List (Nat × Nat)} {n : Nat} :
    inRanges ranges n = true ↔ ∃ r ∈ ranges, r.1 ≤ n ∧ n ≤ r.2 := by
  simp [inRanges]

@[simp] theorem inRanges_append (rs ss : List (Nat × Nat)) (n : Nat) :
    inRanges (rs ++ ss) n = (inRanges rs n || inRanges ss n) :=
  List.any_append

/-- Whether the code points from a first to a last one are all in one of the ranges. -/
def spanned (ranges : List (Nat × Nat)) (first last : Nat) : Bool :=
  ranges.any fun r => r.1 ≤ first && last ≤ r.2

theorem inRanges_of_spanned {ranges : List (Nat × Nat)} {first last n : Nat}
    (h : spanned ranges first last = true) (hfirst : first ≤ n) (hlast : n ≤ last) :
    inRanges ranges n = true := by
  obtain ⟨r, hr, hspan⟩ := List.any_eq_true.1 h
  simp only [Bool.and_eq_true, decide_eq_true_eq] at hspan
  exact inRanges_iff.2 ⟨r, hr, Nat.le_trans hspan.1 hfirst, Nat.le_trans hlast hspan.2⟩

/-- The ranges stand in the order of their first code points. -/
def IsAscending (ranges : List (Nat × Nat)) : Prop := (ranges.map Prod.fst).IsChain (· ≤ ·)

instance (ranges : List (Nat × Nat)) : Decidable (IsAscending ranges) :=
  inferInstanceAs (Decidable (List.IsChain _ _))

theorem IsAscending.pairwise {ranges : List (Nat × Nat)} (h : IsAscending ranges) :
    ranges.Pairwise fun r s => r.1 ≤ s.1 :=
  List.pairwise_map.1 (List.isChain_iff_pairwise.1 h)

/-- Whether no range of one list meets a range of another one, for lists in ascending order: of the
other list, what ends before a range begins is left behind for good, and what comes then must begin
after the range ends. -/
def liesApart : List (Nat × Nat) → List (Nat × Nat) → Bool
  | [], _ => true
  | r :: rs, ss =>
    let rest := ss.dropWhile fun s => s.2 < r.1
    (rest.head?.all fun s => r.2 < s.1) && liesApart rs rest

/-- What follows the first of some ascending ranges lies after what the first lies after. -/
theorem lt_of_mem_of_head? {ranges : List (Nat × Nat)}
    (hasc : ranges.Pairwise fun r s => r.1 ≤ s.1) {last : Nat}
    (h : (ranges.head?.all fun s => last < s.1) = true) {s : Nat × Nat} (hs : s ∈ ranges) :
    last < s.1 := by
  cases ranges with
  | nil => exact absurd hs List.not_mem_nil
  | cons first ranges =>
    have hfirst : last < first.1 := by simpa using h
    rcases List.mem_cons.1 hs with rfl | hs
    · exact hfirst
    · exact Nat.lt_of_lt_of_le hfirst (List.rel_of_pairwise_cons hasc hs)

/-- Of lists that lie apart, a code point is in the ranges of one at most. -/
theorem not_inRanges_of_liesApart {rs ss : List (Nat × Nat)}
    (hrs : rs.Pairwise fun r s => r.1 ≤ s.1) (hss : ss.Pairwise fun r s => r.1 ≤ s.1)
    (h : liesApart rs ss = true) {n : Nat} (hn : inRanges rs n = true) :
    inRanges ss n = false := by
  induction rs generalizing ss with
  | nil => exact absurd hn Bool.false_ne_true
  | cons r rs ih =>
    rw [liesApart, Bool.and_eq_true] at h
    obtain ⟨hhead, happart⟩ := h
    have hsplit : ss.takeWhile (fun s => s.2 < r.1) ++ ss.dropWhile (fun s => s.2 < r.1) = ss :=
      List.takeWhile_append_dropWhile
    rw [← hsplit, List.pairwise_append] at hss
    obtain ⟨t, ht, hfirst, hlast⟩ := inRanges_iff.1 hn
    have hbegin : r.1 ≤ n := by
      rcases List.mem_cons.1 ht with rfl | ht
      · exact hfirst
      · exact Nat.le_trans (List.rel_of_pairwise_cons hrs ht) hfirst
    have hbehind : inRanges (ss.takeWhile fun s => s.2 < r.1) n = false := by
      rw [← Bool.not_eq_true, inRanges_iff]
      rintro ⟨s, hs, -, hge⟩
      have hends := List.all_eq_true.1 List.all_takeWhile s hs
      simp only [decide_eq_true_eq] at hends
      omega
    have hrest : inRanges (ss.dropWhile fun s => s.2 < r.1) n = false := by
      rcases List.mem_cons.1 ht with rfl | ht
      · rw [← Bool.not_eq_true, inRanges_iff]
        rintro ⟨s, hs, hle, -⟩
        have hafter := lt_of_mem_of_head? hss.2.1 hhead hs
        omega
      · exact ih hrs.of_cons hss.2.1 happart (inRanges_iff.2 ⟨t, ht, hfirst, hlast⟩)
    rw [← hsplit, inRanges_append, hbehind, hrest]
    rfl

/-! ## The tables -/

theorem isAscending_casedRanges : IsAscending casedRanges := by
  decide +kernel

theorem isAscending_ignorableRanges : IsAscending ignorableRanges := by
  decide +kernel

theorem liesApart_casedRanges : liesApart casedRanges ignorableRanges = true := by
  decide +kernel

/-- Every range of the table of mappings is cased, and so is what it is lowered to.  One of the
ranges passes over code points that are not cased, so its own ones are looked at. -/
theorem cased_lowerRanges : ∀ r ∈ lowerRanges,
    (spanned casedRanges r.first r.last || r.codes.all (inRanges casedRanges)) = true ∧
      spanned casedRanges (r.first + r.offset).toNat (r.last + r.offset).toNat = true := by
  decide +kernel

theorem isIgnorable_of_isCased {c : Char} (h : isCased c = true) : isIgnorable c = false :=
  not_inRanges_of_liesApart isAscending_casedRanges.pairwise isAscending_ignorableRanges.pairwise
    liesApart_casedRanges h

/-- A character that is mapped is cased before and after. -/
theorem lowerMapping_cases (c : Char) :
    lowerMapping c = c ∨ isCased c = true ∧ isCased (lowerMapping c) = true := by
  rcases lowerCode_eq c.toNat with hsame | ⟨r, hr, hmem, hcode⟩
  · exact .inl (by rw [lowerMapping, hsame, Char.ofNat_toNat])
  · obtain ⟨hcased, hlowered⟩ := cased_lowerRanges r hr
    obtain ⟨hfirst, hlast, -⟩ := CaseRange.contains_iff.1 (List.mem_filter.1 hmem).2
    refine .inr ⟨?_, ?_⟩
    · rcases Bool.or_eq_true_iff.1 hcased with hspan | hall
      · exact inRanges_of_spanned hspan hfirst hlast
      · exact List.all_eq_true.1 hall _ hmem
    · have hvalid := (valid_lowerRanges r hr _ (List.mem_map_of_mem hmem)).1
      rw [isCased, lowerMapping, hcode, toNat_ofNat hvalid]
      exact inRanges_of_spanned hlowered (by omega) (by omega)

/-! ## The first character that counts -/

theorem startsCased_cons_of_isCased {c : Char} (h : isCased c = true) (cs : List Char) :
    startsCased (c :: cs) = true := by
  rw [startsCased, isIgnorable_of_isCased h, h]
  rfl

/-- What follows some characters counts only by the first of it that counts. -/
theorem startsCased_append_congr {ys zs : List Char} (h : startsCased ys = startsCased zs)
    (xs : List Char) : startsCased (xs ++ ys) = startsCased (xs ++ zs) := by
  induction xs with
  | nil => exact h
  | cons x xs ih => rw [List.cons_append, List.cons_append, startsCased, startsCased, ih]

/-- The lower case of a character counts as the character does. -/
@[simp] theorem startsCased_lowerChar (c : Char) (cs : List Char) :
    startsCased (lowerChar c ++ cs) = startsCased (c :: cs) := by
  rw [lowerChar]
  split
  · next hdotted =>
    subst hdotted
    rw [startsCased_cons_of_isCased (by decide +kernel)]
    exact startsCased_cons_of_isCased (by decide +kernel) _
  · rcases lowerMapping_cases c with hsame | ⟨hcased, hlowered⟩
    · rw [hsame]
      rfl
    · rw [startsCased_cons_of_isCased hcased]
      exact startsCased_cons_of_isCased hlowered cs

/-- It counts so from behind too.  Of the two characters that the capital I with a dot becomes, the
second one is ignorable. -/
@[simp] theorem startsCased_reverse_lowerChar (c : Char) (cs : List Char) :
    startsCased ((lowerChar c).reverse ++ cs) = startsCased (c :: cs) := by
  by_cases hdotted : c = 'İ'
  · have hdot : isIgnorable '\u0307' = true := by decide +kernel
    have hreverse : (lowerChar c).reverse = ['\u0307', 'i'] := by
      rw [lowerChar, if_pos hdotted]
      rfl
    rw [hreverse, hdotted, startsCased_cons_of_isCased (by decide +kernel), List.cons_append,
      startsCased, if_pos hdot]
    exact startsCased_cons_of_isCased (by decide +kernel) cs
  · have hreverse : (lowerChar c).reverse = lowerChar c := by
      rw [lowerChar, if_neg hdotted]
      rfl
    rw [hreverse, startsCased_lowerChar]

/-! ## Lowering in a place -/

/-- What stands before characters matters only by the last of it that counts. -/
theorem lowerFrom_congr {before before' : List Char} (h : startsCased before = startsCased before')
    (cs : List Char) : lowerFrom before cs = lowerFrom before' cs := by
  induction cs generalizing before before' with
  | nil => rfl
  | cons c after ih =>
    have hbefore : startsCased (c :: before) = startsCased (c :: before') :=
      startsCased_append_congr h [c]
    rw [lowerFrom, lowerFrom, isFinal, isFinal, h, ih hbefore]

theorem lowerFrom_append_of_isLower {xs : List Char} (h : ∀ c ∈ xs, IsLower c)
    (before ys : List Char) :
    lowerFrom before (xs ++ ys) = xs ++ lowerFrom (xs.reverse ++ before) ys := by
  induction xs generalizing before with
  | nil => rfl
  | cons c xs ih =>
    obtain ⟨hc, hxs⟩ := List.forall_mem_cons.1 h
    rw [List.cons_append, lowerFrom, if_neg hc.ne_sigma, hc.lowerChar_eq, ih hxs,
      List.reverse_cons, List.append_assoc]
    rfl

/-! ## All characters but the sigmas -/

/-- The lower case of a character, but a capital sigma stays. -/
def lowerButSigma (c : Char) : List Char := if c = 'Σ' then [c] else lowerChar c

@[simp] theorem startsCased_lowerButSigma (c : Char) (cs : List Char) :
    startsCased (lowerButSigma c ++ cs) = startsCased (c :: cs) := by
  rw [lowerButSigma]
  split
  · rfl
  · exact startsCased_lowerChar c cs

@[simp] theorem startsCased_flatMap_lowerButSigma (cs : List Char) :
    startsCased (cs.flatMap lowerButSigma) = startsCased cs := by
  induction cs with
  | nil => rfl
  | cons c cs ih =>
    rw [List.flatMap_cons, startsCased_lowerButSigma]
    exact startsCased_append_congr ih [c]

/-- It makes no difference if the other characters are lowered before the sigmas are. -/
@[simp] theorem lowerFrom_flatMap_lowerButSigma (before cs : List Char) :
    lowerFrom before (cs.flatMap lowerButSigma) = lowerFrom before cs := by
  induction cs generalizing before with
  | nil => rfl
  | cons c after ih =>
    rw [List.flatMap_cons, lowerFrom, lowerButSigma]
    split
    -- at a sigma, what comes after it has changed; elsewhere, what stands before the rest has
    · next hsigma =>
      rw [List.singleton_append, lowerFrom, if_pos hsigma, isFinal, isFinal,
        startsCased_flatMap_lowerButSigma, ih]
    · next hsigma =>
      rw [lowerFrom_append_of_isLower fun d hd => isLower_of_mem_lowerChar hsigma hd,
        lowerFrom_congr (startsCased_reverse_lowerChar c before), ih]

/-- Strings that differ only in the case of characters other than the capital sigma have the same
lower case. -/
theorem lowercase_eq_of_lowerButSigma {a b : String}
    (h : a.toList.flatMap lowerButSigma = b.toList.flatMap lowerButSigma) :
    lowercase a = lowercase b := by
  rw [lowercase, lowercase, ← lowerFrom_flatMap_lowerButSigma, h, lowerFrom_flatMap_lowerButSigma]

/-- A capital ASCII letter has the lower case of the small one. -/
@[simp] theorem lowerButSigma_toLower (c : Char) : lowerButSigma c.toLower = lowerButSigma c := by
  have hletters : ∀ n ∈ List.range' 65 26,
      lowerButSigma (Char.ofNat n).toLower = lowerButSigma (Char.ofNat n) := by
    decide +kernel
  by_cases hcapital : 65 ≤ c.toNat ∧ c.toNat ≤ 90
  · have hletter := hletters c.toNat (List.mem_range'_1.2 ⟨hcapital.1, by omega⟩)
    rwa [Char.ofNat_toNat] at hletter
  · have hself : c.toLower = c := dif_neg hcapital
    rw [hself]

theorem flatMap_lowerButSigma_map_toLower (cs : List Char) :
    (cs.map Char.toLower).flatMap lowerButSigma = cs.flatMap lowerButSigma := by
  rw [List.flatMap_map, funext lowerButSigma_toLower]

/-! ## Separators -/

/-- A character that is neither cased nor ignorable. -/
structure IsSeparator (s : Char) : Prop where
  not_cased : isCased s = false
  not_ignorable : isIgnorable s = false

theorem IsSeparator.startsCased_cons {s : Char} (h : IsSeparator s) (cs : List Char) :
    startsCased (s :: cs) = false := by
  rw [startsCased, h.not_ignorable, h.not_cased]
  rfl

/-- A separator has no case. -/
theorem IsSeparator.isLower {s : Char} (h : IsSeparator s) : IsLower s := by
  have hne {c : Char} (hc : isCased c = true) : s ≠ c := by
    rintro rfl
    exact absurd (h.not_cased.symm.trans hc) Bool.false_ne_true
  refine isLower_iff.2 ⟨hne (by decide +kernel), hne (by decide +kernel), ?_⟩
  rcases lowerMapping_cases s with hsame | ⟨hcased, -⟩
  · exact hsame
  · exact absurd rfl (hne hcased)

/-- What stands before a separator is lowered as if nothing followed, and what stands after it as
if nothing came before. -/
theorem lowerFrom_append_separator {s : Char} (h : IsSeparator s) (before xs ys : List Char) :
    lowerFrom before (xs ++ s :: ys) = lowerFrom before xs ++ s :: lowerFrom [] ys := by
  induction xs generalizing before with
  | nil =>
    have hbefore : startsCased (s :: before) = startsCased [] := h.startsCased_cons before
    rw [List.nil_append, lowerFrom, lowerFrom, if_neg h.isLower.ne_sigma, h.isLower.lowerChar_eq,
      lowerFrom_congr hbefore]
    rfl
  | cons x xs ih =>
    have hafter : startsCased (xs ++ s :: ys) = startsCased xs := by
      have hempty : startsCased (s :: ys) = startsCased [] := h.startsCased_cons ys
      have hsame := startsCased_append_congr hempty xs
      rwa [List.append_nil] at hsame
    rw [List.cons_append, lowerFrom, lowerFrom, isFinal, isFinal, hafter, ih, List.append_assoc]

theorem lowercase_append_separator {s : Char} (h : IsSeparator s) (a b : String) :
    lowercase (a ++ String.singleton s ++ b) =
      lowercase a ++ String.singleton s ++ lowercase b := by
  apply String.toList_inj.1
  simp only [lowercase, String.toList_append, String.toList_ofList, String.toList_singleton,
    List.append_assoc, List.singleton_append, lowerFrom_append_separator h]

end Intake.Text
