/-!
# Decimal digits

Digits are numbers below ten, listed from the most significant one.  `digits` writes a number,
`value` reads a list of digits back, and `absorb` reads digits into a word of limited size: it stops
at the first digit that would leave the limit and says how many digits it did not take.
-/

namespace Intake.Decimal

/-! ## Digits of a number -/

/-- The digits of a number that has at most one digit more than the given count. -/
def digitsWithin : Nat → Nat → List Nat
  | 0, n => [n]
  | count + 1, n => if n < 10 then [n] else digitsWithin count (n / 10) ++ [n % 10]

/-- The decimal digits of a number, without leading zeros; zero has the digit zero. -/
def digits (n : Nat) : List Nat := digitsWithin n.log2 n

/-- The number that a list of digits continues another number to. -/
def valueFrom (n : Nat) (ds : List Nat) : Nat := ds.foldl (fun n d => 10 * n + d) n

@[simp] theorem valueFrom_nil (n : Nat) : valueFrom n [] = n := rfl

@[simp] theorem valueFrom_cons (n d : Nat) (ds : List Nat) :
    valueFrom n (d :: ds) = valueFrom (10 * n + d) ds := rfl

/-- The number that a list of digits writes. -/
def value (ds : List Nat) : Nat := valueFrom 0 ds

@[simp] theorem value_digitsWithin {count n : Nat} : value (digitsWithin count n) = n := by
  induction count generalizing n with
  | zero => simp [digitsWithin, value, valueFrom]
  | succ count ih =>
    simp only [digitsWithin]
    split
    · simp [value, valueFrom]
    · simp only [value, valueFrom, List.foldl_append] at ih ⊢
      rw [ih]
      exact Nat.div_add_mod n 10

/-- Writing a number and reading the digits gives the number. -/
@[simp] theorem value_digits (n : Nat) : value (digits n) = n := value_digitsWithin

theorem log2_div_ten_le {count n : Nat} (h : n.log2 ≤ count + 1) (hn : 10 ≤ n) :
    (n / 10).log2 ≤ count := by
  refine Nat.le_of_lt_succ ?_
  rw [Nat.log2_lt (by omega), Nat.div_lt_iff_lt_mul (by decide)]
  have : n < 2 ^ (count + 1 + 1) := Nat.lt_of_lt_of_le Nat.lt_log2_self
    (Nat.pow_le_pow_right (by decide) (Nat.succ_le_succ h))
  rw [Nat.pow_succ] at this
  omega

theorem lt_ten_of_mem_digitsWithin {count n d : Nat} (h : n.log2 ≤ count)
    (hd : d ∈ digitsWithin count n) : d < 10 := by
  induction count generalizing n with
  | zero =>
    obtain rfl : d = n := by simpa [digitsWithin] using hd
    have : d < 2 ^ (0 + 1) := Nat.lt_of_lt_of_le Nat.lt_log2_self
      (Nat.pow_le_pow_right (by decide) (Nat.succ_le_succ h))
    omega
  | succ count ih =>
    simp only [digitsWithin] at hd
    split at hd
    · next small =>
      obtain rfl : d = n := by simpa using hd
      exact small
    · next large =>
      rcases List.mem_append.1 hd with hd | hd
      · exact ih (log2_div_ten_le h (Nat.le_of_not_lt large)) hd
      · obtain rfl : d = n % 10 := by simpa using hd
        exact Nat.mod_lt _ (by decide)

theorem lt_ten_of_mem_digits {n d : Nat} (hd : d ∈ digits n) : d < 10 :=
  lt_ten_of_mem_digitsWithin (Nat.le_refl _) hd

@[simp] theorem digitsWithin_ne_nil (count n : Nat) : digitsWithin count n ≠ [] := by
  cases count with
  | zero => exact List.cons_ne_nil n []
  | succ count =>
    rw [digitsWithin]
    split
    · exact List.cons_ne_nil n []
    · exact List.append_ne_nil_of_right_ne_nil _ (List.cons_ne_nil (n % 10) [])

@[simp] theorem digits_ne_nil (n : Nat) : digits n ≠ [] := digitsWithin_ne_nil n.log2 n

theorem head?_digitsWithin_ne {count n : Nat} (h : n ≠ 0) :
    (digitsWithin count n).head? ≠ some 0 := by
  induction count generalizing n with
  | zero => simpa [digitsWithin] using h
  | succ count ih =>
    rw [digitsWithin]
    split
    · simpa using h
    · obtain ⟨d, ds, hds⟩ := List.exists_cons_of_ne_nil (digitsWithin_ne_nil count (n / 10))
      have ih := ih (n := n / 10) (by omega)
      rwa [hds] at ih ⊢

/-- Only zero is written with a zero in front. -/
theorem head?_digits_ne {n : Nat} (h : n ≠ 0) : (digits n).head? ≠ some 0 :=
  head?_digitsWithin_ne h

/-! ## Characters -/

/-- The character for a digit. -/
def digitChar (d : Nat) : Char := Char.ofNat (48 + d)

/-- The digit that a character stands for, if it is one of the ten ASCII digits. -/
def digit? (c : Char) : Option Nat :=
  if 48 ≤ c.toNat ∧ c.toNat ≤ 57 then some (c.toNat - 48) else none

theorem digit?_digitChar {d : Nat} (h : d < 10) : digit? (digitChar d) = some d := by
  revert d
  decide

/-- A number in decimal. -/
def natText (n : Nat) : List Char := (digits n).map digitChar

/-- An integer in decimal, a negative one after a minus sign. -/
def intText (v : Int) : List Char :=
  if v < 0 then '-' :: natText v.natAbs else natText v.natAbs

@[simp] theorem intText_natCast (n : Nat) : intText n = natText n := by
  rw [intText, if_neg (Int.not_lt.2 (Int.natCast_nonneg n)), Int.natAbs_natCast]

/-! ## Digits within a limit -/

/-- Continues a number by digits as long as it stays within the limit.  The second part of the
answer is how many digits were left. -/
def absorb (limit : Nat) : Nat → List Nat → Nat × Nat
  | n, [] => (n, 0)
  | n, d :: ds => if 10 * n + d ≤ limit then absorb limit (10 * n + d) ds else (n, ds.length + 1)

theorem absorb_of_le {limit n : Nat} {ds : List Nat} (h : valueFrom n ds ≤ limit) :
    absorb limit n ds = (valueFrom n ds, 0) := by
  induction ds generalizing n with
  | nil => rfl
  | cons d ds ih =>
    have le : ∀ (ds : List Nat) (n : Nat), n ≤ valueFrom n ds := fun ds => by
      induction ds with
      | nil => exact fun n => Nat.le_refl n
      | cons d ds ih => exact fun n => Nat.le_trans (by omega) (ih (10 * n + d))
    rw [absorb, if_pos (Nat.le_trans (le ds _) h)]
    exact ih h

end Intake.Decimal
