import Intake.Proofs.Metrics.Wire
import Mathlib.Data.List.Forall2

/-!
# Order and shards

A dataset of integers may be given in any order, because its metrics depend on the number of the
elements and on their sum.  It may also be cut into shards: the totals of the shards are a dataset
again, and that has the total of the whole, `ofData_shards`.

A total is narrowed to a word and widened again when it is added to others, and an empty shard has
the total zero without a sum being made.  Neither changes the integer, `intValue_total`, so the
totals of the shards have the sum of the whole dataset, `exactSum_totals`.
-/

namespace Intake.Metrics

/-! ## Sums of parts -/

@[simp] theorem exactTotal_append (vs ws : List Int) :
    exactTotal (vs ++ ws) = exactTotal vs + exactTotal ws := by
  induction vs with
  | nil => exact (Int.zero_add _).symm
  | cons v vs ih =>
    rw [List.cons_append, exactTotal, exactTotal, ih]
    omega

@[simp] theorem exactSum_append (data data' : List Numeric) :
    exactSum (data ++ data') = exactSum data + exactSum data' := by
  rw [exactSum_eq, exactSum_eq, exactSum_eq, List.map_append, exactTotal_append]

/-- The sum does not depend on the order. -/
theorem exactSum_perm {data data' : List Numeric} (h : data.Perm data') :
    exactSum data = exactSum data' :=
  h.foldl_eq' (fun n _ m _ sum => Int.add_right_comm sum n.intValue m.intValue) 0

/-! ## Totals -/

/-- The total of integers is their sum, narrowed to a word. -/
theorem map_total_ofData {data : List Numeric} (h : ∀ n ∈ data, n.isInteger = true) :
    (ofData data).result.map Metrics.total = narrowed (exactSum data) := by
  by_cases hne : data = []
  · subst hne
    rfl
  · rw [result_ofData, compute_of_isInteger h hne, narrowed]
    cases Numeric.ofInt? (exactSum data) <;> rfl

/-- A shard has a total, and it is the given one. -/
def IsTotal (shard : List Numeric) (total : Numeric) : Prop :=
  ∃ m, (ofData shard).result = .ok m ∧ m.total = total

/-- The totals of shards are integers, and their sum is that of all the shards together. -/
theorem exactSum_totals {shards : List (List Numeric)} {totals : List Numeric}
    (h : ∀ n ∈ shards.flatten, n.isInteger = true)
    (htotals : List.Forall₂ IsTotal shards totals) :
    (∀ n ∈ totals, n.isInteger = true) ∧ exactSum totals = exactSum shards.flatten := by
  induction htotals with
  | nil => exact ⟨h, rfl⟩
  | cons htotal _ ih =>
    rw [List.flatten_cons, List.forall_mem_append] at h
    obtain ⟨m, hm, rfl⟩ := htotal
    obtain ⟨hint, hvalue⟩ := intValue_total h.1 hm
    obtain ⟨hints, hsum⟩ := ih h.2
    refine ⟨List.forall_mem_cons.2 ⟨hint, hints⟩, ?_⟩
    rw [List.flatten_cons, exactSum_append, exactSum_cons, hvalue, hsum]

/-- **Order and shards.**  Integers in any order have the same metrics, or the same error, and the
same report.  If they are cut into shards and each shard has a total, then the dataset of the totals
has the total of the whole, or the same error, which carries the sum of the whole. -/
theorem ofData_shards {data ordered totals : List Numeric} {shards : List (List Numeric)}
    (h : ∀ n ∈ data, n.isInteger = true) (hordered : ordered.Perm data)
    (hshards : shards.flatten = ordered) (htotals : List.Forall₂ IsTotal shards totals) :
    ofData ordered = ofData data ∧
      (ofData totals).result.map Metrics.total = (ofData data).result.map Metrics.total ∧
      ∀ e, (ofData data).result = .error e → e = .totalOutOfRange (exactSum data) := by
  have hints : ∀ n ∈ ordered, n.isInteger = true := fun n hn => h n (hordered.mem_iff.1 hn)
  have hsum : exactSum ordered = exactSum data := exactSum_perm hordered
  obtain ⟨htotalInts, htotalSum⟩ := exactSum_totals (hshards ▸ hints) htotals
  refine ⟨ofData_eq_of_exactSum hints h hordered.length_eq hsum, ?_, ?_⟩
  · rw [map_total_ofData htotalInts, map_total_ofData h, htotalSum, hshards, hsum]
  · intro e he
    have hanswer := exactAnswer_of_isInteger h
    rw [he] at hanswer
    cases hanswer with
    | outOfRange _ => rfl

/-- The shards are cut from the reverse of the dataset, and one of them is empty; a total beyond the
signed words comes out of a signed and an unsigned one.  In the second dataset each element has a
total, and the whole has none. -/
theorem ofData_shards_of_reverse :
    (∃ totals, List.Forall₂ IsTotal [[.int Int64.minValue, .uint 7], [],
        [.int (-1), .uint 0xFFFFFFFFFFFFFFFF]] totals ∧
      (ofData totals).result.map Metrics.total = .ok (.uint 0x8000000000000005) ∧
      (ofData [.uint 0xFFFFFFFFFFFFFFFF, .int (-1), .uint 7,
        .int Int64.minValue]).result.map Metrics.total = .ok (.uint 0x8000000000000005)) ∧
    (∃ totals, List.Forall₂ IsTotal [[.int 1], [.uint 0xFFFFFFFFFFFFFFFF]] totals ∧
      (ofData totals).result.map Metrics.total = .error (.totalOutOfRange 0x10000000000000000) ∧
      (ofData [.uint 0xFFFFFFFFFFFFFFFF, .int 1]).result.map Metrics.total =
        .error (.totalOutOfRange 0x10000000000000000)) := by
  have hwords : ∀ n ∈ [Numeric.uint 0xFFFFFFFFFFFFFFFF, .int (-1), .uint 7,
      .int Int64.minValue], n.isInteger = true := by
    simp [Numeric.isInteger]
  have hlarge : ∀ n ∈ [Numeric.uint 0xFFFFFFFFFFFFFFFF, .int 1], n.isInteger = true := by
    simp [Numeric.isInteger]
  have hshards : List.Forall₂ IsTotal [[.int Int64.minValue, .uint 7], [],
      [.int (-1), .uint 0xFFFFFFFFFFFFFFFF]]
      [.int (-0x7FFFFFFFFFFFFFF9), .int 0, .uint 0xFFFFFFFFFFFFFFFE] :=
    .cons ⟨_, rfl, rfl⟩ (.cons ⟨_, rfl, rfl⟩ (.cons ⟨_, rfl, rfl⟩ .nil))
  have hsingle : List.Forall₂ IsTotal [[.int 1], [.uint 0xFFFFFFFFFFFFFFFF]]
      [.int 1, .uint 0xFFFFFFFFFFFFFFFF] :=
    .cons ⟨_, rfl, rfl⟩ (.cons ⟨_, rfl, rfl⟩ .nil)
  obtain ⟨-, hwhole, -⟩ := ofData_shards hwords (List.reverse_perm _) rfl hshards
  obtain ⟨-, hnone, -⟩ := ofData_shards hlarge (List.reverse_perm _) rfl hsingle
  exact ⟨⟨_, hshards, hwhole.trans rfl, rfl⟩, ⟨_, hsingle, hnone.trans rfl, rfl⟩⟩

end Intake.Metrics
