import Intake.Json.Value
import Intake.Proofs.Dict.Writes
import Intake.Proofs.Float.Scaling

/-!
# Equality of values

Equality of values compares doubles as doubles, so it is coarser than being the same: the two zeros
are equal and are written differently.  It is reflexive all the same, because the only doubles that
differ from themselves are NaNs, and the numbers of a document are finite.
-/

namespace Intake

/-! ## Doubles -/

open Float.Model in
/-- A finite double equals itself. -/
theorem Binary64.beq_self_of_isFinite {x : Float} (h : x.isFinite = true) : (x == x) = true := by
  show UnpackedFloat.beq x.toModel.unpack x.toModel.unpack = true
  rcases isFinite_cases h with ⟨s, hx⟩ | ⟨s, m, e, hd, hx⟩
  · rw [hx]
    rfl
  · rw [hx]
    cases s <;> simp [UnpackedFloat.beq, UnpackedFloat.compare]

namespace Json

instance : ReflBEq Number where
  rfl {n} := by
    cases n with
    | integer v _ => exact beq_self_eq_true v
    | float x finite => exact Binary64.beq_self_of_isFinite finite

/-! ## Values -/

namespace Value

theorem equalItems_self {items : List Value} (h : ∀ v ∈ items, equal v v = true) :
    equalItems items items = true := by
  induction items with
  | nil => rfl
  | cons v vs ih =>
    rw [equalItems, h v List.mem_cons_self, ih fun w hw => h w (List.mem_cons_of_mem v hw)]
    rfl

theorem equalEntries_self {keys : KeySet} {value : Fin keys.toList.length → Value}
    (h : ∀ i, equal (value i) (value i) = true) :
    equalEntries ⟨keys, value⟩ ⟨keys, value⟩ = true := by
  rw [equalEntries, dif_pos rfl, List.all_eq_true]
  intro answer hanswer
  obtain ⟨i, rfl⟩ := List.mem_ofFn.1 hanswer
  exact h i

@[simp] theorem equal_self (v : Value) : equal v v = true := by
  induction v using Value.induction with
  | null => rfl
  | bool b => exact beq_self_eq_true b
  | number n => exact beq_self_eq_true n
  | string s => exact beq_self_eq_true s
  | array items ih => exact equalItems_self ih
  | object keys value ih => exact equalEntries_self ih

instance : ReflBEq Value where
  rfl := equal_self _

instance : ReflBEq (Dict Value) where
  rfl := equalEntries_self fun _ => equal_self _

/-- Dictionaries that are equal at each key are equal. -/
theorem beq_of_get? {d e : Dict Value} (h : ∀ k, (d.get? k == e.get? k) = true) :
    (d == e) = true := by
  have hkeys : d.keys = e.keys := by
    refine Dict.keys_congr fun k => ?_
    have hk := h k
    cases hd : d.get? k <;> cases he : e.get? k <;> rw [hd, he] at hk
    all_goals first | rfl | cases hk
  obtain ⟨keys, value⟩ := d
  obtain ⟨keys', value'⟩ := e
  obtain rfl : keys = keys' := hkeys
  show equalEntries ⟨keys, value⟩ ⟨keys, value'⟩ = true
  rw [equalEntries, dif_pos rfl, List.all_eq_true]
  intro answer hanswer
  obtain ⟨i, rfl⟩ := List.mem_ofFn.1 hanswer
  have hi := h (keys.toList.get i)
  rwa [Dict.get?_get ⟨keys, value⟩ i, Dict.get?_get ⟨keys, value'⟩ i] at hi

end Value

end Json

end Intake
