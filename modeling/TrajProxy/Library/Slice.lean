import Mathlib.Data.List.Basic
import Mathlib.Tactic.SplitIfs

/-! Python slices of a list at one bound: `xs[:bound]` and `xs[bound:]`. -/

namespace TrajProxy.Slice

variable {α : Type}

/-- Where a bound cuts a list of this length; a negative one counts from the end. -/
def position (length : Nat) (bound : Int) : Nat :=
  if 0 ≤ bound then min bound.toNat length else (length + bound).toNat

/-- `xs[:bound]` -/
def upTo (xs : List α) : Option Int → List α
  | none => xs
  | some bound => xs.take (position xs.length bound)

/-- `xs[bound:]` -/
def startingAt (xs : List α) : Option Int → List α
  | none => xs
  | some bound => xs.drop (position xs.length bound)

/-- `xs[first:last]` -/
def between (xs : List α) (first last : Int) : List α :=
  (xs.take (position xs.length last)).drop (position xs.length first)

theorem position_le (length : Nat) (bound : Int) : position length bound ≤ length := by
  unfold position
  split_ifs <;> omega

theorem position_eq_iff {before after : Nat} (bound : Int) (hbefore : 0 < before)
    (hafter : 0 < after) :
    position (before + after) bound = before ↔ bound = before ∨ bound = -(after : Int) := by
  unfold position
  split_ifs with sign <;> omega

/-- The two bounds that cut a list between two parts. -/
theorem upTo_append_iff {before after : List α} (hbefore : before ≠ []) (hafter : after ≠ [])
    (bound : Option Int) :
    upTo (before ++ after) bound = before ↔
      bound = some (before.length : Int) ∨ bound = some (-(after.length : Int)) := by
  cases bound with
  | none => simp [upTo, hafter]
  | some bound =>
    have le := position_le (before ++ after).length bound
    have lengths : upTo (before ++ after) (some bound) = before ↔
        position (before ++ after).length bound = before.length := by
      refine ⟨fun same => ?_, fun same => ?_⟩
      · rw [← List.length_take_of_le le]
        exact congrArg List.length same
      · rw [upTo, same, List.take_left]
    rw [lengths, List.length_append, position_eq_iff bound (List.length_pos_of_ne_nil hbefore)
      (List.length_pos_of_ne_nil hafter), Option.some_inj, Option.some_inj]

theorem startingAt_append {before after : List α} (hbefore : before ≠ []) (hafter : after ≠ [])
    {bound : Option Int} (h : upTo (before ++ after) bound = before) :
    startingAt (before ++ after) bound = after := by
  have cut : startingAt (before ++ after) bound = (before ++ after).drop before.length := by
    obtain rfl | rfl := (upTo_append_iff hbefore hafter bound).mp h
    · rw [startingAt, List.length_append, (position_eq_iff _ (List.length_pos_of_ne_nil hbefore)
        (List.length_pos_of_ne_nil hafter)).mpr (Or.inl rfl)]
    · rw [startingAt, List.length_append, (position_eq_iff _ (List.length_pos_of_ne_nil hbefore)
        (List.length_pos_of_ne_nil hafter)).mpr (Or.inr rfl)]
  rw [cut, List.drop_left]

theorem position_natCast (length n : Nat) : position length (n : Int) = min n length := by
  rw [position, if_pos (Int.natCast_nonneg n), Int.toNat_natCast]

theorem upTo_natCast (xs : List α) (n : Nat) : upTo xs (some (n : Int)) = xs.take n := by
  rw [upTo, position_natCast, List.take_eq_take_iff, Nat.min_assoc, Nat.min_self]

theorem startingAt_natCast (xs : List α) (n : Nat) :
    startingAt xs (some (n : Int)) = xs.drop n := by
  rw [startingAt, position_natCast]
  rcases Nat.le_total n xs.length with le | le
  · rw [Nat.min_eq_left le]
  · rw [Nat.min_eq_right le, List.drop_length, List.drop_eq_nil_of_le le]

/-- The bound after the first part, whatever follows it. -/
theorem upTo_length (before after : List α) :
    upTo (before ++ after) (some (before.length : Int)) = before := by
  rw [upTo_natCast, List.take_left]

theorem startingAt_length (before after : List α) :
    startingAt (before ++ after) (some (before.length : Int)) = after := by
  rw [startingAt_natCast, List.drop_left]

theorem between_length (before middle after : List α) :
    between (before ++ (middle ++ after)) before.length (before.length + middle.length) =
      middle := by
  have first : position (before ++ (middle ++ after)).length before.length = before.length := by
    unfold position
    rw [if_pos (Int.natCast_nonneg _), List.length_append]
    omega
  have last : position (before ++ (middle ++ after)).length (before.length + middle.length) =
      (before ++ middle).length := by
    unfold position
    rw [if_pos (by omega), List.length_append, List.length_append, List.length_append]
    omega
  rw [between, first, last, ← List.append_assoc, List.take_left, List.drop_left]

/-- Both bounds are the same place, or the second one comes before the first. -/
theorem between_of_le (xs : List α) {first last : Int} (le : last ≤ first) (nonneg : 0 ≤ last) :
    between xs first last = [] := by
  have order : position xs.length last ≤ position xs.length first := by
    unfold position
    rw [if_pos nonneg, if_pos (Int.le_trans nonneg le)]
    omega
  exact List.drop_eq_nil_of_le (Nat.le_trans (List.length_take_le _ _) order)

theorem upTo_neg_one (xs : List α) : upTo xs (some (-1)) = xs.dropLast := by
  have last : position xs.length (-1) = xs.length - 1 := by
    unfold position
    rw [if_neg (by decide)]
    omega
  rw [upTo, last, List.dropLast_eq_take]

theorem length_between_neg_one (xs : List α) (first : Int) :
    (between xs first (-1)).length ≤ xs.length - 1 := by
  have last : xs.take (position xs.length (-1)) = xs.dropLast := upTo_neg_one xs
  rw [between, last, List.length_drop, List.length_dropLast]
  omega

end TrajProxy.Slice
