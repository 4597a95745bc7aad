import Mathlib.Data.List.Basic

/-! Replacement of the leftmost matches of a pattern, as `re.subn` does it. A pattern
says how many elements a match at the head of a text has; it matches no empty text. -/

namespace TrajProxy.Rewrite

variable {α : Type} (pattern : List α → Option Nat) (replacement : List α → List α)

/-- The text after a match of which `skip` elements are still to be passed, and how many
matches were replaced. -/
def scan : Nat → List α → List α × Nat
  | _, [] => ([], 0)
  | skip + 1, _ :: rest => scan skip rest
  | 0, c :: rest =>
    match pattern (c :: rest) with
    | some (n + 1) =>
      (replacement ((c :: rest).take (n + 1)) ++ (scan n rest).1, (scan n rest).2 + 1)
    | _ => (c :: (scan 0 rest).1, (scan 0 rest).2)

/-- `pattern.subn(replacement, text)` -/
def subn (text : List α) : List α × Nat := scan pattern replacement 0 text

variable {pattern replacement}

theorem scan_eq (skip : Nat) (text : List α) :
    scan pattern replacement skip text = subn pattern replacement (text.drop skip) := by
  induction text generalizing skip with
  | nil =>
    rw [List.drop_nil]
    cases skip <;> rfl
  | cons c rest ih =>
    cases skip with
    | zero => rfl
    | succ skip => rw [scan, ih, List.drop_succ_cons]

theorem subn_of_none {c : α} {rest : List α} (none : pattern (c :: rest) = none) :
    subn pattern replacement (c :: rest) =
      (c :: (subn pattern replacement rest).1, (subn pattern replacement rest).2) := by
  rw [subn, scan, none]
  rfl

theorem subn_of_match {first rest : List α} (nonempty : first ≠ [])
    (found : pattern (first ++ rest) = some first.length) :
    subn pattern replacement (first ++ rest) =
      (replacement first ++ (subn pattern replacement rest).1,
        (subn pattern replacement rest).2 + 1) := by
  obtain ⟨c, tail, rfl⟩ := List.exists_cons_of_ne_nil nonempty
  rw [List.cons_append, List.length_cons] at found
  have taken : (c :: (tail ++ rest)).take (tail.length + 1) = c :: tail := by
    rw [List.take_succ_cons, List.take_left]
  rw [List.cons_append, subn, scan, found]
  dsimp only
  rw [scan_eq, List.drop_left, taken]

/-- Without a match the text stays as it is. -/
theorem subn_of_count_zero {text : List α} (zero : (subn pattern replacement text).2 = 0) :
    (subn pattern replacement text).1 = text := by
  induction text with
  | nil => rfl
  | cons c rest ih =>
    unfold subn scan at zero ⊢
    split at zero
    · exact absurd zero (Nat.succ_ne_zero _)
    · exact congrArg (c :: ·) (ih zero)

end TrajProxy.Rewrite
