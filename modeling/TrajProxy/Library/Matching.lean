import Mathlib.Data.List.DropRight
import Mathlib.Data.List.Infix
import Mathlib.Tactic.SplitIfs

/-! The leftmost match of a pattern in a text, as `re.search` finds it, and what it and
the stripping of a text do when the text goes on. A pattern is a function of what
follows a place. -/

namespace TrajProxy.Matching

variable {α β : Type}

/-- The match at the first place where there is one. -/
def firstMatch (pattern : List α → Option β) : List α → Option β
  | [] => pattern []
  | x :: xs =>
    match pattern (x :: xs) with
    | some found => some found
    | none => firstMatch pattern xs

/-- What follows a literal, where it is. -/
def afterLiteral [DecidableEq α] (literal text : List α) : Option (List α) :=
  if literal <+: text then some (text.drop literal.length) else none

section FirstMatch

variable {pattern : List α → Option β} {found : β}

theorem exists_suffix_of_firstMatch {text : List α} (h : firstMatch pattern text = some found) :
    ∃ suffix, suffix <:+ text ∧ pattern suffix = some found := by
  induction text with
  | nil => exact ⟨[], List.nil_suffix, h⟩
  | cons x xs ih =>
    rw [firstMatch] at h
    cases here : pattern (x :: xs) with
    | some other =>
      rw [here] at h
      exact ⟨x :: xs, List.suffix_rfl, here.trans h⟩
    | none =>
      rw [here] at h
      obtain ⟨suffix, inside, matched⟩ := ih h
      exact ⟨suffix, inside.trans (List.suffix_cons x xs), matched⟩

theorem firstMatch_of_head {text : List α} (h : pattern text = some found) :
    firstMatch pattern text = some found := by
  cases text with
  | nil => exact h
  | cons x xs => rw [firstMatch, h]

theorem firstMatch_cons {x : α} {xs : List α} (h : pattern (x :: xs) = none) :
    firstMatch pattern (x :: xs) = firstMatch pattern xs := by
  rw [firstMatch, h]

/-- What begins with none of these is skipped. -/
theorem firstMatch_skip {before : List α} (h : ∀ x ∈ before, ∀ xs, pattern (x :: xs) = none)
    (text : List α) : firstMatch pattern (before ++ text) = firstMatch pattern text := by
  induction before with
  | nil => rfl
  | cons x before ih =>
    obtain ⟨here, later⟩ := List.forall_mem_cons.mp h
    rw [List.cons_append, firstMatch_cons (here _), ih later]

theorem firstMatch_eq_none {text : List α} (h : ∀ suffix, suffix <:+ text → pattern suffix = none) :
    firstMatch pattern text = none := by
  cases matched : firstMatch pattern text with
  | none => rfl
  | some found =>
    obtain ⟨suffix, inside, here⟩ := exists_suffix_of_firstMatch matched
    rw [h suffix inside] at here
    nomatch here

/-- A match stays the first one when the text goes on, if a place where the pattern
still waits for text has no match after it. -/
theorem firstMatch_append {R : β → β → Prop} {rest : List α}
    (grows : ∀ text found, pattern text = some found →
      ∃ longer, pattern (text ++ rest) = some longer ∧ R found longer)
    (waits : ∀ text, pattern text = none → pattern (text ++ rest) ≠ none →
      firstMatch pattern text = none)
    {text : List α} (h : firstMatch pattern text = some found) :
    ∃ longer, firstMatch pattern (text ++ rest) = some longer ∧ R found longer := by
  induction text with
  | nil =>
    obtain ⟨longer, matched, related⟩ := grows [] found h
    exact ⟨longer, firstMatch_of_head matched, related⟩
  | cons x xs ih =>
    cases here : pattern (x :: xs) with
    | some other =>
      rw [firstMatch, here] at h
      obtain rfl := Option.some.inj h
      obtain ⟨longer, matched, related⟩ := grows (x :: xs) other here
      exact ⟨longer, firstMatch_of_head matched, related⟩
    | none =>
      have still : pattern (x :: xs ++ rest) = none := by
        by_contra other
        rw [waits (x :: xs) here other] at h
        nomatch h
      rw [firstMatch, here] at h
      obtain ⟨longer, matched, related⟩ := ih h
      rw [List.cons_append] at still ⊢
      exact ⟨longer, by rw [firstMatch, still, matched], related⟩

/-- A pattern that matches where one of its words begins, `M`, and whose value depends
on what follows the word. No word lies within the beginning of another. -/
structure Reads (pattern : List α → Option β) (M : List α → (List α → β) → Prop) : Prop where
  eq_some_iff : ∀ text found, pattern text = some found ↔
    ∃ word value after, M word value ∧ text = word ++ after ∧ value after = found
  apart : ∀ {word value word' value'}, M word value → M word' value' → ¬word' <:+: word.dropLast

/-- The first match of such a pattern stays the first one when the text goes on. -/
theorem Reads.firstMatch_append {M : List α → (List α → β) → Prop} (reads : Reads pattern M)
    {R : β → β → Prop} {rest : List α}
    (grows : ∀ word value after, M word value → R (value after) (value (after ++ rest)))
    {text : List α} (h : firstMatch pattern text = some found) :
    ∃ longer, firstMatch pattern (text ++ rest) = some longer ∧ R found longer := by
  refine Matching.firstMatch_append ?_ ?_ h
  · intro text found matched
    obtain ⟨word, value, after, isWord, rfl, rfl⟩ := (reads.eq_some_iff text found).mp matched
    exact ⟨value (after ++ rest), (reads.eq_some_iff _ _).mpr
      ⟨word, value, after ++ rest, isWord, List.append_assoc _ _ _, rfl⟩,
      grows word value after isWord⟩
  · intro text now later
    obtain ⟨found, matched⟩ := Option.ne_none_iff_exists'.mp later
    obtain ⟨word, value, after, isWord, whole, rfl⟩ := (reads.eq_some_iff _ _).mp matched
    have begins : word <+: text ++ rest := ⟨after, whole.symm⟩
    have missing : ¬word <+: text := by
      rintro ⟨after', rfl⟩
      have here := (reads.eq_some_iff _ _).mpr ⟨word, value, after', isWord, rfl, rfl⟩
      rw [now] at here
      nomatch here
    have shorter : text.length < word.length := by
      by_contra long
      exact missing
        (List.prefix_of_prefix_length_le begins (List.prefix_append text rest) (by omega))
    have unfinished : text <+: word.dropLast := by
      have prefixed := List.prefix_of_prefix_length_le (List.prefix_append text rest) begins
        (Nat.le_of_lt shorter)
      refine List.prefix_of_prefix_length_le prefixed (List.dropLast_prefix word) ?_
      rw [List.length_dropLast]
      omega
    refine firstMatch_eq_none fun suffix inside => ?_
    by_contra other
    obtain ⟨found', matched'⟩ := Option.ne_none_iff_exists'.mp other
    obtain ⟨word', value', after', isWord', rfl, rfl⟩ := (reads.eq_some_iff _ _).mp matched'
    exact reads.apart isWord isWord'
      (((List.prefix_append word' after').isInfix.trans inside.isInfix).trans unfinished.isInfix)

end FirstMatch

section Literal

variable [DecidableEq α] {literal text after : List α}

theorem afterLiteral_eq_some_iff :
    afterLiteral literal text = some after ↔ text = literal ++ after := by
  unfold afterLiteral
  split_ifs with here
  · obtain ⟨rest, rfl⟩ := here
    rw [List.drop_left, Option.some_inj, List.append_cancel_left_eq]
  · refine iff_of_false (fun other => nomatch other) ?_
    rintro rfl
    exact here (List.prefix_append _ _)

end Literal

section Strip

variable {p : α → Bool} {text longer kept : List α}

theorem dropWhile_grows (grows : text <+: longer) : text.dropWhile p <+: longer.dropWhile p := by
  obtain ⟨rest, rfl⟩ := grows
  rw [List.dropWhile_append]
  split_ifs with nothing
  · rw [List.isEmpty_iff.mp nothing]
    exact List.nil_prefix
  · exact List.prefix_append _ _

/-- A text that has nothing to strip at its end keeps it when it goes on. -/
theorem prefix_rdropWhile (whole : kept.rdropWhile p = kept) (grows : kept <+: longer) :
    kept <+: longer.rdropWhile p := by
  obtain ⟨rest, rfl⟩ := grows
  induction rest using List.reverseRecOn with
  | nil => rw [List.append_nil, whole]
  | append_singleton rest x ih =>
    rw [← List.append_assoc]
    by_cases stripped : p x = true
    · rw [List.rdropWhile_concat_pos _ _ _ stripped]
      exact ih
    · rw [List.rdropWhile_concat_neg _ _ _ stripped, List.append_assoc]
      exact List.prefix_append _ _

theorem rdropWhile_grows (grows : text <+: longer) : text.rdropWhile p <+: longer.rdropWhile p :=
  prefix_rdropWhile (List.rdropWhile_idempotent p text)
    ((List.rdropWhile_prefix p text).trans grows)

end Strip

end TrajProxy.Matching
