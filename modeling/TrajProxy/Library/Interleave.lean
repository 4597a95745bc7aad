import Mathlib.Data.List.Basic
import Mathlib.Data.List.Dedup
import Mathlib.Data.Fintype.Basic
import Mathlib.Logic.Function.Basic

/-! Interleavings of a family of lists: each keeps its own order. -/

namespace TrajProxy

/-- The list interleaves `parts`. -/
inductive Interleaves {ι α : Type} [DecidableEq ι] : (ι → List α) → List α → Prop
  | done : Interleaves (fun _ => []) []
  | take {parts : ι → List α} {whole : List α} (i : ι) (a : α) (rest : Interleaves parts whole) :
      Interleaves (Function.update parts i (a :: parts i)) (a :: whole)

namespace Interleaves

variable {ι α κ : Type} [DecidableEq ι] {parts : ι → List α} {whole : List α}

theorem mem_iff (h : Interleaves parts whole) {a : α} : a ∈ whole ↔ ∃ i, a ∈ parts i := by
  induction h with
  | done => simp
  | @take parts whole i b rest ih =>
    rw [List.mem_cons, ih]
    constructor
    · rintro (rfl | ⟨j, mem⟩)
      · exact ⟨i, by simp⟩
      · by_cases same : j = i
        · subst same
          exact ⟨j, by simp [mem]⟩
        · exact ⟨j, by simpa [same] using mem⟩
    · rintro ⟨j, mem⟩
      by_cases same : j = i
      · subst same
        rw [Function.update_self, List.mem_cons] at mem
        exact mem.imp_right fun mem => ⟨j, mem⟩
      · rw [Function.update_of_ne same] at mem
        exact .inr ⟨j, mem⟩

/-- Each list is what the whole has under its key. -/
theorem filter_key [DecidableEq κ] (h : Interleaves parts whole) {key : α → κ} {keys : ι → κ}
    (distinct : Function.Injective keys) (own : ∀ i, ∀ a ∈ parts i, key a = keys i) (i : ι) :
    whole.filter (fun a => key a = keys i) = parts i := by
  induction h with
  | done => rfl
  | @take parts whole j b rest ih =>
    have before : ∀ i, ∀ a ∈ parts i, key a = keys i := by
      intro i a mem
      apply own i a
      by_cases same : i = j
      · subst same
        simp [mem]
      · simpa [same] using mem
    have here : key b = keys j := own j b (by simp)
    rw [List.filter_cons, ih before]
    by_cases same : i = j
    · subst same
      simp [here]
    · have other : keys j ≠ keys i := fun eq => same (distinct eq).symm
      simp [here, other, same]

end Interleaves

/-- The elements in the order in which they first come. -/
def firstOccurrences {α : Type} [DecidableEq α] (l : List α) : List α := l.reverse.dedup.reverse

@[simp] theorem mem_firstOccurrences {α : Type} [DecidableEq α] {l : List α} {a : α} :
    a ∈ firstOccurrences l ↔ a ∈ l := by
  simp [firstOccurrences]

theorem nodup_firstOccurrences {α : Type} [DecidableEq α] (l : List α) :
    (firstOccurrences l).Nodup :=
  List.nodup_reverse.mpr (List.nodup_dedup _)

end TrajProxy
