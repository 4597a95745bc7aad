import Mathlib.Data.List.DropRight
import TrajProxy.Library.Search
import TrajProxy.Library.Text

/-! `str.strip` and `str.split` at the first separator. -/

namespace TrajProxy.Text

/-- `s.strip()` -/
def strip (s : String) : String :=
  String.ofList ((s.toList.dropWhile isSpace).rdropWhile isSpace)

/-- `s.rstrip(c)` -/
def rstripChar (c : Char) (s : String) : String := String.ofList (s.toList.rdropWhile (· = c))

/-- `s.split(sep, 1)` when the separator is in `s`. -/
def splitOnce (sep : Char) (s : String) : Option (String × String) :=
  (Search.splitFirst (· = sep) s.toList).map fun parts =>
    (String.ofList parts.1, String.ofList parts.2.2)

theorem dropWhile_rdropWhile (p : Char → Bool) (l : List Char) :
    ((l.dropWhile p).rdropWhile p).dropWhile p = (l.dropWhile p).rdropWhile p := by
  cases kept : (l.dropWhile p).rdropWhile p with
  | nil => rfl
  | cons c rest =>
    obtain ⟨tail, whole⟩ := List.rdropWhile_prefix p (l.dropWhile p)
    rw [kept] at whole
    have head : p c = false := by
      have first := List.head?_dropWhile_not p l
      rw [← whole, List.cons_append, List.head?_cons] at first
      exact first
    rw [List.dropWhile_cons, head]
    rfl

@[simp] theorem strip_strip (s : String) : strip (strip s) = strip s := by
  rw [strip, strip, String.toList_ofList, dropWhile_rdropWhile, List.rdropWhile_idempotent]

theorem mem_of_mem_strip {s : String} {c : Char} (mem : c ∈ (strip s).toList) : c ∈ s.toList := by
  rw [strip, String.toList_ofList] at mem
  exact (List.dropWhile_suffix isSpace).subset ((List.rdropWhile_prefix isSpace _).subset mem)

/-- `not s.strip()` -/
theorem strip_eq_empty_iff {s : String} : strip s = "" ↔ isBlank s = true := by
  rw [← String.toList_inj, strip, String.toList_ofList, String.toList_empty, isBlank,
    List.all_eq_true, List.rdropWhile_eq_nil_iff]
  constructor
  · intro all
    have nothing : s.toList.dropWhile isSpace = [] := by
      cases kept : s.toList.dropWhile isSpace with
      | nil => rfl
      | cons c rest =>
        have first := List.head?_dropWhile_not isSpace s.toList
        rw [kept, List.head?_cons] at first
        exact absurd (all c (kept ▸ List.mem_cons_self)) (Bool.eq_false_iff.mp first)
    exact List.dropWhile_eq_nil_iff.mp nothing
  · intro all
    rw [List.dropWhile_eq_nil_iff.mpr all]
    exact List.forall_mem_nil _

variable {sep : Char} {s before after : String}

theorem splitOnce_eq_none_iff : splitOnce sep s = none ↔ sep ∉ s.toList := by
  rw [splitOnce, Option.map_eq_none_iff, Search.splitFirst_eq_none_iff]
  constructor
  · exact fun fresh mem => absurd rfl (of_decide_eq_false (fresh sep mem))
  · exact fun notMem c mem => decide_eq_false fun same => notMem (same ▸ mem)

theorem splitOnce_join (notMem : sep ∉ before.toList)
    (joined : s.toList = before.toList ++ sep :: after.toList) :
    splitOnce sep s = some (before, after) := by
  have found : Search.splitFirst (fun c => decide (c = sep))
      (before.toList ++ sep :: after.toList) = some (before.toList, sep, after.toList) := by
    apply Search.splitFirst_append
    · exact decide_eq_true rfl
    · intro c mem
      exact decide_eq_false fun same => notMem (same ▸ mem)
  rw [splitOnce, joined, found, Option.map_some, String.ofList_toList, String.ofList_toList]

theorem splitOnce_eq_some (split : splitOnce sep s = some (before, after)) :
    s.toList = before.toList ++ sep :: after.toList ∧ sep ∉ before.toList := by
  obtain ⟨parts, found, same⟩ := Option.map_eq_some_iff.mp split
  obtain ⟨first, c, last⟩ := parts
  obtain ⟨rfl, rfl⟩ := Prod.mk.inj same
  obtain ⟨whole, here, fresh⟩ := Search.splitFirst_eq_some found
  obtain rfl := of_decide_eq_true here
  rw [String.toList_ofList, String.toList_ofList]
  exact ⟨whole, fun mem => absurd rfl (of_decide_eq_false (fresh c mem))⟩

/-- What is before and after the last separator. -/
theorem join_inj {root root' last last' : List Char} (fresh : sep ∉ last) (fresh' : sep ∉ last')
    (same : root ++ sep :: last = root' ++ sep :: last') : root = root' ∧ last = last' := by
  have split {root last : List Char} (fresh : sep ∉ last) :
      Search.splitFirst (· = sep) (root ++ sep :: last).reverse =
        some (last.reverse, sep, root.reverse) := by
    rw [List.reverse_append, List.reverse_cons, List.append_assoc, List.singleton_append]
    apply Search.splitFirst_append
    · exact decide_eq_true rfl
    · intro c mem
      exact decide_eq_false fun here => fresh (here ▸ List.mem_reverse.mp mem)
  have both := (split fresh).symm.trans (same ▸ split fresh')
  simp only [Option.some.injEq, Prod.mk.injEq, List.reverse_inj, true_and] at both
  exact ⟨both.2, both.1⟩

end TrajProxy.Text
