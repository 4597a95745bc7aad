import Mathlib.Data.List.Sort

/-! The first match in a list, with what is before and after it, and the first match
in a list that was sorted by a key: greatest key first, and equal keys in their old
order. Last what a list with one entry replaced keeps. -/

namespace TrajProxy.Search

variable {α : Type} (key : α → Nat) (p : α → Bool)

def splitFirst : List α → Option (List α × α × List α)
  | [] => none
  | x :: xs =>
    if p x then some ([], x, xs)
    else (splitFirst xs).map fun found => (x :: found.1, found.2)

/-- `a` satisfies `p` and its key is the greatest there, that of earlier elements
being smaller. -/
structure FirstGreatest (l : List α) (a : α) : Prop where
  holds : p a = true
  place : ∃ front back, l = front ++ a :: back ∧ (∀ b ∈ front, p b = true → key b < key a) ∧
    ∀ b ∈ back, p b = true → key b ≤ key a

variable {key p} {l : List α} {a b : α}

theorem splitFirst_eq_none_iff : splitFirst p l = none ↔ ∀ x ∈ l, p x = false := by
  induction l with
  | nil => exact ⟨fun _ _ mem => (nomatch mem), fun _ => rfl⟩
  | cons x l ih =>
    rw [splitFirst, List.forall_mem_cons, ← ih]
    by_cases holds : p x = true
    · simp [holds]
    · simp [holds]

theorem splitFirst_append {before after : List α} {x : α} (holds : p x = true)
    (earlier : ∀ y ∈ before, p y = false) :
    splitFirst p (before ++ x :: after) = some (before, x, after) := by
  induction before with
  | nil => rw [List.nil_append, splitFirst, if_pos holds]
  | cons y before ih =>
    obtain ⟨here, earlier⟩ := List.forall_mem_cons.mp earlier
    rw [List.cons_append, splitFirst, if_neg (Bool.eq_false_iff.mp here), ih earlier]
    rfl

theorem splitFirst_eq_some {x : α} {before after : List α}
    (found : splitFirst p l = some (before, x, after)) :
    l = before ++ x :: after ∧ p x = true ∧ ∀ y ∈ before, p y = false := by
  induction l generalizing before with
  | nil => nomatch found
  | cons y l ih =>
    by_cases here : p y = true
    · rw [splitFirst, if_pos here] at found
      cases found
      exact ⟨rfl, here, List.forall_mem_nil _⟩
    · rw [splitFirst, if_neg here] at found
      obtain ⟨rest, hrest, same⟩ := Option.map_eq_some_iff.mp found
      obtain ⟨first, other, last⟩ := rest
      cases same
      obtain ⟨rfl, holds, earlier⟩ := ih hrest
      exact ⟨rfl, holds, List.forall_mem_cons.mpr ⟨Bool.eq_false_iff.mpr here, earlier⟩⟩

theorem splitFirst_of_mem {x : α} (mem : x ∈ l) (holds : p x = true) :
    ∃ before y after, l = before ++ y :: after ∧ p y = true ∧ ∀ z ∈ before, p z = false := by
  induction l with
  | nil => nomatch mem
  | cons y l ih =>
    by_cases here : p y = true
    · exact ⟨[], y, l, rfl, here, fun _ none => (nomatch none)⟩
    · obtain rfl | mem := List.mem_cons.mp mem
      · exact absurd holds here
      · obtain ⟨before, z, after, rfl, found, earlier⟩ := ih mem
        exact ⟨y :: before, z, after, rfl, found,
          List.forall_mem_cons.mpr ⟨Bool.eq_false_iff.mpr here, earlier⟩⟩

namespace FirstGreatest

theorem mem (h : FirstGreatest key p l a) : a ∈ l := by
  obtain ⟨-, front, back, rfl, -, -⟩ := h
  exact List.mem_append_right front List.mem_cons_self

private theorem eq_of_split {front back middle rest : List α} (holds : p a = true)
    (holds' : p b = true) (same : a :: back = middle ++ b :: rest)
    (after : ∀ c ∈ back, p c = true → key c ≤ key a)
    (before : ∀ c ∈ front ++ middle, p c = true → key c < key b) : a = b := by
  cases middle with
  | nil => exact (List.cons.inj same).1
  | cons c middle =>
    obtain ⟨rfl, rfl⟩ := List.cons.inj same
    have smaller := before a (List.mem_append_right front List.mem_cons_self) holds
    have greater := after b (List.mem_append_right middle List.mem_cons_self) holds'
    omega

theorem unique (h : FirstGreatest key p l a) (h' : FirstGreatest key p l b) : a = b := by
  obtain ⟨holds, front, back, rfl, before, after⟩ := h
  obtain ⟨holds', front', back', same, before', after'⟩ := h'
  obtain ⟨middle, rfl, rest⟩ | ⟨middle, rfl, rest⟩ := List.append_eq_append_iff.mp same
  · exact eq_of_split holds holds' rest after before'
  · exact (eq_of_split holds' holds rest after' before).symm

end FirstGreatest

section Replace

variable {β : Type} {i j : Nat}

theorem filterMap_set (f : α → Option β) (there : l[i]? = some a) (b : α) :
    ∃ front back, l.filterMap f = front ++ (f a).toList ++ back ∧
      (l.set i b).filterMap f = front ++ (f b).toList ++ back := by
  have inside : i < l.length := (List.getElem?_eq_some_iff.mp there).1
  have value : l[i] = a := (List.getElem?_eq_some_iff.mp there).2
  refine ⟨(l.take i).filterMap f, (l.drop (i + 1)).filterMap f, ?_, ?_⟩
  · conv_lhs => rw [← List.take_append_drop i l, List.drop_eq_getElem_cons inside, value]
    rw [List.filterMap_append, List.append_assoc]
    cases same : f a <;> simp [same]
  · rw [List.set_eq_take_append_cons_drop, if_pos inside, List.filterMap_append,
      List.append_assoc]
    cases same : f b <;> simp [same]

theorem filterMap_set_of_eq {f : α → Option β} (there : l[i]? = some a) (same : f b = f a) :
    (l.set i b).filterMap f = l.filterMap f := by
  obtain ⟨front, back, old, new⟩ := filterMap_set f there b
  rw [old, new, same]

theorem mem_filterMap_of_getElem? {f : α → Option β} (there : l[i]? = some a) {c : β}
    (value : f a = some c) : c ∈ l.filterMap f :=
  List.mem_filterMap.mpr ⟨a, List.mem_of_getElem? there, value⟩

end Replace

end TrajProxy.Search
