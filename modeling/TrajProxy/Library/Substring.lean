import Mathlib.Data.List.Basic
import Mathlib.Data.List.Infix
import Mathlib.Tactic.SplitIfs
import TrajProxy.Library.Slice

/-! The first occurrence of a mark in a list and in a Python string. A tag is a mark
whose first element is not in the rest of it, so that no occurrence of it starts inside
another. -/

namespace TrajProxy.Substring

variable {α : Type} [DecidableEq α]

/-- Where a mark occurs first. -/
def find (mark : List α) : List α → Option Nat
  | [] => if mark = [] then some 0 else none
  | x :: xs => if mark <+: x :: xs then some 0 else (find mark xs).map (· + 1)

/-- What is before the first occurrence of a mark and what is after it. -/
def cut (mark xs : List α) : Option (List α × List α) :=
  (find mark xs).map fun index => (xs.take index, xs.drop (index + mark.length))

def Tag (mark : List α) : Prop := ∃ opening rest, mark = opening :: rest ∧ opening ∉ rest

variable {mark xs before after : List α}

theorem find_eq_none_iff : find mark xs = none ↔ ¬mark <:+: xs := by
  induction xs with
  | nil =>
    rw [find, List.infix_nil]
    split_ifs with empty
    · exact iff_of_false not_false fun other => other empty
    · exact iff_of_true rfl empty
  | cons x xs ih =>
    rw [find, List.infix_cons_iff, not_or]
    split_ifs with here
    · exact iff_of_false not_false fun neither => neither.1 here
    · rw [Option.map_eq_none_iff, ih]
      exact (and_iff_right here).symm

theorem cut_eq_none_iff : cut mark xs = none ↔ ¬mark <:+: xs := by
  rw [cut, Option.map_eq_none_iff, find_eq_none_iff]

/-- The first occurrence, of a mark that is not empty. -/
theorem find_eq_some_iff (nonempty : mark ≠ []) {index : Nat} :
    find mark xs = some index ↔
      mark <+: xs.drop index ∧ ∀ earlier < index, ¬mark <+: xs.drop earlier := by
  induction xs generalizing index with
  | nil =>
    rw [find, if_neg nonempty]
    refine iff_of_false (fun none => nomatch none) fun ⟨occurs, _⟩ => ?_
    rw [List.drop_nil] at occurs
    exact nonempty (List.prefix_nil.mp occurs)
  | cons x xs ih =>
    rw [find]
    split_ifs with here
    · cases index with
      | zero => exact ⟨fun _ => ⟨here, fun _ none => absurd none (Nat.not_lt_zero _)⟩, fun _ => rfl⟩
      | succ index =>
        refine iff_of_false (fun other => nomatch other) fun ⟨_, first⟩ => ?_
        exact first 0 (Nat.zero_lt_succ index) here
    · cases index with
      | zero =>
        refine iff_of_false (fun other => ?_) fun ⟨occurs, _⟩ => here occurs
        obtain ⟨_, _, zero⟩ := Option.map_eq_some_iff.mp other
        nomatch zero
      | succ index =>
        have later : (find mark xs).map (· + 1) = some (index + 1) ↔ find mark xs = some index := by
          simp
        rw [later, ih, List.drop_succ_cons]
        refine and_congr_right fun _ => ⟨fun first => ?_, fun first earlier lt => ?_⟩
        · intro earlier lt
          cases earlier with
          | zero => exact here
          | succ earlier => exact first earlier (Nat.lt_of_succ_lt_succ lt)
        · exact first (earlier + 1) (Nat.succ_lt_succ lt)

theorem find_add_length_le {index : Nat} (found : find mark xs = some index) :
    index + mark.length ≤ xs.length := by
  induction xs generalizing index with
  | nil =>
    rw [find] at found
    split_ifs at found with empty
    obtain rfl := Option.some.inj found
    rw [empty]
    exact Nat.le_refl 0
  | cons x xs ih =>
    rw [find] at found
    split_ifs at found with here
    · obtain rfl := Option.some.inj found
      rw [Nat.zero_add]
      exact here.length_le
    · obtain ⟨before, earlier, rfl⟩ := Option.map_eq_some_iff.mp found
      have := ih earlier
      rw [List.length_cons]
      omega

/-- An occurrence stays the first one when the text goes on. -/
theorem find_append {index : Nat} (found : find mark xs = some index) (ys : List α) :
    find mark (xs ++ ys) = some index := by
  induction xs generalizing index with
  | nil =>
    rw [find] at found
    split_ifs at found with empty
    obtain rfl := Option.some.inj found
    cases ys with
    | nil => rw [List.append_nil, find, if_pos empty]
    | cons y ys => rw [List.nil_append, find, if_pos (empty ▸ List.nil_prefix)]
  | cons x xs ih =>
    rw [find] at found
    split_ifs at found with here
    · have begins : mark <+: x :: (xs ++ ys) := here.trans (List.prefix_append (x :: xs) ys)
      rw [List.cons_append, find, if_pos begins, found]
    · obtain ⟨before, earlier, rfl⟩ := Option.map_eq_some_iff.mp found
      have fits := find_add_length_le earlier
      have notHere : ¬mark <+: x :: (xs ++ ys) := fun begins =>
        here (List.prefix_of_prefix_length_le begins (List.prefix_append (x :: xs) ys) (by
          rw [List.length_cons]
          omega))
      rw [List.cons_append, find, if_neg notHere, ih earlier]
      rfl

theorem cut_nil (nonempty : mark ≠ []) : cut mark ([] : List α) = none := by
  rw [cut, find, if_neg nonempty]
  rfl

theorem cut_append (found : cut mark xs = some (before, after)) (ys : List α) :
    cut mark (xs ++ ys) = some (before, after ++ ys) := by
  obtain ⟨index, place, same⟩ := Option.map_eq_some_iff.mp found
  obtain ⟨rfl, rfl⟩ := Prod.mk.inj same
  have fits := find_add_length_le place
  rw [cut, find_append place, Option.map_some, List.take_append_of_le_length (by omega),
    List.drop_append_of_le_length fits]

theorem length_of_cut (found : cut mark xs = some (before, after)) :
    xs.length = before.length + mark.length + after.length := by
  obtain ⟨index, place, same⟩ := Option.map_eq_some_iff.mp found
  obtain ⟨rfl, rfl⟩ := Prod.mk.inj same
  have fits := find_add_length_le place
  rw [List.length_take_of_le (by omega), List.length_drop]
  omega

omit [DecidableEq α] in
theorem Tag.ne_nil (tag : Tag mark) : mark ≠ [] := by
  obtain ⟨opening, rest, rfl, _⟩ := tag
  exact List.cons_ne_nil opening rest

omit [DecidableEq α] in
/-- An occurrence that starts before an opening does not reach into it. -/
theorem not_prefix_of_clear {opening x : α} {rest : List α} (fresh : opening ∉ rest)
    (clear : ¬opening :: rest <:+: x :: before) (text : List α) :
    ¬opening :: rest <+: x :: (before ++ opening :: text) := by
  intro occurs
  obtain ⟨rfl, inner⟩ := List.cons_prefix_cons.mp occurs
  obtain shorter | longer :=
    List.prefix_or_prefix_of_prefix inner (List.prefix_append before _)
  · exact clear ((List.cons_prefix_cons.mpr ⟨rfl, shorter⟩).isInfix)
  · obtain ⟨left, rfl⟩ := longer
    have starts : left <+: opening :: text := (List.prefix_append_right_inj _).mp inner
    cases left with
    | nil =>
      rw [List.append_nil] at clear
      exact clear List.infix_rfl
    | cons y left =>
      obtain ⟨rfl, _⟩ := List.cons_prefix_cons.mp starts
      exact fresh (List.mem_append_right _ List.mem_cons_self)

omit [DecidableEq α] in
theorem Tag.not_prefix (tag : Tag mark) {x : α} (clear : ¬mark <:+: x :: before) :
    ¬mark <+: x :: (before ++ (mark ++ after)) := by
  obtain ⟨opening, rest, rfl, fresh⟩ := tag
  exact not_prefix_of_clear fresh clear (rest ++ after)

/-- A tag after a text without it is found where it is. -/
theorem Tag.find (tag : Tag mark) (clear : ¬mark <:+: before) :
    Substring.find mark (before ++ (mark ++ after)) = some before.length := by
  induction before with
  | nil =>
    rw [List.nil_append]
    cases hmark : mark ++ after with
    | nil => exact absurd (List.append_eq_nil_iff.mp hmark).1 tag.ne_nil
    | cons x xs =>
      rw [Substring.find, if_pos (hmark ▸ List.prefix_append mark after)]
      rfl
  | cons x before ih =>
    have later : ¬mark <:+: before := fun occurs => clear (List.infix_cons occurs)
    rw [List.cons_append, Substring.find, if_neg (tag.not_prefix clear), ih later]
    rfl

theorem Tag.cut (tag : Tag mark) (clear : ¬mark <:+: before) :
    Substring.cut mark (before ++ (mark ++ after)) = some (before, after) := by
  have skipped : (before ++ (mark ++ after)).drop (before.length + mark.length) = after := by
    rw [← List.append_assoc, ← List.length_append, List.drop_left]
  rw [Substring.cut, tag.find clear, Option.map_some, List.take_left, skipped]

end TrajProxy.Substring

namespace TrajProxy.Text

/-- `s[:bound]` -/
def upTo (s : String) (bound : Int) : String := String.ofList (Slice.upTo s.toList (some bound))

/-- `s[bound:]` -/
def startingAt (s : String) (bound : Int) : String :=
  String.ofList (Slice.startingAt s.toList (some bound))

/-- `s[first:last]` -/
def between (s : String) (first last : Int) : String :=
  String.ofList (Slice.between s.toList first last)

/-- `s.find(mark)` -/
def find (s mark : String) : Int :=
  match Substring.find mark.toList s.toList with
  | none => -1
  | some index => index

/-- `mark in s` -/
def contains (s mark : String) : Bool := (Substring.find mark.toList s.toList).isSome

/-- `s.partition(mark)` -/
def partition (s mark : String) : String × String × String :=
  match Substring.cut mark.toList s.toList with
  | none => (s, "", "")
  | some (before, after) => (String.ofList before, mark, String.ofList after)

variable {s mark : String} {before middle after : List Char}

@[simp] theorem toList_upTo (s : String) (bound : Int) :
    (upTo s bound).toList = Slice.upTo s.toList (some bound) := String.toList_ofList

@[simp] theorem toList_startingAt (s : String) (bound : Int) :
    (startingAt s bound).toList = Slice.startingAt s.toList (some bound) := String.toList_ofList

@[simp] theorem toList_between (s : String) (first last : Int) :
    (between s first last).toList = Slice.between s.toList first last := String.toList_ofList

section Clear

variable (clear : ¬mark.toList <:+: s.toList)
include clear

theorem find_of_clear : find s mark = -1 := by
  rw [find, Substring.find_eq_none_iff.mpr clear]

theorem contains_of_clear : contains s mark = false := by
  rw [contains, Substring.find_eq_none_iff.mpr clear]
  rfl

theorem partition_of_clear : partition s mark = (s, "", "") := by
  rw [partition, Substring.cut_eq_none_iff.mpr clear]

end Clear

/-- What follows a mark is shorter than the text. -/
theorem length_partition_lt (found : contains s mark = true) (nonempty : mark ≠ "") :
    (partition s mark).2.2.length < s.length := by
  obtain ⟨index, place⟩ := Option.isSome_iff_exists.mp found
  have occurs : mark.toList <:+: s.toList := by
    by_contra clear
    rw [Substring.find_eq_none_iff.mpr clear] at place
    nomatch place
  have shorter := occurs.length_le
  have positive : 0 < mark.length :=
    Nat.pos_of_ne_zero fun zero => nonempty (String.length_eq_zero_iff.mp zero)
  rw [partition, Substring.cut, place, Option.map_some]
  dsimp only
  rw [String.length_ofList, List.length_drop]
  simp only [String.length_toList] at shorter ⊢
  omega

section Tagged

variable (tag : Substring.Tag mark.toList) (clear : ¬mark.toList <:+: before)
  (text : s.toList = before ++ (mark.toList ++ after))
include tag clear text

theorem find_of_tag : find s mark = before.length := by
  rw [find, text, tag.find clear]

theorem contains_of_tag : contains s mark = true := by
  rw [contains, text, tag.find clear]
  rfl

theorem partition_of_tag :
    partition s mark = (String.ofList before, mark, String.ofList after) := by
  rw [partition, text, tag.cut clear]

end Tagged

end TrajProxy.Text
