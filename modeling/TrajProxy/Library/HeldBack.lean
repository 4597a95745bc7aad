import TrajProxy.Library.Substring

/-! How much of a growing text is known to come before a mark. The end of the text may
be the beginning of the mark, so a suffix that is a prefix of the mark is held back;
what is released never shrinks and is as much as any reader can be sure of. The
regions between two marks grow with the text, too. -/

namespace TrajProxy.HeldBack
open TrajProxy.Substring (cut find cut_append cut_eq_none_iff cut_nil find_eq_none_iff
  find_eq_some_iff find_append find_add_length_le length_of_cut)

variable {α : Type} [DecidableEq α]

/-- The longest of the first prefixes of a mark that a text ends with. -/
def overlapFrom (mark text : List α) : Nat → Nat
  | 0 => 0
  | k + 1 => if mark.take (k + 1) <:+ text then k + 1 else overlapFrom mark text k

/-- The length of the longest proper prefix of a mark that a text ends with. -/
def overlap (mark text : List α) : Nat := overlapFrom mark text (min (mark.length - 1) text.length)

/-- What is before the mark, or before what may become one. -/
def released (mark text : List α) : List α :=
  match find mark text with
  | some index => text.take index
  | none => text.take (text.length - overlap mark text)

section Overlap

variable {mark text rest : List α} {j k : Nat}

theorem overlapFrom_le (mark text : List α) (k : Nat) : overlapFrom mark text k ≤ k := by
  induction k with
  | zero => exact Nat.le_refl 0
  | succ k ih =>
    rw [overlapFrom]
    split_ifs
    · exact Nat.le_refl _
    · exact Nat.le_succ_of_le ih

theorem overlapFrom_suffix (mark text : List α) (k : Nat) :
    mark.take (overlapFrom mark text k) <:+ text := by
  induction k with
  | zero => exact List.nil_suffix
  | succ k ih =>
    rw [overlapFrom]
    split_ifs with ends
    · exact ends
    · exact ih

theorem le_overlapFrom (ends : mark.take j <:+ text) (le : j ≤ k) :
    j ≤ overlapFrom mark text k := by
  induction k with
  | zero => exact le
  | succ k ih =>
    rw [overlapFrom]
    split_ifs with longer
    · exact le
    · have other : j ≠ k + 1 := by
        rintro rfl
        exact longer ends
      exact ih (by omega)

theorem overlap_le_length (mark text : List α) : overlap mark text ≤ text.length :=
  (overlapFrom_le _ _ _).trans (Nat.min_le_right _ _)

theorem overlap_suffix (mark text : List α) : mark.take (overlap mark text) <:+ text :=
  overlapFrom_suffix mark text _

theorem overlap_lt (nonempty : mark ≠ []) (text : List α) : overlap mark text < mark.length := by
  have positive := List.length_pos_of_ne_nil nonempty
  have le : overlap mark text ≤ mark.length - 1 :=
    (overlapFrom_le _ _ _).trans (Nat.min_le_left _ _)
  omega

theorem le_overlap (ends : mark.take j <:+ text) (lt : j < mark.length) :
    j ≤ overlap mark text := by
  have shorter := ends.length_le
  rw [List.length_take_of_le (Nat.le_of_lt lt)] at shorter
  exact le_overlapFrom ends (Nat.le_min.mpr ⟨by omega, shorter⟩)

/-- A mark that begins in a text without it begins in what is held back. -/
theorem length_sub_le_overlap (clear : find mark text = none)
    (begins : mark <+: text.drop j ++ rest) : text.length - j ≤ overlap mark text := by
  have notWithin : ¬mark <+: text.drop j := fun within =>
    find_eq_none_iff.mp clear (within.isInfix.trans (List.drop_suffix j text).isInfix)
  have longer : (text.drop j).length < mark.length := by
    by_contra short
    exact notWithin (List.prefix_of_prefix_length_le begins (List.prefix_append _ _) (by omega))
  have prefixed : text.drop j <+: mark :=
    List.prefix_of_prefix_length_le (List.prefix_append _ _) begins (Nat.le_of_lt longer)
  have same : mark.take (text.length - j) = text.drop j := by
    rw [← List.length_drop]
    exact (List.prefix_iff_eq_take.mp prefixed).symm
  rw [List.length_drop] at longer
  exact le_overlap (same ▸ List.drop_suffix j text) longer

end Overlap

section Released

variable {mark text rest : List α} {index : Nat}

theorem released_of_find (found : find mark text = some index) :
    released mark text = text.take index := by
  rw [released, found]

theorem released_of_cut {before after : List α} (found : cut mark text = some (before, after)) :
    released mark text = before := by
  obtain ⟨index, place, same⟩ := Option.map_eq_some_iff.mp found
  obtain ⟨rfl, -⟩ := Prod.mk.inj same
  exact released_of_find place

theorem released_of_none (clear : find mark text = none) :
    released mark text = text.take (text.length - overlap mark text) := by
  rw [released, clear]

omit [DecidableEq α] in
/-- A suffix that reaches into the text ends there with what is before the rest. -/
theorem take_suffix_of_append {ending : List α} (ends : ending <:+ text ++ rest)
    (longer : rest.length ≤ ending.length) :
    ending.take (ending.length - rest.length) <:+ text := by
  have whole := List.suffix_iff_eq_drop.mp ends
  have bound := ends.length_le
  rw [List.length_append] at bound
  rw [List.length_append, List.drop_append_of_le_length (by omega)] at whole
  have lengths : ending.length - rest.length =
      (text.drop (text.length + rest.length - ending.length)).length := by
    rw [List.length_drop]
    omega
  rw [lengths]
  nth_rewrite 2 [whole]
  rw [List.take_left]
  exact List.drop_suffix _ _

/-- Of a longer text at least as much is not held back. -/
theorem overlap_append (nonempty : mark ≠ []) (text rest : List α) :
    text.length - overlap mark text ≤ (text ++ rest).length - overlap mark (text ++ rest) := by
  have bound := overlap_le_length mark (text ++ rest)
  have lt := overlap_lt nonempty (text ++ rest)
  have ends := overlap_suffix mark (text ++ rest)
  have taken := List.length_take_of_le (Nat.le_of_lt lt)
  rw [List.length_append] at bound ⊢
  by_cases inside : overlap mark (text ++ rest) ≤ rest.length
  · omega
  · have part := take_suffix_of_append ends (by omega)
    rw [taken, List.take_take, Nat.min_eq_left (Nat.sub_le _ _)] at part
    have covered := le_overlap part (by omega)
    omega

/-- What is released of a text is released of every longer one. -/
theorem released_append (nonempty : mark ≠ []) (text rest : List α) :
    released mark text <+: released mark (text ++ rest) := by
  cases here : find mark text with
  | some index =>
    have bound := find_add_length_le here
    rw [released_of_find here, released_of_find (find_append here rest),
      List.take_append_of_le_length (by omega)]
  | none =>
    have taken : text.take (text.length - overlap mark text) =
        (text ++ rest).take (text.length - overlap mark text) :=
      (List.take_append_of_le_length (Nat.sub_le _ _)).symm
    rw [released_of_none here, taken]
    cases later : find mark (text ++ rest) with
    | some index =>
      rw [released_of_find later]
      refine List.take_prefix_take_left ?_
      by_contra early
      obtain ⟨begins, _⟩ := (find_eq_some_iff nonempty).mp later
      have inside : index ≤ text.length := by omega
      rw [List.drop_append_of_le_length inside] at begins
      have := length_sub_le_overlap here begins
      omega
    | none =>
      rw [released_of_none later]
      exact List.take_prefix_take_left (overlap_append nonempty text rest)

/-- What is held back is the longest end of the text that begins a mark. -/
theorem exists_held (nonempty : mark ≠ []) (clear : find mark text = none) :
    ∃ held, text = released mark text ++ held ∧ held <+: mark ∧ held ≠ mark ∧
      ∀ ending, ending <:+ text → ending <+: mark → ending.length ≤ held.length := by
  have le := overlap_le_length mark text
  have lt := overlap_lt nonempty text
  have ends := List.suffix_iff_eq_drop.mp (overlap_suffix mark text)
  have taken := List.length_take_of_le (Nat.le_of_lt lt)
  rw [taken] at ends
  refine ⟨mark.take (overlap mark text), ?_, List.take_prefix _ _, ?_, ?_⟩
  · rw [released_of_none clear, ends, List.take_append_drop]
  · intro whole
    rw [whole] at taken
    omega
  · intro ending inside begins
    have notWhole : ending ≠ mark := by
      rintro rfl
      exact find_eq_none_iff.mp clear inside.isInfix
    have shorter : ending.length < mark.length := by
      refine Nat.lt_of_le_of_ne begins.length_le fun same => notWhole ?_
      exact begins.eq_of_length same
    rw [taken]
    rw [List.prefix_iff_eq_take.mp begins] at inside
    exact le_overlap inside shorter

end Released

/-- The bodies that follow the opening marks of a text, each with whether its closing
mark is there. -/
def regionsWithin (opening closing : List α) : Nat → List α → List (List α × Bool)
  | 0, _ => []
  | fuel + 1, text =>
    match cut opening text with
    | none => []
    | some (_, body) =>
      match cut closing body with
      | some (inner, after) => (inner, true) :: regionsWithin opening closing fuel after
      | none => [(released closing body, false)]

def regions (opening closing text : List α) : List (List α × Bool) :=
  regionsWithin opening closing text.length text

omit [DecidableEq α] in
/-- A body grows until it is closed. -/
structure Grows (older newer : List α × Bool) : Prop where
  body : older.1 <+: newer.1
  closed : older.2 = true → newer = older

/-- Every element of a list has one of a longer list in its place. -/
inductive Grown {β : Type} (R : β → β → Prop) : List β → List β → Prop
  | nil {newer : List β} : Grown R [] newer
  | cons {a b : β} {older newer : List β} (head : R a b) (tail : Grown R older newer) :
      Grown R (a :: older) (b :: newer)

section Regions

variable {opening closing text : List α} {fuel : Nat}

theorem regionsWithin_eq (nonempty : opening ≠ []) (enough : text.length ≤ fuel) :
    regionsWithin opening closing fuel text = regions opening closing text := by
  have same : ∀ (fuel fuel' : Nat) (text : List α), text.length ≤ fuel → text.length ≤ fuel' →
      regionsWithin opening closing fuel text = regionsWithin opening closing fuel' text := by
    intro fuel
    induction fuel with
    | zero =>
      intro fuel' text none _
      obtain rfl := List.length_eq_zero_iff.mp (Nat.le_zero.mp none)
      cases fuel' with
      | zero => rfl
      | succ fuel' => rw [regionsWithin, regionsWithin, cut_nil nonempty]
    | succ fuel ih =>
      intro fuel' text enough enough'
      cases fuel' with
      | zero =>
        obtain rfl := List.length_eq_zero_iff.mp (Nat.le_zero.mp enough')
        rw [regionsWithin, regionsWithin, cut_nil nonempty]
      | succ fuel' =>
        rw [regionsWithin, regionsWithin]
        cases opened : cut opening text with
        | none => rfl
        | some parts =>
          have shorter := length_of_cut opened
          have positive := List.length_pos_of_ne_nil nonempty
          dsimp only
          cases ended : cut closing parts.2 with
          | none => rfl
          | some rest =>
            have still := length_of_cut ended
            dsimp only
            rw [ih fuel' rest.2 (by omega) (by omega)]
  exact same fuel text.length text enough (Nat.le_refl _)

theorem regions_of_cut (nonempty : opening ≠ []) {before body : List α}
    (opened : cut opening text = some (before, body)) :
    regions opening closing text =
      match cut closing body with
      | some (inner, after) => (inner, true) :: regions opening closing after
      | none => [(released closing body, false)] := by
  have shorter := length_of_cut opened
  have positive := List.length_pos_of_ne_nil nonempty
  have enough : text.length = (text.length - 1) + 1 := by omega
  rw [regions, enough, regionsWithin, opened]
  dsimp only
  cases ended : cut closing body with
  | none => rfl
  | some rest =>
    have still := length_of_cut ended
    dsimp only
    rw [regionsWithin_eq nonempty (by omega)]

theorem regions_of_none (nonempty : opening ≠ []) (clear : cut opening text = none) :
    regions opening closing text = [] := by
  rw [← regionsWithin_eq nonempty (Nat.le_succ text.length), regionsWithin, clear]

omit [DecidableEq α] in
theorem Grows.refl (r : List α × Bool) : Grows r r := ⟨List.prefix_rfl, fun _ => rfl⟩

/-- The regions of a growing text grow. -/
theorem regions_append (nonempty : opening ≠ []) (nonempty' : closing ≠ []) (text rest : List α) :
    Grown Grows (regions opening closing text) (regions opening closing (text ++ rest)) := by
  induction size : text.length using Nat.strong_induction_on generalizing text with
  | _ size ih =>
    cases opened : cut opening text with
    | none =>
      rw [regions_of_none nonempty opened]
      exact .nil
    | some parts =>
      obtain ⟨before, body⟩ := parts
      rw [regions_of_cut nonempty opened, regions_of_cut nonempty (cut_append opened rest)]
      cases ended : cut closing body with
      | some parts =>
        obtain ⟨inner, after⟩ := parts
        have shorter := length_of_cut opened
        have still := length_of_cut ended
        have positive := List.length_pos_of_ne_nil nonempty
        rw [cut_append ended rest]
        exact .cons (.refl _) (ih after.length (by omega) after rfl)
      | none =>
        have grows := released_append nonempty' body rest
        cases later : cut closing (body ++ rest) with
        | none => exact .cons ⟨grows, fun closed => nomatch closed⟩ .nil
        | some parts =>
          rw [released_of_cut later] at grows
          exact .cons ⟨grows, fun closed => nomatch closed⟩ .nil

end Regions

end TrajProxy.HeldBack
