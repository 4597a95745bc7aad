import TrajProxy.Library.Substring

/-! The occurrences of a mark in a text from left to right, each after the end of the one
before: what follows each of them. When the text goes on, so do these texts, and new
ones come at the end. -/

namespace TrajProxy.Substring

variable {α : Type} [DecidableEq α]

def behindFrom (mark : List α) : Nat → List α → List (List α)
  | 0, _ => []
  | fuel + 1, text =>
    match cut mark text with
    | none => []
    | some (_, after) => after :: behindFrom mark fuel after

/-- What follows each occurrence of a mark that is not empty. -/
def behind (mark text : List α) : List (List α) := behindFrom mark text.length text

/-- A text up to the end of the first occurrence. -/
def through (mark text : List α) : List α :=
  match find mark text with
  | none => text
  | some stop => text.take (stop + mark.length)

variable {mark other text longer before after : List α}

theorem append_of_cut (nonempty : mark ≠ []) (found : cut mark text = some (before, after)) :
    text = before ++ (mark ++ after) := by
  obtain ⟨index, place, same⟩ := Option.map_eq_some_iff.mp found
  obtain ⟨rfl, rfl⟩ := Prod.mk.inj same
  obtain ⟨rest, begins⟩ := ((find_eq_some_iff nonempty).mp place).1
  have behindMark : text.drop (index + mark.length) = rest := by
    rw [← List.drop_drop, ← begins, List.drop_left]
  rw [behindMark, begins, List.take_append_drop]

theorem find_of_cut (found : cut mark text = some (before, after)) :
    find mark text = some before.length := by
  obtain ⟨index, place, same⟩ := Option.map_eq_some_iff.mp found
  obtain ⟨rfl, rfl⟩ := Prod.mk.inj same
  have fits := find_add_length_le place
  rw [place, List.length_take_of_le (by omega)]

section Behind

variable (nonempty : mark ≠ [])
include nonempty

theorem behindFrom_eq {fuel : Nat} (enough : text.length ≤ fuel) :
    behindFrom mark fuel text = behind mark text := by
  induction fuel using Nat.strong_induction_on generalizing text with
  | _ fuel ih =>
    cases fuel with
    | zero =>
      rw [behind, Nat.le_zero.mp enough]
    | succ fuel =>
      rw [behind]
      cases found : cut mark text with
      | none =>
        rw [behindFrom, found]
        cases text.length with
        | zero => rfl
        | succ n => rw [behindFrom, found]
      | some parts =>
        have shorter := length_of_cut found
        have positive := List.length_pos_iff.mpr nonempty
        obtain ⟨n, size⟩ : ∃ n, text.length = n + 1 := ⟨text.length - 1, by omega⟩
        have first : behindFrom mark fuel parts.2 = behind mark parts.2 :=
          ih fuel (Nat.lt_succ_self fuel) (by omega)
        have second : behindFrom mark n parts.2 = behind mark parts.2 := ih n (by omega) (by omega)
        rw [size, behindFrom, behindFrom, found]
        dsimp only
        rw [first, second]

theorem behind_of_cut (found : cut mark text = some (before, after)) :
    behind mark text = after :: behind mark after := by
  have shorter := length_of_cut found
  have positive := List.length_pos_iff.mpr nonempty
  obtain ⟨n, size⟩ : ∃ n, text.length = n + 1 := ⟨text.length - 1, by omega⟩
  rw [behind, size, behindFrom, found]
  dsimp only
  rw [behindFrom_eq nonempty (by omega)]

omit nonempty in
theorem behind_of_none (clear : cut mark text = none) : behind mark text = [] := by
  rw [behind]
  cases text.length with
  | zero => rfl
  | succ n => rw [behindFrom, clear]

/-- What follows an occurrence goes on with the text. -/
theorem behind_append (rest : List α) {index : Nat} {found : List α}
    (there : (behind mark text)[index]? = some found) :
    ∃ more, (behind mark (text ++ rest))[index]? = some (found ++ more) := by
  induction size : text.length using Nat.strong_induction_on generalizing text index with
  | _ n ih =>
    subst size
    cases split : cut mark text with
    | none =>
      rw [behind_of_none split] at there
      cases there
    | some parts =>
      obtain ⟨before, after⟩ := parts
      rw [behind_of_cut nonempty split] at there
      rw [behind_of_cut nonempty (cut_append split rest)]
      cases index with
      | zero =>
        obtain rfl := Option.some_inj.mp there
        exact ⟨rest, rfl⟩
      | succ index =>
        have shorter := length_of_cut split
        have positive := List.length_pos_iff.mpr nonempty
        exact ih after.length (by omega) there rfl

theorem behind_prefix (grows : text <+: longer) {index : Nat} {found : List α}
    (there : (behind mark text)[index]? = some found) :
    ∃ whole, (behind mark longer)[index]? = some whole ∧ found <+: whole := by
  obtain ⟨rest, rfl⟩ := grows
  obtain ⟨more, whole⟩ := behind_append nonempty rest there
  exact ⟨_, whole, List.prefix_append found more⟩

end Behind

theorem through_of_cut (found : cut mark text = some (before, after)) (nonempty : mark ≠ []) :
    through mark text = before ++ mark := by
  rw [through, find_of_cut found]
  dsimp only
  rw [append_of_cut nonempty found, ← List.append_assoc, ← List.length_append, List.take_left]

/-- Up to the end of the first occurrence a text only grows. -/
theorem through_prefix (nonempty : mark ≠ []) (grows : text <+: longer) :
    through mark text <+: through mark longer := by
  obtain ⟨rest, rfl⟩ := grows
  cases found : cut mark text with
  | some parts =>
    obtain ⟨before, after⟩ := parts
    rw [through_of_cut found nonempty, through_of_cut (cut_append found rest) nonempty]
  | none =>
    have clear := cut_eq_none_iff.mp found
    have here : through mark text = text := by
      rw [through, find_eq_none_iff.mpr clear]
    rw [here]
    cases later : cut mark (text ++ rest) with
    | none =>
      have all : through mark (text ++ rest) = text ++ rest := by
        rw [through, find_eq_none_iff.mpr (cut_eq_none_iff.mp later)]
      rw [all]
      exact List.prefix_append text rest
    | some parts =>
      obtain ⟨before, after⟩ := parts
      rw [through_of_cut later nonempty]
      have whole := append_of_cut nonempty later
      have both : before ++ mark <+: text ++ rest :=
        ⟨after, by rw [whole, List.append_assoc]⟩
      obtain inside | longer :=
        List.prefix_or_prefix_of_prefix both (List.prefix_append text rest)
      · exact absurd ((List.infix_append' before mark []).trans
          (by rw [List.append_nil]; exact inside.isInfix)) clear
      · exact longer

/-- Whatever follows, a mark is looked for behind this text. -/
def Skips (mark clear : List α) : Prop :=
  ∀ after, find mark (clear ++ after) = (find mark after).map (· + clear.length)

namespace Skips

variable {clear clear' : List α}

theorem nil (mark : List α) : Skips mark [] := fun after => by simp

theorem append (first : Skips mark clear) (second : Skips mark clear') :
    Skips mark (clear ++ clear') := by
  intro after
  rw [List.append_assoc, first, second, Option.map_map]
  refine congrArg (fun f => Option.map f _) (funext fun index => ?_)
  simp only [Function.comp_apply, List.length_append]
  omega

theorem cut (skips : Skips mark clear) (after : List α) :
    Substring.cut mark (clear ++ after) =
      (Substring.cut mark after).map fun parts => (clear ++ parts.1, parts.2) := by
  rw [Substring.cut, Substring.cut, skips, Option.map_map, Option.map_map]
  refine congrArg (fun f => Option.map f _) (funext fun index => ?_)
  have place : index + clear.length + mark.length = clear.length + (index + mark.length) := by
    omega
  simp only [Function.comp_apply]
  rw [place, Nat.add_comm index, List.take_length_add_append, List.drop_length_add_append]

theorem behind (skips : Skips mark clear) (nonempty : mark ≠ []) (after : List α) :
    Substring.behind mark (clear ++ after) = Substring.behind mark after := by
  have split := skips.cut after
  cases found : Substring.cut mark after with
  | none =>
    rw [found] at split
    rw [behind_of_none found, behind_of_none split]
  | some parts =>
    rw [found] at split
    rw [behind_of_cut nonempty found, behind_of_cut nonempty split]

/-- The first tag is behind what is skipped. -/
theorem cut_tag (skips : Skips mark clear) (tag : Tag mark) (fresh : ¬mark <:+: before) :
    Substring.cut mark (clear ++ (before ++ (mark ++ after))) = some (clear ++ before, after) := by
  rw [skips.cut, tag.cut fresh]
  rfl

end Skips

section Tags

variable {opening : α} {rest clear : List α}

/-- Nothing starts where the first element of a mark is not. -/
theorem skips_of_fresh (fresh : opening ∉ clear) : Skips (opening :: rest) clear := by
  intro text
  induction clear with
  | nil => simp
  | cons x clear ih =>
    have other : opening ≠ x := fun same => fresh (same ▸ List.mem_cons_self)
    have notHere : ¬opening :: rest <+: x :: (clear ++ text) := fun begins =>
      other (List.cons_prefix_cons.mp begins).1
    rw [List.cons_append, find, if_neg notHere, ih fun mem => fresh (List.mem_cons_of_mem x mem),
      Option.map_map]
    rfl

/-- An occurrence does not reach from a text without one into the next opening. -/
theorem find_clear (fresh : opening ∉ rest) (clear : ¬opening :: rest <:+: before)
    (text : List α) :
    find (opening :: rest) (before ++ opening :: text) =
      (find (opening :: rest) (opening :: text)).map (· + before.length) := by
  induction before with
  | nil => simp
  | cons x before ih =>
    have later : ¬opening :: rest <:+: before := fun occurs => clear (List.infix_cons occurs)
    have notHere := not_prefix_of_clear fresh clear text
    rw [List.cons_append, find, if_neg notHere, ih later, Option.map_map]
    rfl

/-- Two tags that open alike, neither of which begins the other. -/
structure Unlike (mark other : List α) : Prop where
  tags : ∃ opening rest rest', mark = opening :: rest ∧ other = opening :: rest' ∧
    opening ∉ rest ∧ opening ∉ rest'
  notBegins : ¬mark <+: other
  notBegun : ¬other <+: mark

/-- A mark is looked for behind a text without it and another mark. -/
theorem Unlike.skips (unlike : Unlike mark other) (clear : ¬mark <:+: before) :
    Skips mark (before ++ other) := by
  intro after
  obtain ⟨⟨opening, rest, rest', rfl, rfl, fresh, fresh'⟩, notBegins, notBegun⟩ := unlike
  have notHere : ¬opening :: rest <+: opening :: (rest' ++ after) := by
    intro begins
    obtain inside | beyond :=
      List.prefix_or_prefix_of_prefix begins (List.prefix_append (opening :: rest') after)
    · exact notBegins inside
    · exact notBegun beyond
  rw [List.append_assoc, List.cons_append, find_clear fresh clear, find, if_neg notHere,
    skips_of_fresh fresh', Option.map_map, Option.map_map]
  refine congrArg (fun f => Option.map f _) (funext fun index => ?_)
  simp only [Function.comp_apply, List.length_append, List.length_cons]
  omega

end Tags

end TrajProxy.Substring
