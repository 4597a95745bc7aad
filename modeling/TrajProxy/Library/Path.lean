import TrajProxy.Library.Text

/-! Paths as lists of parts: joining a relative path, and the resolution of
`.` and `..` by text alone. -/

namespace TrajProxy.Path
open Text

/-- Where `..` leads. Nothing is above the root, and above a relative path are
only further `..`. -/
def parent (path : List String) : List String :=
  match path.getLast? with
  | none => [".."]
  | some part =>
    if part = "/" then path else if part = ".." then path ++ [".."] else path.dropLast

def resolve (path : List String) (part : String) : List String :=
  if part = "" ∨ part = "." then path
  else if part = ".." then parent path
  else path ++ [part]

/-- `os.path.normpath` -/
def normalise (parts : List String) : List String := parts.foldl resolve []

/-- Resolution keeps the part as it is. -/
def Plain (part : String) : Prop := part ≠ "" ∧ part ≠ "." ∧ part ≠ ".."

theorem resolve_plain (path : List String) {part : String} (plain : Plain part) :
    resolve path part = path ++ [part] := by
  obtain ⟨nonempty, notDot, notDots⟩ := plain
  unfold resolve
  rw [if_neg (not_or.mpr ⟨nonempty, notDot⟩), if_neg notDots]

theorem foldl_resolve_plain {rest : List String} (plain : ∀ part ∈ rest, Plain part)
    (path : List String) : rest.foldl resolve path = path ++ rest := by
  induction rest generalizing path with
  | nil => exact (List.append_nil path).symm
  | cons part rest ih =>
    rw [List.forall_mem_cons] at plain
    rw [List.foldl_cons, resolve_plain path plain.1, ih plain.2, List.append_assoc]
    rfl

/-- Plain parts stay below what is before them. -/
theorem normalise_append (parts : List String) {rest : List String}
    (plain : ∀ part ∈ rest, Plain part) : normalise (parts ++ rest) = normalise parts ++ rest := by
  unfold normalise
  rw [List.foldl_append, foldl_resolve_plain plain]

/-- The parts `joinPath` keeps. -/
def kept (s : String) : List String :=
  (splitSlash s).filter fun part => part ≠ "" ∧ part ≠ "."

theorem splitSlash_append (s t : String) :
    splitSlash (s ++ "/" ++ t) = splitSlash s ++ splitSlash t := by
  have chars : (s ++ "/" ++ t).toList = s.toList ++ '/' :: t.toList := by simp
  unfold splitSlash
  rw [chars, List.splitOn_eq_splitOnP, List.splitOnP_append_cons _ _ (by simp), List.map_append,
    ← List.splitOn_eq_splitOnP, ← List.splitOn_eq_splitOnP]

theorem kept_append (s t : String) : kept (s ++ "/" ++ t) = kept s ++ kept t := by
  unfold kept
  rw [splitSlash_append, List.filter_append]

theorem kept_of_notMem {s : String} (h : '/' ∉ s.toList) :
    kept s = if s = "" ∨ s = "." then [] else [s] := by
  have joined : joinPath [] s = _ := joinPath_of_notMem h
  have relative : s.toList.head? ≠ some '/' := fun head => h (List.mem_of_mem_head? head)
  rw [joinPath, if_neg relative] at joined
  exact joined

theorem plain_of_mem_kept {s part : String} (mem : part ∈ kept s) (notDots : part ≠ "..") :
    Plain part := by
  have kept := of_decide_eq_true (List.mem_filter.mp mem).2
  exact ⟨kept.1, kept.2, notDots⟩

/-- A path that stays below whatever it is joined to. -/
structure Relative (s : String) : Prop where
  nonempty : s ≠ ""
  relative : s.toList.head? ≠ some '/'

theorem joinPath_relative {s : String} (h : Relative s) (root : List String) :
    joinPath root s = root ++ kept s := if_neg h.relative

theorem joinPath_append {s : String} (h : Relative s) (root : List String) (t : String) :
    joinPath root (s ++ "/" ++ t) = joinPath root s ++ kept t := by
  have relative : (s ++ "/" ++ t).toList.head? ≠ some '/' := by
    have chars : s.toList ≠ [] := fun empty => h.nonempty (String.toList_eq_nil_iff.mp empty)
    simpa [List.head?_append_of_ne_nil _ chars] using h.relative
  rw [joinPath_relative h, joinPath, if_neg relative, List.append_assoc, ← kept_append]
  rfl

end TrajProxy.Path
