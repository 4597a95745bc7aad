import Mathlib.Data.List.Basic

/-! Python string operations on `String`, computed on the list of code points. -/

namespace TrajProxy.Text

/-- `s.replace(a, b)` for patterns of one character. -/
def replaceChar (s : String) (a b : Char) : String :=
  String.ofList (s.toList.map fun c => if c = a then b else c)

@[simp] theorem toList_replaceChar (s : String) (a b : Char) :
    (replaceChar s a b).toList = s.toList.map fun c => if c = a then b else c := by
  simp [replaceChar]

theorem replaceChar_eq_self {s : String} {a : Char} (b : Char) (h : a ∉ s.toList) :
    replaceChar s a b = s := by
  apply String.toList_injective
  rw [toList_replaceChar]
  conv_rhs => rw [← List.map_id s.toList]
  apply List.map_congr_left
  intro c mem
  have other : c ≠ a := by
    rintro rfl
    exact h mem
  exact if_neg other

/-- What follows the last slash. -/
theorem append_slash_inj {root root' last last' : List Char} (h : '/' ∉ last) (h' : '/' ∉ last')
    (same : root ++ '/' :: last = root' ++ '/' :: last') : last = last' := by
  have after : ∀ {root last : List Char}, '/' ∉ last →
      (root ++ '/' :: last).reverse.takeWhile (· ≠ '/') = last.reverse := by
    intro root last none
    rw [List.reverse_append, List.reverse_cons, List.append_assoc,
      List.takeWhile_append_of_pos]
    · simp
    · intro c mem
      have other : c ≠ '/' := by
        rintro rfl
        exact none (List.mem_reverse.mp mem)
      simpa using other
  have rev : last.reverse = last'.reverse := by rw [← after h, same, after h']
  exact List.reverse_injective rev

/-- `s.split("/")` -/
def splitSlash (s : String) : List String :=
  (s.toList.splitOn '/').map String.ofList

theorem splitSlash_of_notMem {s : String} (h : '/' ∉ s.toList) : splitSlash s = [s] := by
  rw [splitSlash, List.splitOn_eq_singleton h]
  simp

/-- `root / segment` of `pathlib.PurePosixPath`, on the tuple of parts:
empty and `.` components are dropped, `..` is kept, and an absolute segment
replaces the root. -/
def joinPath (root : List String) (segment : String) : List String :=
  let kept := (splitSlash segment).filter fun part => part ≠ "" ∧ part ≠ "."
  if segment.toList.head? = some '/' then "/" :: kept else root ++ kept

theorem joinPath_of_notMem {root : List String} {segment : String}
    (h : '/' ∉ segment.toList) :
    joinPath root segment =
      root ++ if segment = "" ∨ segment = "." then [] else [segment] := by
  have relative : segment.toList.head? ≠ some '/' := fun head =>
    h (List.mem_of_mem_head? head)
  rw [joinPath, if_neg relative, splitSlash_of_notMem h]
  by_cases blank : segment = "" ∨ segment = "."
  · rcases blank with rfl | rfl <;> rfl
  · obtain ⟨nonempty, notDot⟩ := not_or.mp blank
    simp [nonempty, notDot]

/-- `c.isspace()` -/
def isSpace (c : Char) : Bool :=
  let n := c.toNat
  (9 ≤ n && n ≤ 13) || (28 ≤ n && n ≤ 32) || n = 0x85 || n = 0xA0 || n = 0x1680 ||
    (0x2000 ≤ n && n ≤ 0x200A) || n = 0x2028 || n = 0x2029 || n = 0x202F || n = 0x205F ||
    n = 0x3000

/-- `not s.strip()` -/
def isBlank (s : String) : Bool := s.toList.all isSpace

/-- `s.split()` -/
def split (s : String) : List String :=
  ((s.toList.splitOnP isSpace).filter fun word => word ≠ []).map String.ofList

/-- The code points of the zeros of Unicode's decimal digits; each is followed
by its one to nine. -/
def decimalZeros : List Nat :=
  [0x30, 0x660, 0x6F0, 0x7C0, 0x966, 0x9E6, 0xA66, 0xAE6, 0xB66, 0xBE6, 0xC66, 0xCE6, 0xD66,
    0xDE6, 0xE50, 0xED0, 0xF20, 0x1040, 0x1090, 0x17E0, 0x1810, 0x1946, 0x19D0, 0x1A80, 0x1A90,
    0x1B50, 0x1BB0, 0x1C40, 0x1C50, 0xA620, 0xA8D0, 0xA900, 0xA9D0, 0xA9F0, 0xAA50, 0xABF0,
    0xFF10, 0x104A0, 0x10D30, 0x11066, 0x110F0, 0x11136, 0x111D0, 0x112F0, 0x11450, 0x114D0,
    0x11650, 0x116C0, 0x11730, 0x118E0, 0x11950, 0x11C50, 0x11D50, 0x11DA0, 0x11F50, 0x16A60,
    0x16AC0, 0x16B50, 0x1D7CE, 0x1D7D8, 0x1D7E2, 0x1D7EC, 0x1D7F6, 0x1E140, 0x1E2F0, 0x1E4D0,
    0x1E950, 0x1FBF0]

def digit? (c : Char) : Option Nat :=
  (decimalZeros.find? fun first => first ≤ c.toNat ∧ c.toNat < first + 10).map (c.toNat - ·)

/-- Digits with single underscores between them, after a value `acc`. -/
def digits? (acc : Nat) (afterDigit : Bool) : List Char → Option Nat
  | [] => if afterDigit then some acc else none
  | '_' :: cs => if afterDigit then digits? acc false cs else none
  | c :: cs => (digit? c).bind fun d => digits? (acc * 10 + d) true cs

/-- `int(word)` of a word without spaces, `none` for a `ValueError`; more than
4300 digits are one, too. -/
def int? (word : String) : Option Int :=
  if 4300 < word.toList.countP (fun c => (digit? c).isSome) then none
  else match word.toList with
    | '-' :: cs => (digits? 0 false cs).map fun n => -(n : Int)
    | '+' :: cs => (digits? 0 false cs).map Int.ofNat
    | cs => (digits? 0 false cs).map Int.ofNat

/-- `s.startswith(prefix)` -/
def startsWith (s start : String) : Bool := start.toList.isPrefixOf s.toList

/-- `s[n:]` -/
def dropFirst (s : String) (n : Nat) : String := String.ofList (s.toList.drop n)

theorem startsWith_append (start rest : String) : startsWith (start ++ rest) start = true := by
  rw [startsWith, String.toList_append, List.isPrefixOf_iff_prefix]
  exact List.prefix_append _ _

theorem dropFirst_append (start rest : String) :
    dropFirst (start ++ rest) start.length = rest := by
  apply String.toList_injective
  rw [dropFirst, String.toList_ofList, String.toList_append, ← String.length_toList,
    List.drop_left]

theorem length_dropFirst_le (s : String) (n : Nat) : (dropFirst s n).length ≤ s.length := by
  rw [dropFirst, String.length_ofList, ← String.length_toList, List.length_drop]
  exact Nat.sub_le _ _

theorem append_dropFirst {s start : String} (h : startsWith s start = true) :
    start ++ dropFirst s start.length = s := by
  obtain ⟨rest, hrest⟩ := List.isPrefixOf_iff_prefix.mp h
  apply String.toList_injective
  rw [String.toList_append, dropFirst, ← String.length_toList, ← hrest]
  simp

end TrajProxy.Text
