import TrajProxy.Library.HeldBack
import TrajProxy.Library.JsonRead
import TrajProxy.Library.Matching
import TrajProxy.Library.Text

/-! What the tool parsers use of `tool_parsers/utils.py`, of `json` and of `regex`. A
text is the list of its characters. -/

namespace TrajProxy.Parsers
open JsonText (LoadsRaised)
open Text (isSpace)

/-- `json.loads`, `json.dumps(…, ensure_ascii=False)` and `partial_json_loads`. -/
structure JsonModule where
  loads : List Char → Except LoadsRaised Json
  dumps : Json → List Char
  partialLoads : List Char → Except LoadsRaised Json

/-- The module itself. -/
def JsonModule.standard (floats : JsonText.FloatCodec)
    (partialLoads : List Char → Except LoadsRaised Json) : JsonModule where
  loads := JsonText.loads floats
  dumps := JsonText.dumpsBy floats .control
  partialLoads := partialLoads

/-- `is_complete_json` -/
def isCompleteJson (json : JsonModule) (inputStr : List Char) : Except String Bool :=
  match json.loads inputStr with
  | .ok _ => .ok true
  | .error .decodeError => .ok false
  | .error (.other message) => .error message

/-- `partial_tag_overlap` -/
def partialTagOverlap (text tag : List Char) : Nat := HeldBack.overlap tag text

/-- `text.rstrip()` -/
def rstripped (text : List Char) : List Char := text.rdropWhile isSpace

/-- `text.strip()` -/
def stripped (text : List Char) : List Char := rstripped (text.dropWhile isSpace)

/-- `\s` of `regex`: the white space of Unicode, which the separators `\x1c` to `\x1f`
are not. -/
def regexSpace (c : Char) : Bool := isSpace c && !(28 ≤ c.toNat && c.toNat ≤ 31)

theorem rstripped_begins (text : List Char) : rstripped text <+: text :=
  List.rdropWhile_prefix isSpace text

theorem rstripped_rstripped (text : List Char) : rstripped (rstripped text) = rstripped text :=
  List.rdropWhile_idempotent isSpace text

theorem rstripped_concat {c : Char} (other : isSpace c = false) (text : List Char) :
    rstripped (text ++ [c]) = text ++ [c] :=
  List.rdropWhile_concat_neg isSpace text c (by rw [other]; exact nofun)

theorem rstripped_of_suffix {text ending : List Char} (whole : rstripped text = text)
    (ends : ending <:+ text) : rstripped ending = ending := by
  refine List.rdropWhile_eq_self_iff.mpr fun nonempty => ?_
  have nonempty' : text ≠ [] := by
    rintro rfl
    exact nonempty (List.suffix_nil.mp ends)
  rw [ends.getLast nonempty]
  exact List.rdropWhile_eq_self_iff.mp whole nonempty'

theorem stripped_grows {text longer : List Char} (grows : text <+: longer) :
    stripped text <+: stripped longer :=
  Matching.rdropWhile_grows (Matching.dropWhile_grows grows)

end TrajProxy.Parsers
