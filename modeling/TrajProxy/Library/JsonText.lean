import TrajProxy.Library.Json

/-! `json.dumps` with its defaults: what is not printable ASCII is escaped, so the
text of any value is printable. A text is the list of its characters. -/

namespace TrajProxy.JsonText

/-- The characters from the blank to `~`. -/
def Printable (c : Char) : Prop := 32 ≤ c.toNat ∧ c.toNat ≤ 126

instance : DecidablePred Printable := fun _ => inferInstanceAs (Decidable (_ ∧ _))

/-- The texts of floats: their `repr`, and names for those that are not finite. -/
structure FloatText where
  text : UInt64 → List Char
  printable : ∀ bits, ∀ c ∈ text bits, Printable c

def hexDigit (n : Nat) : Char := "0123456789abcdef".toList.getD (n % 16) '0'

/-- `'\\u{0:04x}'` -/
def unicodeEscape (n : Nat) : List Char :=
  ['\\', 'u', hexDigit (n / 4096), hexDigit (n / 256), hexDigit (n / 16), hexDigit n]

/-- Characters beyond the first plane are two escapes, a surrogate pair. -/
def escapeChar (c : Char) : List Char :=
  match c with
  | '\\' => ['\\', '\\']
  | '"' => ['\\', '"']
  | '\n' => ['\\', 'n']
  | '\r' => ['\\', 'r']
  | '\t' => ['\\', 't']
  | '\x08' => ['\\', 'b']
  | '\x0c' => ['\\', 'f']
  | c =>
    if Printable c then [c]
    else if c.toNat < 0x10000 then unicodeEscape c.toNat
    else
      let n := c.toNat - 0x10000
      unicodeEscape (0xd800 + n / 1024) ++ unicodeEscape (0xdc00 + n % 1024)

def quote (s : String) : List Char := '"' :: (s.toList.flatMap escapeChar ++ ['"'])

def intText : Int → List Char
  | .ofNat n => Nat.toDigits 10 n
  | .negSucc n => '-' :: Nat.toDigits 10 (n + 1)

def commaSeparated : List (List Char) → List Char
  | [] => []
  | [part] => part
  | part :: rest => part ++ [',', ' '] ++ commaSeparated rest

variable (floats : FloatText)

mutual

/-- `json.dumps` -/
def dumps : Json → List Char
  | .null => "null".toList
  | .bool true => "true".toList
  | .bool false => "false".toList
  | .int n => intText n
  | .float bits => floats.text bits
  | .str s => quote s
  | .arr items => '[' :: (commaSeparated (dumpsItems items) ++ [']'])
  | .obj items => '{' :: (commaSeparated (dumpsEntries items) ++ ['}'])

def dumpsItems : List Json → List (List Char)
  | [] => []
  | value :: rest => dumps value :: dumpsItems rest

def dumpsEntries : List (String × Json) → List (List Char)
  | [] => []
  | (key, value) :: rest => (quote key ++ [':', ' '] ++ dumps value) :: dumpsEntries rest

end

section Printable

variable {floats}

def AllPrintable (text : List Char) : Prop := ∀ c ∈ text, Printable c

theorem allPrintable_append {text text' : List Char} (h : AllPrintable text)
    (h' : AllPrintable text') : AllPrintable (text ++ text') := by
  intro c mem
  rcases List.mem_append.mp mem with mem | mem
  · exact h c mem
  · exact h' c mem

theorem allPrintable_cons {c : Char} {text : List Char} (h : Printable c)
    (h' : AllPrintable text) : AllPrintable (c :: text) :=
  List.forall_mem_cons.mpr ⟨h, h'⟩

theorem allPrintable_nil : AllPrintable [] := fun _ mem => absurd mem List.not_mem_nil

theorem allPrintable_of_all {text : List Char}
    (h : text.all (fun c => decide (Printable c)) = true) : AllPrintable text :=
  fun c mem => of_decide_eq_true (List.all_eq_true.mp h c mem)

theorem enclosed_printable {first last : Char} {text : List Char} (h : Printable first)
    (h' : Printable last) (inner : AllPrintable text) :
    AllPrintable (first :: (text ++ [last])) :=
  allPrintable_cons h (allPrintable_append inner (allPrintable_cons h' allPrintable_nil))

theorem hexDigit_printable (n : Nat) : Printable (hexDigit n) := by
  have digits : ∀ m < 16, Printable ("0123456789abcdef".toList.getD m '0') := by decide
  exact digits (n % 16) (Nat.mod_lt n (by decide))

theorem unicodeEscape_printable (n : Nat) : AllPrintable (unicodeEscape n) := by
  refine allPrintable_cons (by decide) (allPrintable_cons (by decide) ?_)
  intro c mem
  simp only [List.mem_cons, List.not_mem_nil, or_false] at mem
  obtain rfl | rfl | rfl | rfl := mem <;> exact hexDigit_printable _

theorem escapeChar_printable (c : Char) : AllPrintable (escapeChar c) := by
  unfold escapeChar
  split
  case h_8 =>
    split_ifs with printable
    · exact allPrintable_cons printable allPrintable_nil
    · exact unicodeEscape_printable _
    · exact allPrintable_append (unicodeEscape_printable _) (unicodeEscape_printable _)
  all_goals exact allPrintable_of_all rfl

theorem quote_printable (s : String) : AllPrintable (quote s) := by
  refine enclosed_printable (by decide) (by decide) ?_
  intro c mem
  obtain ⟨d, -, escaped⟩ := List.mem_flatMap.mp mem
  exact escapeChar_printable d c escaped

theorem digits_printable (n : Nat) : AllPrintable (Nat.toDigits 10 n) := by
  intro c mem
  have digit := Nat.isDigit_of_mem_toDigits (by decide) (by decide) mem
  obtain ⟨lower, upper⟩ := Char.isDigit_iff_toNat.mp digit
  exact ⟨Nat.le_trans (by decide) lower, Nat.le_trans upper (by decide)⟩

theorem intText_printable (n : Int) : AllPrintable (intText n) := by
  cases n with
  | ofNat n => exact digits_printable n
  | negSucc n => exact allPrintable_cons (by decide) (digits_printable (n + 1))

theorem commaSeparated_printable {parts : List (List Char)}
    (h : ∀ part ∈ parts, AllPrintable part) : AllPrintable (commaSeparated parts) := by
  induction parts with
  | nil => exact allPrintable_nil
  | cons part rest ih =>
    have first := h part List.mem_cons_self
    have others := ih fun part mem => h part (List.mem_cons_of_mem _ mem)
    cases rest with
    | nil => exact first
    | cons next rest =>
      exact allPrintable_append (allPrintable_append first (allPrintable_of_all rfl)) others

mutual

theorem dumps_printable : (value : Json) → AllPrintable (dumps floats value)
  | .null => allPrintable_of_all rfl
  | .bool true => allPrintable_of_all rfl
  | .bool false => allPrintable_of_all rfl
  | .int n => intText_printable n
  | .float bits => floats.printable bits
  | .str s => quote_printable s
  | .arr items => enclosed_printable (by decide) (by decide)
      (commaSeparated_printable (dumpsItems_printable items))
  | .obj items => enclosed_printable (by decide) (by decide)
      (commaSeparated_printable (dumpsEntries_printable items))

theorem dumpsItems_printable : (items : List Json) →
    ∀ part ∈ dumpsItems floats items, AllPrintable part
  | [] => fun _ mem => absurd mem List.not_mem_nil
  | value :: rest => List.forall_mem_cons.mpr ⟨dumps_printable value, dumpsItems_printable rest⟩

theorem dumpsEntries_printable : (items : List (String × Json)) →
    ∀ part ∈ dumpsEntries floats items, AllPrintable part
  | [] => fun _ mem => absurd mem List.not_mem_nil
  | (key, value) :: rest => List.forall_mem_cons.mpr
      ⟨allPrintable_append (allPrintable_append (quote_printable key) (allPrintable_of_all rfl))
        (dumps_printable value), dumpsEntries_printable rest⟩

end

example : dumps floats (.arr [.int (-1), .str "\x00é"]) = "[-1, \"\\u0000\\u00e9\"]".toList := rfl

end Printable

end TrajProxy.JsonText
