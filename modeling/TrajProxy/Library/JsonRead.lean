import TrajProxy.Library.Effect
import TrajProxy.Library.JsonText

/-! `json.loads`, and that it reads back what `json.dumps` writes, whichever characters
that escapes. A reader takes what it reads off a text and leaves the rest. -/

namespace TrajProxy.JsonText

/-- What `json.loads` raises: `JSONDecodeError`, or something that is none. -/
inductive LoadsRaised
  | decodeError
  | other (message : String)
  deriving DecidableEq

/-- `float`, and the texts of floats. -/
structure FloatCodec extends FloatText where
  read : List Char → UInt64

abbrev Reader (α : Type) := List Char → Except LoadsRaised (α × List Char)

/-- The white space of JSON. -/
def isBlank (c : Char) : Bool := c = ' ' || c = '\t' || c = '\n' || c = '\r'

def skipBlank (text : List Char) : List Char := text.dropWhile isBlank

def hexValue (c : Char) : Except LoadsRaised Nat :=
  if '0' ≤ c ∧ c ≤ '9' then .ok (c.toNat - 48)
  else if 'a' ≤ c ∧ c ≤ 'f' then .ok (c.toNat - 87)
  else if 'A' ≤ c ∧ c ≤ 'F' then .ok (c.toNat - 55)
  else .error .decodeError

/-- The digits of `\uXXXX` -/
def readHex : Reader Nat
  | a :: b :: c :: d :: rest => do
    let a ← hexValue a
    let b ← hexValue b
    let c ← hexValue c
    let d ← hexValue d
    pure (a * 4096 + b * 256 + c * 16 + d, rest)
  | _ => .error .decodeError

/-- The character of a `\u` escape, which may go on in a second one. There is no lone
surrogate in a string here, so a text with one is not read. -/
def readUnicode : Reader Char := fun text => do
  let (n, rest) ← readHex text
  if 0xd800 ≤ n ∧ n < 0xdc00 then
    match rest with
    | '\\' :: 'u' :: low => do
      let (m, rest) ← readHex low
      if 0xdc00 ≤ m ∧ m < 0xe000 then
        pure (Char.ofNat (0x10000 + (n - 0xd800) * 1024 + (m - 0xdc00)), rest)
      else .error .decodeError
    | _ => .error .decodeError
  else if 0xdc00 ≤ n ∧ n < 0xe000 then .error .decodeError
  else pure (Char.ofNat n, rest)

/-- The next character of a string. -/
def readChar : Reader Char
  | '\\' :: '"' :: rest => .ok ('"', rest)
  | '\\' :: '\\' :: rest => .ok ('\\', rest)
  | '\\' :: '/' :: rest => .ok ('/', rest)
  | '\\' :: 'b' :: rest => .ok ('\x08', rest)
  | '\\' :: 'f' :: rest => .ok ('\x0c', rest)
  | '\\' :: 'n' :: rest => .ok ('\n', rest)
  | '\\' :: 'r' :: rest => .ok ('\r', rest)
  | '\\' :: 't' :: rest => .ok ('\t', rest)
  | '\\' :: 'u' :: rest => readUnicode rest
  | '\\' :: _ => .error .decodeError
  | c :: rest => if c.toNat < 32 then .error .decodeError else .ok (c, rest)
  | [] => .error .decodeError

/-- A string after its opening quote. -/
def readString : Nat → Reader (List Char)
  | 0, _ => .error .decodeError
  | _ + 1, '"' :: rest => .ok ([], rest)
  | fuel + 1, text => do
    let (c, rest) ← readChar text
    let (s, rest) ← readString fuel rest
    pure (c :: s, rest)

/-- `-?` -/
def splitMinus : List Char → Bool × List Char
  | '-' :: rest => (true, rest)
  | text => (false, text)

/-- `0|[1-9][0-9]*` -/
def readWhole : Reader (List Char)
  | '0' :: rest => .ok (['0'], rest)
  | c :: rest =>
    if c.isDigit then .ok (c :: rest.takeWhile Char.isDigit, rest.dropWhile Char.isDigit)
    else .error .decodeError
  | [] => .error .decodeError

/-- `(\.[0-9]+)?` -/
def splitFraction : List Char → List Char × List Char
  | '.' :: rest =>
    if rest.takeWhile Char.isDigit = [] then ([], '.' :: rest)
    else ('.' :: rest.takeWhile Char.isDigit, rest.dropWhile Char.isDigit)
  | text => ([], text)

/-- `[-+]?` -/
def splitSign : List Char → List Char × List Char
  | '+' :: rest => (['+'], rest)
  | '-' :: rest => (['-'], rest)
  | text => ([], text)

/-- `([eE][-+]?[0-9]+)?` -/
def splitExponent : List Char → List Char × List Char
  | [] => ([], [])
  | c :: rest =>
    if c = 'e' ∨ c = 'E' then
      let (sign, after) := splitSign rest
      if after.takeWhile Char.isDigit = [] then ([], c :: rest)
      else (c :: sign ++ after.takeWhile Char.isDigit, after.dropWhile Char.isDigit)
    else ([], c :: rest)

/-- The digits `int` reads at most. -/
def maxDigits : Nat := 4300

/-- `int` of a text that is digits after a sign. -/
def readInt (negative : Bool) (digits : List Char) : Except LoadsRaised Json :=
  if maxDigits < digits.length then
    .error (.other "Exceeds the limit (4300 digits) for integer string conversion")
  else
    let value : Int := Nat.ofDigitChars 10 digits 0
    .ok (.int (if negative then -value else value))

def readNumber (floats : FloatCodec) : Reader Json := fun text => do
  let (negative, unsigned) := splitMinus text
  let (whole, rest) ← readWhole unsigned
  let (fraction, rest) := splitFraction rest
  let (exponent, rest) := splitExponent rest
  if fraction = [] ∧ exponent = [] then do
    let value ← readInt negative whole
    pure (value, rest)
  else
    let sign := if negative then ['-'] else []
    pure (.float (floats.read (sign ++ whole ++ fraction ++ exponent)), rest)

mutual

/-- A value at the beginning of a text. -/
def readValue (floats : FloatCodec) : Nat → Reader Json
  | 0, _ => .error .decodeError
  | _ + 1, '"' :: rest => do
    let (s, rest) ← readString (rest.length + 1) rest
    pure (.str (String.ofList s), rest)
  | fuel + 1, '{' :: rest =>
    match skipBlank rest with
    | '}' :: rest => .ok (.obj [], rest)
    | rest => do
      let (items, rest) ← readEntries floats fuel [] rest
      pure (.obj items, rest)
  | fuel + 1, '[' :: rest =>
    match skipBlank rest with
    | ']' :: rest => .ok (.arr [], rest)
    | rest => do
      let (items, rest) ← readItems floats fuel rest
      pure (.arr items, rest)
  | _ + 1, 'n' :: 'u' :: 'l' :: 'l' :: rest => .ok (.null, rest)
  | _ + 1, 't' :: 'r' :: 'u' :: 'e' :: rest => .ok (.bool true, rest)
  | _ + 1, 'f' :: 'a' :: 'l' :: 's' :: 'e' :: rest => .ok (.bool false, rest)
  | _ + 1, 'N' :: 'a' :: 'N' :: rest => .ok (.float (floats.read "NaN".toList), rest)
  | _ + 1, 'I' :: 'n' :: 'f' :: 'i' :: 'n' :: 'i' :: 't' :: 'y' :: rest =>
    .ok (.float (floats.read "Infinity".toList), rest)
  | _ + 1, '-' :: 'I' :: 'n' :: 'f' :: 'i' :: 'n' :: 'i' :: 't' :: 'y' :: rest =>
    .ok (.float (floats.read "-Infinity".toList), rest)
  | _ + 1, text => readNumber floats text

/-- The entries of an object, before each of which a quote stands. -/
def readEntries (floats : FloatCodec) : Nat → Items Json → Reader (Items Json)
  | fuel + 1, items, '"' :: rest => do
    let (key, rest) ← readString (rest.length + 1) rest
    match skipBlank rest with
    | ':' :: rest => do
      let (value, rest) ← readValue floats fuel (skipBlank rest)
      let items := Items.set items (String.ofList key) value
      match skipBlank rest with
      | '}' :: rest => pure (items, rest)
      | ',' :: rest => readEntries floats fuel items (skipBlank rest)
      | _ => .error .decodeError
    | _ => .error .decodeError
  | _, _, _ => .error .decodeError

/-- The values of an array. -/
def readItems (floats : FloatCodec) : Nat → Reader (List Json)
  | 0, _ => .error .decodeError
  | fuel + 1, text => do
    let (value, rest) ← readValue floats fuel text
    match skipBlank rest with
    | ']' :: rest => pure ([value], rest)
    | ',' :: rest => do
      let (more, rest) ← readItems floats fuel (skipBlank rest)
      pure (value :: more, rest)
    | _ => .error .decodeError

end

/-- `json.loads`; every level of a value takes a character, so the fuel is enough. -/
def loads (floats : FloatCodec) (text : List Char) : Except LoadsRaised Json :=
  if ['\ufeff'] <+: text then .error .decodeError
  else do
    let (value, rest) ← readValue floats (text.length + 1) (skipBlank text)
    if skipBlank rest = [] then pure value else .error .decodeError

section Blank

variable {c : Char} {rest : List Char}

theorem skipBlank_cons (solid : isBlank c = false) : skipBlank (c :: rest) = c :: rest :=
  List.dropWhile_cons_of_neg (by rw [solid]; exact nofun)

theorem skipBlank_space : skipBlank (' ' :: rest) = skipBlank rest :=
  List.dropWhile_cons_of_pos (by decide)

end Blank

section Escapes

variable {rest : List Char}

/-- Characters are the code points that are no surrogates. -/
theorem toNat_valid (c : Char) : c.toNat < 0xd800 ∨ 0xdfff < c.toNat ∧ c.toNat < 0x110000 := c.valid

theorem hexValue_hexDigit (n : Nat) : hexValue (hexDigit n) = .ok (n % 16) := by
  have digits : ∀ m < 16, hexValue ("0123456789abcdef".toList.getD m '0') = .ok m := by decide
  exact digits (n % 16) (Nat.mod_lt n (by decide))

theorem readHex_digits (n : Nat) (small : n < 65536) :
    readHex (hexDigit (n / 4096) :: hexDigit (n / 256) :: hexDigit (n / 16) :: hexDigit n :: rest) =
      .ok (n, rest) := by
  have value : n / 4096 % 16 * 4096 + n / 256 % 16 * 256 + n / 16 % 16 * 16 + n % 16 = n := by
    omega
  rw [readHex, bind_of_ok (hexValue_hexDigit _), bind_of_ok (hexValue_hexDigit _),
    bind_of_ok (hexValue_hexDigit _), bind_of_ok (hexValue_hexDigit _), value]
  rfl

/-- The escape of a character of the first plane. -/
theorem readChar_unicodeEscape (c : Char) (plane : c.toNat < 0x10000) :
    readChar (unicodeEscape c.toNat ++ rest) = .ok (c, rest) := by
  have valid := toNat_valid c
  change readUnicode _ = _
  rw [readUnicode]
  refine (bind_of_ok (readHex_digits c.toNat plane)).trans ?_
  dsimp only
  rw [if_neg (by omega), if_neg (by omega), Char.ofNat_toNat]
  rfl

/-- The two escapes of one beyond it. -/
theorem readChar_surrogates (c : Char) (plane : 0x10000 ≤ c.toNat) :
    readChar (unicodeEscape (0xd800 + (c.toNat - 0x10000) / 1024) ++
      unicodeEscape (0xdc00 + (c.toNat - 0x10000) % 1024) ++ rest) = .ok (c, rest) := by
  have valid := toNat_valid c
  have first : 0xd800 + (c.toNat - 0x10000) / 1024 < 65536 := by omega
  have second : 0xdc00 + (c.toNat - 0x10000) % 1024 < 65536 := by omega
  change readUnicode _ = _
  rw [readUnicode]
  refine (bind_of_ok (readHex_digits _ first)).trans ?_
  dsimp only
  rw [if_pos (by omega)]
  change (readHex _ >>= _) = _
  refine (bind_of_ok (readHex_digits _ second)).trans ?_
  dsimp only
  have value : 0x10000 + (0xd800 + (c.toNat - 0x10000) / 1024 - 0xd800) * 1024 +
      (0xdc00 + (c.toNat - 0x10000) % 1024 - 0xdc00) = c.toNat := by omega
  rw [if_pos (by omega), value, Char.ofNat_toNat]
  rfl

/-- How the characters of a string are written, so that they can be read. -/
structure Escape where
  text : Char → List Char
  quoted : ∀ c rest, ∀ after, text c ++ rest ≠ '"' :: after
  reads : ∀ c rest, readChar (text c ++ rest) = .ok (c, rest)

/-- With `ensure_ascii=False` only what must be is escaped. -/
def escapeControl (c : Char) : List Char :=
  match c with
  | '\\' => ['\\', '\\']
  | '"' => ['\\', '"']
  | '\n' => ['\\', 'n']
  | '\r' => ['\\', 'r']
  | '\t' => ['\\', 't']
  | '\x08' => ['\\', 'b']
  | '\x0c' => ['\\', 'f']
  | c => if c.toNat < 32 then unicodeEscape c.toNat else [c]

theorem readChar_plain {c : Char} (solid : 32 ≤ c.toNat) (other : c ≠ '\\') :
    readChar (c :: rest) = .ok (c, rest) := by
  unfold readChar
  split
  case h_11 =>
    rename_i found
    obtain ⟨rfl, rfl⟩ := List.cons.inj found
    rw [if_neg (by omega)]
  case h_12 found => nomatch found
  all_goals
    rename_i found
    exact absurd (List.cons.inj found).1 other

theorem escapeChar_head (c : Char) (after : List Char) : escapeChar c ++ rest ≠ '"' :: after := by
  unfold escapeChar
  split
  case h_8 other _ _ _ _ _ =>
    split_ifs with printable
    · rintro same
      exact other (List.cons.inj same).1
    · exact nofun
    · exact nofun
  all_goals exact nofun

theorem escapeChar_reads (c : Char) : readChar (escapeChar c ++ rest) = .ok (c, rest) := by
  unfold escapeChar
  split
  case h_8 slash quote _ _ _ _ _ =>
    split_ifs with printable plane
    · exact readChar_plain printable.1 slash
    · exact readChar_unicodeEscape c plane
    · exact readChar_surrogates c (Nat.not_lt.mp plane)
  all_goals rfl

theorem escapeControl_head (c : Char) (after : List Char) :
    escapeControl c ++ rest ≠ '"' :: after := by
  unfold escapeControl
  split
  case h_8 slash quote _ _ _ _ _ =>
    split_ifs with control
    · exact nofun
    · rintro same
      exact quote (List.cons.inj same).1
  all_goals exact nofun

theorem escapeControl_reads (c : Char) : readChar (escapeControl c ++ rest) = .ok (c, rest) := by
  unfold escapeControl
  split
  case h_8 slash quote _ _ _ _ _ =>
    split_ifs with control
    · exact readChar_unicodeEscape c (by omega)
    · exact readChar_plain (by omega) slash
  all_goals rfl

/-- `ensure_ascii=True` -/
def Escape.ascii : Escape :=
  ⟨escapeChar, fun c _ => escapeChar_head c, fun c _ => escapeChar_reads c⟩

/-- `ensure_ascii=False` -/
def Escape.control : Escape :=
  ⟨escapeControl, fun c _ => escapeControl_head c, fun c _ => escapeControl_reads c⟩

end Escapes

section Strings

variable (escape : Escape)

def quoteBy (s : String) : List Char := '"' :: (s.toList.flatMap escape.text ++ ['"'])

theorem readString_escaped (s rest : List Char) {fuel : Nat} (enough : s.length < fuel) :
    readString fuel (s.flatMap escape.text ++ '"' :: rest) = .ok (s, rest) := by
  induction s generalizing fuel with
  | nil =>
    obtain ⟨fuel, rfl⟩ := Nat.exists_eq_succ_of_ne_zero (Nat.ne_of_gt enough)
    rw [List.flatMap_nil, List.nil_append, readString]
  | cons c s ih =>
    obtain ⟨fuel, rfl⟩ := Nat.exists_eq_succ_of_ne_zero (Nat.ne_of_gt (Nat.zero_lt_of_lt enough))
    rw [List.flatMap_cons, List.append_assoc, readString,
      bind_of_ok (escape.reads c (s.flatMap escape.text ++ '"' :: rest))]
    · dsimp only
      rw [bind_of_ok (ih (by rw [List.length_cons] at enough; omega))]
      rfl
    · exact fun after => escape.quoted c _ after

theorem escape_length (c : Char) : 1 ≤ (escape.text c).length := by
  by_contra short
  have nothing : escape.text c = [] := List.length_eq_zero_iff.mp (by omega)
  exact escape.quoted c ['"'] [] (by rw [nothing]; rfl)

theorem flatMap_length (s : List Char) : s.length ≤ (s.flatMap escape.text).length := by
  induction s with
  | nil => exact Nat.le_refl 0
  | cons c s ih =>
    have one := escape_length escape c
    rw [List.flatMap_cons, List.length_append, List.length_cons]
    omega

end Strings

section Numbers

/-- What a number can be followed by: nothing that goes on with it. -/
def Stops (rest : List Char) : Prop :=
  ∀ c after, rest = c :: after → c.isDigit = false ∧ c ≠ '.' ∧ c ≠ 'e' ∧ c ≠ 'E'

theorem stops_cons {c : Char} {after : List Char}
    (other : c.isDigit = false ∧ c ≠ '.' ∧ c ≠ 'e' ∧ c ≠ 'E') : Stops (c :: after) := by
  rintro _ _ same
  obtain ⟨rfl, rfl⟩ := List.cons.inj same
  exact other

/-- A text that does not begin with a digit. -/
def NoDigit (rest : List Char) : Prop := ∀ c after, rest = c :: after → c.isDigit = false

theorem Stops.noDigit {rest : List Char} (stops : Stops rest) : NoDigit rest :=
  fun c after same => (stops c after same).1

def AllDigits (digits : List Char) : Prop := ∀ c ∈ digits, c.isDigit = true

variable {digits rest : List Char}

theorem span_digits (all : AllDigits digits) (none : NoDigit rest) :
    (digits ++ rest).takeWhile Char.isDigit = digits ∧
      (digits ++ rest).dropWhile Char.isDigit = rest := by
  have nothing : rest.takeWhile Char.isDigit = [] ∧ rest.dropWhile Char.isDigit = rest := by
    cases rest with
    | nil => exact ⟨rfl, rfl⟩
    | cons c after =>
      have other := none c after rfl
      exact ⟨List.takeWhile_cons_of_neg (by rw [other]; exact nofun),
        List.dropWhile_cons_of_neg (by rw [other]; exact nofun)⟩
  rw [List.takeWhile_append_of_pos all, List.dropWhile_append_of_pos all, nothing.1, nothing.2,
    List.append_nil]
  exact ⟨rfl, rfl⟩

theorem toDigits_allDigits (n : Nat) : AllDigits (Nat.toDigits 10 n) :=
  fun _ mem => Nat.isDigit_of_mem_toDigits (by decide) (by decide) mem

/-- `0|[1-9][0-9]*` -/
structure Whole (digits : List Char) : Prop where
  all : AllDigits digits
  nonempty : digits ≠ []
  noLeadingZero : ∀ rest, digits = '0' :: rest → rest = []

theorem toDigits_noLeadingZero (n : Nat) (rest : List Char)
    (zero : Nat.toDigits 10 n = '0' :: rest) : rest = [] := by
  induction n using Nat.strongRecOn generalizing rest with
  | ind n ih =>
    by_cases small : n < 10
    · rw [Nat.toDigits_of_lt_base small] at zero
      exact (List.cons.inj zero).2.symm
    · rw [Nat.toDigits_of_base_le (by decide) (by omega)] at zero
      have some : Nat.toDigits 10 (n / 10) ≠ [] := Nat.toDigits_ne_nil
      obtain ⟨c, front, higher⟩ := List.exists_cons_of_ne_nil some
      rw [higher, List.cons_append] at zero
      obtain ⟨rfl, rfl⟩ := List.cons.inj zero
      obtain rfl := ih (n / 10) (by omega) front higher
      have value := Nat.ofDigitChars_ten_toDigits (n := n / 10)
      rw [higher] at value
      have none : Nat.ofDigitChars 10 ['0'] 0 = 0 := by decide
      omega

theorem toDigits_whole (n : Nat) : Whole (Nat.toDigits 10 n) where
  all := toDigits_allDigits n
  nonempty := Nat.toDigits_ne_nil
  noLeadingZero := toDigits_noLeadingZero n

theorem readWhole_append (whole : Whole digits) (none : NoDigit rest) :
    readWhole (digits ++ rest) = .ok (digits, rest) := by
  cases digits with
  | nil => exact absurd rfl whole.nonempty
  | cons c digits =>
    obtain ⟨first, all⟩ := List.forall_mem_cons.mp whole.all
    rw [List.cons_append]
    unfold readWhole
    split
    · next found =>
      obtain ⟨rfl, rfl⟩ := List.cons.inj found
      rw [whole.noLeadingZero digits rfl]
      rfl
    · next found =>
      obtain ⟨rfl, rfl⟩ := List.cons.inj found
      rw [if_pos first, (span_digits all none).1, (span_digits all none).2]
    · next found => nomatch found

/-- `(\.[0-9]+)?` -/
def Fraction (text : List Char) : Prop :=
  text = [] ∨ ∃ digits, digits ≠ [] ∧ AllDigits digits ∧ text = '.' :: digits

/-- `([eE][-+]?[0-9]+)?` -/
def Exponent (text : List Char) : Prop :=
  text = [] ∨ ∃ c sign digits, (c = 'e' ∨ c = 'E') ∧ (sign = [] ∨ sign = ['+'] ∨ sign = ['-']) ∧
    digits ≠ [] ∧ AllDigits digits ∧ text = c :: (sign ++ digits)

theorem Exponent.begins {text : List Char} (exponent : Exponent text) (stops : Stops rest) :
    ∀ c after, text ++ rest = c :: after → c.isDigit = false ∧ c ≠ '.' := by
  rintro c after same
  obtain rfl | ⟨e, sign, digits, letter, _, _, _, rfl⟩ := exponent
  · exact ⟨(stops c after same).1, (stops c after same).2.1⟩
  · obtain ⟨rfl, _⟩ := List.cons.inj same
    obtain rfl | rfl := letter <;> exact ⟨by decide, by decide⟩

theorem Fraction.noDigit {text : List Char} (fraction : Fraction text) (after : NoDigit rest) :
    NoDigit (text ++ rest) := by
  obtain rfl | ⟨digits, _, _, rfl⟩ := fraction
  · exact after
  · rintro c after same
    obtain ⟨rfl, _⟩ := List.cons.inj same
    decide

theorem splitFraction_append {text : List Char} (fraction : Fraction text)
    (others : ∀ c after, rest = c :: after → c.isDigit = false ∧ c ≠ '.') :
    splitFraction (text ++ rest) = (text, rest) := by
  obtain rfl | ⟨digits, nonempty, all, rfl⟩ := fraction
  · cases rest with
    | nil => rfl
    | cons c after =>
      unfold splitFraction
      split
      · next found => exact absurd (List.cons.inj found).1 (others c after rfl).2
      · rfl
  · obtain ⟨taken, dropped⟩ := span_digits all fun c after same => (others c after same).1
    rw [List.cons_append, splitFraction, taken, dropped, if_neg nonempty]

theorem splitSign_append {sign : List Char} (isSign : sign = [] ∨ sign = ['+'] ∨ sign = ['-'])
    (nonempty : digits ≠ []) (all : AllDigits digits) :
    splitSign (sign ++ (digits ++ rest)) = (sign, digits ++ rest) := by
  obtain rfl | rfl | rfl := isSign
  · cases digits with
    | nil => exact absurd rfl nonempty
    | cons c digits =>
      have digit := all c List.mem_cons_self
      rw [List.nil_append, List.cons_append]
      unfold splitSign
      split
      · next found =>
        obtain ⟨rfl, _⟩ := List.cons.inj found
        exact absurd digit (by decide)
      · next found =>
        obtain ⟨rfl, _⟩ := List.cons.inj found
        exact absurd digit (by decide)
      · rfl
  · rfl
  · rfl

theorem splitExponent_append {text : List Char} (exponent : Exponent text) (stops : Stops rest) :
    splitExponent (text ++ rest) = (text, rest) := by
  obtain rfl | ⟨c, sign, digits, letter, isSign, nonempty, all, rfl⟩ := exponent
  · cases rest with
    | nil => rfl
    | cons c after =>
      obtain ⟨_, _, notLower, notUpper⟩ := stops c after rfl
      rw [List.nil_append, splitExponent, if_neg (not_or.mpr ⟨notLower, notUpper⟩)]
  · obtain ⟨taken, dropped⟩ := span_digits all stops.noDigit
    rw [List.cons_append, List.append_assoc, splitExponent, if_pos letter,
      splitSign_append isSign nonempty all]
    dsimp only
    rw [taken, dropped, if_neg nonempty]
    rfl

variable (floats : FloatCodec)

/-- The sign of a number. -/
def signText (negative : Bool) : List Char := if negative then ['-'] else []

theorem splitMinus_append (negative : Bool) {whole : List Char} (isWhole : Whole whole) :
    splitMinus (signText negative ++ (whole ++ rest)) = (negative, whole ++ rest) := by
  cases negative with
  | true => rfl
  | false =>
    cases whole with
    | nil => exact absurd rfl isWhole.nonempty
    | cons c whole =>
      have digit := isWhole.all c List.mem_cons_self
      change splitMinus (c :: (whole ++ rest)) = _
      unfold splitMinus
      split
      · next found =>
        obtain ⟨rfl, _⟩ := List.cons.inj found
        exact absurd digit (by decide)
      · rfl

/-- A number is read up to where it stops. -/
theorem readNumber_append (negative : Bool) {whole fraction exponent : List Char}
    (isWhole : Whole whole) (isFraction : Fraction fraction) (isExponent : Exponent exponent)
    (stops : Stops rest) :
    readNumber floats (signText negative ++ (whole ++ (fraction ++ (exponent ++ rest)))) =
      if fraction = [] ∧ exponent = [] then (do
        let value ← readInt negative whole
        pure (value, rest))
      else
        .ok (.float (floats.read (signText negative ++ whole ++ fraction ++ exponent)), rest) := by
  have begins := isExponent.begins stops
  rw [readNumber, splitMinus_append negative isWhole]
  dsimp only
  rw [bind_of_ok (readWhole_append isWhole
    (isFraction.noDigit fun c after same => (begins c after same).1))]
  dsimp only
  rw [splitFraction_append isFraction begins]
  dsimp only
  rw [splitExponent_append isExponent stops]
  rfl

end Numbers

section Writing

variable (floats : FloatCodec) (escape : Escape)

mutual

/-- `json.dumps` -/
def dumpsBy : Json → List Char
  | .null => "null".toList
  | .bool true => "true".toList
  | .bool false => "false".toList
  | .int n => intText n
  | .float bits => floats.text bits
  | .str s => quoteBy escape s
  | .arr items => '[' :: (commaSeparated (dumpsItemsBy items) ++ [']'])
  | .obj items => '{' :: (commaSeparated (dumpsEntriesBy items) ++ ['}'])

def dumpsItemsBy : List Json → List (List Char)
  | [] => []
  | value :: rest => dumpsBy value :: dumpsItemsBy rest

def dumpsEntriesBy : List (String × Json) → List (List Char)
  | [] => []
  | (key, value) :: rest =>
    (quoteBy escape key ++ ([':', ' '] ++ dumpsBy value)) :: dumpsEntriesBy rest

end

mutual

/-- With everything escaped that is not printable this is the writer with its defaults. -/
theorem dumpsBy_ascii : (value : Json) →
    dumpsBy floats .ascii value = dumps floats.toFloatText value
  | .null => rfl
  | .bool true => rfl
  | .bool false => rfl
  | .int _ => rfl
  | .float _ => rfl
  | .str _ => rfl
  | .arr items => by rw [dumpsBy, dumps, dumpsItemsBy_ascii items]
  | .obj items => by rw [dumpsBy, dumps, dumpsEntriesBy_ascii items]

theorem dumpsItemsBy_ascii : (items : List Json) →
    dumpsItemsBy floats .ascii items = dumpsItems floats.toFloatText items
  | [] => rfl
  | value :: rest => by
    rw [dumpsItemsBy, dumpsItems, dumpsBy_ascii value, dumpsItemsBy_ascii rest]

theorem dumpsEntriesBy_ascii : (items : List (String × Json)) →
    dumpsEntriesBy floats .ascii items = dumpsEntries floats.toFloatText items
  | [] => rfl
  | (key, value) :: rest => by
    rw [dumpsEntriesBy, dumpsEntries, dumpsBy_ascii value, dumpsEntriesBy_ascii rest,
      List.append_assoc]
    rfl

end

end Writing

/-- The texts that are read as a float. -/
inductive FloatLiteral : List Char → Prop
  | nan : FloatLiteral "NaN".toList
  | infinity : FloatLiteral "Infinity".toList
  | negInfinity : FloatLiteral "-Infinity".toList
  | decimal (negative : Bool) {whole fraction exponent : List Char} (isWhole : Whole whole)
      (isFraction : Fraction fraction) (isExponent : Exponent exponent)
      (fractional : ¬(fraction = [] ∧ exponent = [])) :
      FloatLiteral (signText negative ++ whole ++ fraction ++ exponent)

/-- The values that can be read back: `int` does not read more digits than it allows, a
float has a text that is one, and no object has a key twice. -/
inductive Readable (floats : FloatCodec) : Json → Prop
  | null : Readable floats .null
  | bool (b : Bool) : Readable floats (.bool b)
  | int {n : Int} (short : (Nat.toDigits 10 n.natAbs).length ≤ maxDigits) : Readable floats (.int n)
  | float {bits : UInt64} (literal : FloatLiteral (floats.text bits))
      (same : floats.read (floats.text bits) = bits) : Readable floats (.float bits)
  | str (s : String) : Readable floats (.str s)
  | arr {items : List Json} (all : ∀ value ∈ items, Readable floats value) :
      Readable floats (.arr items)
  | obj {items : List (String × Json)} (keys : (items.map Prod.fst).Nodup)
      (all : ∀ item ∈ items, Readable floats item.2) : Readable floats (.obj items)

section Reading

variable {floats : FloatCodec} {escape : Escape} {rest : List Char}

/-- A value begins with a character that is not skipped, closes no array and marks no
byte order. -/
def Begins (text : List Char) : Prop :=
  ∃ c after, text = c :: after ∧ isBlank c = false ∧ c ≠ ']' ∧ c ≠ '\ufeff'

theorem begins_of_digit {c : Char} (digit : c.isDigit = true) :
    isBlank c = false ∧ c ≠ ']' ∧ c ≠ '\ufeff' := by
  have other : ∀ d : Char, d.isDigit = false → c ≠ d := by
    rintro d notDigit rfl
    rw [digit] at notDigit
    nomatch notDigit
  refine ⟨?_, other _ (by decide), other _ (by decide)⟩
  simp only [isBlank, Bool.or_eq_false_iff, decide_eq_false_iff_not]
  exact ⟨⟨⟨other _ (by decide), other _ (by decide)⟩, other _ (by decide)⟩, other _ (by decide)⟩

theorem readValue_digit {c : Char} {after : List Char} (digit : c.isDigit = true) (fuel : Nat) :
    readValue floats (fuel + 1) (c :: after) = readNumber floats (c :: after) := by
  unfold readValue
  split
  case h_11 => rfl
  case h_1 => nomatch ‹fuel + 1 = 0›
  all_goals
    rename_i found
    obtain ⟨rfl, _⟩ := List.cons.inj found
    exact absurd digit (by decide)

theorem readValue_minus {c : Char} {after : List Char} (digit : c.isDigit = true) (fuel : Nat) :
    readValue floats (fuel + 1) ('-' :: c :: after) = readNumber floats ('-' :: c :: after) := by
  unfold readValue
  split
  case h_11 => rfl
  case h_1 => nomatch ‹fuel + 1 = 0›
  case h_10 =>
    rename_i found
    obtain ⟨rfl, _⟩ := List.cons.inj (List.cons.inj found).2
    exact absurd digit (by decide)
  all_goals
    rename_i found
    exact absurd (List.cons.inj found).1 (by decide)

theorem readValue_number (negative : Bool) {whole after : List Char} (isWhole : Whole whole)
    (fuel : Nat) :
    readValue floats (fuel + 1) (signText negative ++ (whole ++ after)) =
      readNumber floats (signText negative ++ (whole ++ after)) := by
  obtain ⟨c, digits, rfl⟩ := List.exists_cons_of_ne_nil isWhole.nonempty
  have digit := isWhole.all c List.mem_cons_self
  cases negative with
  | false => exact readValue_digit digit fuel
  | true => exact readValue_minus digit fuel

theorem number_begins (negative : Bool) {whole : List Char} (isWhole : Whole whole)
    (after : List Char) : Begins (signText negative ++ (whole ++ after)) := by
  obtain ⟨c, digits, rfl⟩ := List.exists_cons_of_ne_nil isWhole.nonempty
  cases negative with
  | false => exact ⟨c, _, rfl, begins_of_digit (isWhole.all c List.mem_cons_self)⟩
  | true => exact ⟨'-', _, rfl, by decide, by decide, by decide⟩

/-- The text of an integer is its sign and its digits. -/
theorem intText_eq (n : Int) :
    intText n = signText (decide (n < 0)) ++ Nat.toDigits 10 n.natAbs := by
  cases n with
  | ofNat n =>
    have positive : ¬(Int.ofNat n < 0) := Int.not_lt.mpr (Int.natCast_nonneg n)
    rw [decide_eq_false positive]
    rfl
  | negSucc n =>
    rw [decide_eq_true (Int.negSucc_lt_zero n)]
    rfl

theorem intText_begins (n : Int) : Begins (intText n) := by
  have begins := number_begins (decide (n < 0)) (toDigits_whole n.natAbs) []
  rw [List.append_nil] at begins
  exact intText_eq n ▸ begins

theorem readValue_int {n : Int} (short : (Nat.toDigits 10 n.natAbs).length ≤ maxDigits)
    (stops : Stops rest) (fuel : Nat) :
    readValue floats (fuel + 1) (intText n ++ rest) = .ok (.int n, rest) := by
  have whole := toDigits_whole n.natAbs
  have read := readNumber_append floats (decide (n < 0)) whole (.inl rfl) (.inl rfl) stops
  have value : (if decide (n < 0) then -(n.natAbs : Int) else n.natAbs) = n := by
    split_ifs with negative
    · have := of_decide_eq_true negative
      omega
    · have := of_decide_eq_false (Bool.not_eq_true _ ▸ negative)
      omega
  rw [intText_eq, List.append_assoc, readValue_number _ whole]
  refine read.trans ?_
  rw [if_pos ⟨rfl, rfl⟩, readInt, if_neg (by omega), Nat.ofDigitChars_ten_toDigits]
  dsimp only
  rw [value]
  rfl

theorem FloatLiteral.begins {text : List Char} (literal : FloatLiteral text) : Begins text := by
  cases literal with
  | nan => exact ⟨'N', _, rfl, by decide, by decide, by decide⟩
  | infinity => exact ⟨'I', _, rfl, by decide, by decide, by decide⟩
  | negInfinity => exact ⟨'-', _, rfl, by decide, by decide, by decide⟩
  | decimal negative isWhole =>
    rw [List.append_assoc, List.append_assoc]
    exact number_begins negative isWhole _

theorem readValue_float {text : List Char} (literal : FloatLiteral text) (stops : Stops rest)
    (fuel : Nat) :
    readValue floats (fuel + 1) (text ++ rest) = .ok (.float (floats.read text), rest) := by
  cases literal with
  | nan => rfl
  | infinity => rfl
  | negInfinity => rfl
  | decimal negative isWhole isFraction isExponent fractional =>
    simp only [List.append_assoc]
    rw [readValue_number negative isWhole,
      readNumber_append floats negative isWhole isFraction isExponent stops, if_neg fractional]
    simp only [List.append_assoc]

theorem readValue_str (s : String) (fuel : Nat) :
    readValue floats (fuel + 1) (quoteBy escape s ++ rest) = .ok (.str s, rest) := by
  have enough := flatMap_length escape s.toList
  rw [quoteBy, List.cons_append, List.append_assoc, List.singleton_append]
  unfold readValue
  refine (bind_of_ok (readString_escaped escape s.toList rest ?_)).trans ?_
  · rw [List.length_append]
    omega
  · dsimp only
    rw [String.ofList_toList]
    rfl

theorem dumpsBy_begins (escape : Escape) {value : Json} (readable : Readable floats value) :
    Begins (dumpsBy floats escape value) := by
  cases readable with
  | null => exact ⟨'n', _, rfl, by decide, by decide, by decide⟩
  | bool b => cases b <;> exact ⟨_, _, rfl, by decide, by decide, by decide⟩
  | int short => exact intText_begins _
  | float literal _ => exact literal.begins
  | str s => exact ⟨'"', _, rfl, by decide, by decide, by decide⟩
  | arr _ => exact ⟨'[', _, rfl, by decide, by decide, by decide⟩
  | obj _ _ => exact ⟨'{', _, rfl, by decide, by decide, by decide⟩

theorem Begins.skipBlank {text : List Char} (begins : Begins text) :
    skipBlank (text ++ rest) = text ++ rest := by
  obtain ⟨c, after, rfl, solid, _⟩ := begins
  exact skipBlank_cons solid

theorem commaSeparated_cons (part : List Char) {others : List (List Char)} (more : others ≠ []) :
    commaSeparated (part :: others) = part ++ ',' :: ' ' :: commaSeparated others := by
  obtain ⟨next, others, rfl⟩ := List.exists_cons_of_ne_nil more
  rw [commaSeparated.eq_def]
  exact List.append_assoc _ _ _

theorem commaSeparated_begins {part : List Char} (begins : Begins part)
    (others : List (List Char)) : Begins (commaSeparated (part :: others)) := by
  obtain ⟨c, after, rfl, solid⟩ := begins
  cases others with
  | nil => exact ⟨c, after, rfl, solid⟩
  | cons next others =>
    rw [commaSeparated_cons _ (List.cons_ne_nil next others)]
    exact ⟨c, _, rfl, solid⟩

theorem dumpsItemsBy_ne_nil (value : Json) (items : List Json) :
    dumpsItemsBy floats escape (value :: items) ≠ [] := by
  rw [dumpsItemsBy]
  exact List.cons_ne_nil _ _

theorem dumpsEntriesBy_ne_nil (item : String × Json) (items : List (String × Json)) :
    dumpsEntriesBy floats escape (item :: items) ≠ [] := by
  rw [dumpsEntriesBy]
  exact List.cons_ne_nil _ _

theorem entry_begins (floats : FloatCodec) (escape : Escape) (item : String × Json)
    (items : List (String × Json)) :
    ∃ after, commaSeparated (dumpsEntriesBy floats escape (item :: items)) = '"' :: after := by
  cases items with
  | nil => exact ⟨_, rfl⟩
  | cons next items =>
    rw [dumpsEntriesBy, commaSeparated_cons _ (dumpsEntriesBy_ne_nil next items)]
    exact ⟨_, rfl⟩

theorem key_new {before items : List (String × Json)} {key : String} {value : Json}
    (unique : ((before ++ (key, value) :: items).map Prod.fst).Nodup) :
    key ∉ before.map Prod.fst := by
  rw [List.map_append, List.map_cons] at unique
  exact fun mem => (List.nodup_append.mp unique).2.2 key mem key List.mem_cons_self rfl

theorem stops_of_closing {c : Char} (closing : c = ']' ∨ c = '}' ∨ c = ',') :
    Stops (c :: rest) := by
  obtain rfl | rfl | rfl := closing <;> exact stops_cons (by decide)

/-- An array that has values, once its first character is not the closing bracket. -/
theorem readValue_items {text after : List Char} {items : List Json} (begins : Begins text)
    {fuel : Nat} (read : readItems floats fuel (text ++ after) = .ok (items, rest)) :
    readValue floats (fuel + 1) ('[' :: (text ++ after)) = .ok (.arr items, rest) := by
  obtain ⟨c, more, rfl, solid, notClosing, -⟩ := begins
  rw [readValue, List.cons_append, skipBlank_cons solid]
  split
  · next found => exact absurd (List.cons.inj found).1 notClosing
  · exact (bind_of_ok read).trans rfl

theorem readValue_entries {after : List Char} {items : Items Json} {fuel : Nat}
    (read : readEntries floats fuel [] ('"' :: after) = .ok (items, rest)) :
    readValue floats (fuel + 1) ('{' :: '"' :: after) = .ok (.obj items, rest) := by
  rw [readValue, skipBlank_cons (by decide)]
  exact (bind_of_ok read).trans rfl

/-- An entry whose key is new, up to what follows its value. -/
theorem readEntries_entry {before : Items Json} {key : String} {value : Json} {after : List Char}
    {fuel : Nat} (new : key ∉ before.map Prod.fst) (begins : Begins (dumpsBy floats escape value))
    (read : readValue floats fuel (dumpsBy floats escape value ++ after) = .ok (value, after)) :
    readEntries floats (fuel + 1) before
        (quoteBy escape key ++ ([':', ' '] ++ dumpsBy floats escape value) ++ after) =
      match skipBlank after with
      | '}' :: rest => pure (before ++ [(key, value)], rest)
      | ',' :: rest => readEntries floats fuel (before ++ [(key, value)]) (skipBlank rest)
      | _ => .error .decodeError := by
  have enough := flatMap_length escape key.toList
  have text : quoteBy escape key ++ ([':', ' '] ++ dumpsBy floats escape value) ++ after =
      '"' :: (key.toList.flatMap escape.text ++
        '"' :: ':' :: ' ' :: (dumpsBy floats escape value ++ after)) := by
    simp [quoteBy]
  rw [text, readEntries]
  refine (bind_of_ok (readString_escaped escape key.toList _ ?_)).trans ?_
  · rw [List.length_append]
    omega
  · dsimp only
    rw [skipBlank_cons (by decide)]
    change (readValue floats fuel (skipBlank (' ' :: _)) >>= _) = _
    rw [skipBlank_space, begins.skipBlank]
    refine (bind_of_ok read).trans ?_
    dsimp only
    rw [String.ofList_toList, Items.set_of_notMem new]

mutual

/-- What was written is read back, whatever stands after it. -/
theorem readValue_dumpsBy : (value : Json) → Readable floats value →
    ∀ (fuel : Nat) (rest : List Char), (dumpsBy floats escape value).length ≤ fuel → Stops rest →
      readValue floats (fuel + 1) (dumpsBy floats escape value ++ rest) = .ok (value, rest)
  | .null, _, _, _, _, _ => rfl
  | .bool true, _, _, _, _, _ => rfl
  | .bool false, _, _, _, _, _ => rfl
  | .int _, .int short, fuel, _, _, stops => readValue_int short stops fuel
  | .float _, .float literal same, fuel, rest, _, stops => by
    rw [dumpsBy, readValue_float literal stops, same]
  | .str s, _, fuel, _, _, _ => readValue_str s fuel
  | .arr [], _, _, _, _, _ => rfl
  | .arr (value :: items), .arr all, fuel, rest, enough, _ => by
    rw [dumpsBy, List.length_cons, List.length_append, List.length_singleton] at enough
    rw [dumpsBy, List.cons_append, List.append_assoc, List.singleton_append]
    have begins := dumpsBy_begins escape (all value List.mem_cons_self)
    exact readValue_items (commaSeparated_begins begins _)
      (readItems_dumpsBy (value :: items) (List.cons_ne_nil _ _) all fuel rest (by omega))
  | .obj [], _, _, _, _, _ => rfl
  | .obj ((key, value) :: items), .obj keys all, fuel, rest, enough, _ => by
    rw [dumpsBy, List.length_cons, List.length_append, List.length_singleton] at enough
    rw [dumpsBy, List.cons_append, List.append_assoc, List.singleton_append]
    have read := readEntries_dumpsBy ((key, value) :: items) (List.cons_ne_nil _ _) all fuel []
      rest keys (by omega)
    obtain ⟨after, begins⟩ := entry_begins floats escape (key, value) items
    rw [begins] at read ⊢
    exact readValue_entries read

theorem readItems_dumpsBy : (items : List Json) → items ≠ [] →
    (∀ value ∈ items, Readable floats value) → ∀ (fuel : Nat) (rest : List Char),
      (commaSeparated (dumpsItemsBy floats escape items)).length + 2 ≤ fuel →
      readItems floats fuel (commaSeparated (dumpsItemsBy floats escape items) ++ ']' :: rest) =
        .ok (items, rest)
  | [], nonempty, _, _, _, _ => absurd rfl nonempty
  | [value], _, all, fuel, rest, enough => by
    obtain ⟨fuel, rfl⟩ := Nat.exists_eq_add_of_le' (Nat.le_of_add_left_le enough)
    have here := readValue_dumpsBy value (all value List.mem_cons_self) fuel (']' :: rest)
      (by rw [dumpsItemsBy, dumpsItemsBy, commaSeparated] at enough; omega)
      (stops_of_closing (.inl rfl))
    rw [dumpsItemsBy, dumpsItemsBy, commaSeparated, readItems]
    refine (bind_of_ok here).trans ?_
    dsimp only
    rw [skipBlank_cons (by decide)]
    rfl
  | value :: next :: items, _, all, fuel, rest, enough => by
    obtain ⟨fuel, rfl⟩ := Nat.exists_eq_add_of_le' (Nat.le_of_add_left_le enough)
    obtain ⟨first, others⟩ := List.forall_mem_cons.mp all
    have begins := commaSeparated_begins (dumpsBy_begins escape
      (others next List.mem_cons_self)) (dumpsItemsBy floats escape items)
    have split : commaSeparated (dumpsItemsBy floats escape (value :: next :: items)) =
        dumpsBy floats escape value ++ ',' :: ' ' ::
          commaSeparated (dumpsItemsBy floats escape (next :: items)) := by
      rw [dumpsItemsBy, commaSeparated_cons _ (dumpsItemsBy_ne_nil next items)]
    rw [split, List.length_append, List.length_cons, List.length_cons] at enough
    have here := readValue_dumpsBy value first fuel
      (',' :: ' ' :: (commaSeparated (dumpsItemsBy floats escape (next :: items)) ++ ']' :: rest))
      (by omega) (stops_of_closing (.inr (.inr rfl)))
    have more := readItems_dumpsBy (next :: items) (List.cons_ne_nil _ _) others (fuel + 1) rest
      (by omega)
    rw [split, List.append_assoc, List.cons_append, List.cons_append, readItems]
    refine (bind_of_ok here).trans ?_
    dsimp only
    rw [skipBlank_cons (by decide)]
    change (readItems floats (fuel + 1) (skipBlank (' ' :: _)) >>= _) = _
    rw [skipBlank_space]
    exact (bind_of_ok (begins.skipBlank ▸ more)).trans rfl

theorem readEntries_dumpsBy : (items : List (String × Json)) → items ≠ [] →
    (∀ item ∈ items, Readable floats item.2) → ∀ (fuel : Nat) (before : Items Json)
      (rest : List Char), ((before ++ items).map Prod.fst).Nodup →
      (commaSeparated (dumpsEntriesBy floats escape items)).length + 2 ≤ fuel →
      readEntries floats fuel before
          (commaSeparated (dumpsEntriesBy floats escape items) ++ '}' :: rest) =
        .ok (before ++ items, rest)
  | [], nonempty, _, _, _, _, _, _ => absurd rfl nonempty
  | [(key, value)], _, all, fuel, before, rest, unique, enough => by
    obtain ⟨fuel, rfl⟩ := Nat.exists_eq_add_of_le' (Nat.le_of_add_left_le enough)
    have first := all (key, value) List.mem_cons_self
    have new := key_new unique
    rw [dumpsEntriesBy, dumpsEntriesBy, commaSeparated] at enough ⊢
    rw [List.length_append, List.length_append] at enough
    have here := readValue_dumpsBy value first fuel ('}' :: rest) (by omega)
      (stops_of_closing (.inr (.inl rfl)))
    rw [readEntries_entry new (dumpsBy_begins escape first) here, skipBlank_cons (by decide)]
    rfl
  | (key, value) :: next :: items, _, all, fuel, before, rest, unique, enough => by
    obtain ⟨fuel, rfl⟩ := Nat.exists_eq_add_of_le' (Nat.le_of_add_left_le enough)
    obtain ⟨first, others⟩ := List.forall_mem_cons.mp all
    have new := key_new unique
    have split : commaSeparated (dumpsEntriesBy floats escape ((key, value) :: next :: items)) =
        (quoteBy escape key ++ ([':', ' '] ++ dumpsBy floats escape value)) ++ ',' :: ' ' ::
          commaSeparated (dumpsEntriesBy floats escape (next :: items)) := by
      rw [dumpsEntriesBy, commaSeparated_cons _ (dumpsEntriesBy_ne_nil next items)]
    have lengths := congrArg List.length split
    simp only [List.length_append, List.length_cons] at lengths
    have here := readValue_dumpsBy value first fuel
      (',' :: ' ' :: (commaSeparated (dumpsEntriesBy floats escape (next :: items)) ++ '}' :: rest))
      (by omega) (stops_of_closing (.inr (.inr rfl)))
    have more := readEntries_dumpsBy (next :: items) (List.cons_ne_nil _ _) others (fuel + 1)
      (before ++ [(key, value)]) rest (by rw [List.append_assoc]; exact unique) (by omega)
    have text : commaSeparated (dumpsEntriesBy floats escape ((key, value) :: next :: items)) ++
        '}' :: rest = (quoteBy escape key ++ ([':', ' '] ++ dumpsBy floats escape value)) ++
          (',' :: ' ' :: (commaSeparated (dumpsEntriesBy floats escape (next :: items)) ++
            '}' :: rest)) := by
      rw [split, List.append_assoc]
      rfl
    obtain ⟨after, begins⟩ := entry_begins floats escape next items
    rw [text, readEntries_entry new (dumpsBy_begins escape first) here, skipBlank_cons (by decide)]
    change readEntries floats (fuel + 1) (before ++ [(key, value)]) (skipBlank (' ' :: _)) = _
    rw [skipBlank_space]
    rw [begins, List.cons_append] at more ⊢
    rw [skipBlank_cons (by decide), more, List.append_assoc]
    rfl

end

theorem skipBlank_append {before : List Char} (blank : skipBlank before = []) (text : List Char) :
    skipBlank (before ++ text) = skipBlank text := by
  rw [skipBlank, List.dropWhile_append, show before.dropWhile isBlank = [] from blank]
  rfl

/-- `json.loads` of what `json.dumps` wrote, with white space around it or not. -/
theorem loads_dumpsBy (escape : Escape) {value : Json} (readable : Readable floats value)
    {before after : List Char} (blank' : skipBlank before = []) (blank : skipBlank after = []) :
    loads floats (before ++ (dumpsBy floats escape value ++ after)) = .ok value := by
  have begins := dumpsBy_begins escape readable
  have unmarked : ¬['\ufeff'] <+: before ++ (dumpsBy floats escape value ++ after) := by
    intro mark
    cases before with
    | nil =>
      obtain ⟨c, more, same, -, -, other⟩ := begins
      rw [List.nil_append, same, List.cons_append] at mark
      exact other (List.cons_prefix_cons.mp mark).1.symm
    | cons c before =>
      obtain ⟨rfl, _⟩ := List.cons_prefix_cons.mp mark
      rw [skipBlank_cons (by decide)] at blank'
      nomatch blank'
  have stops : Stops after := by
    rintro c more rfl
    have isBlank : isBlank c = true := by
      by_contra solid
      rw [skipBlank_cons (Bool.not_eq_true _ ▸ solid)] at blank
      nomatch blank
    simp only [JsonText.isBlank, Bool.or_eq_true, decide_eq_true_eq] at isBlank
    obtain ((rfl | rfl) | rfl) | rfl := isBlank <;> decide
  rw [loads, if_neg unmarked, skipBlank_append blank', begins.skipBlank]
  refine (bind_of_ok (readValue_dumpsBy value readable _ after ?_ stops)).trans ?_
  · rw [List.length_append, List.length_append]
    omega
  · exact if_pos blank

theorem loads_written (escape : Escape) {value : Json} (readable : Readable floats value) :
    loads floats (dumpsBy floats escape value) = .ok value := by
  have nothing : skipBlank [] = [] := rfl
  have read := loads_dumpsBy escape readable nothing nothing
  rw [List.nil_append, List.append_nil] at read
  exact read

end Reading

end TrajProxy.JsonText
