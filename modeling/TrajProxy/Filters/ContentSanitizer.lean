import Mathlib.Data.List.Forall2
import TrajProxy.Library.Json
import TrajProxy.Library.Rewrite

/-! `ContentSanitizer` with the default rule `(cch=)[0-9a-f]{5}\b`: it writes zeros for
the digits of a field in the content of a system message. A field ends at a word
boundary, so that neither a shorter nor a longer run of digits is one. -/

namespace TrajProxy.Filters
open Rewrite

/-- The characters `\w` stands for in a `str` pattern: `isalnum()` or an underscore. -/
structure WordChars where
  isWord : Char → Bool
  ascii : ∀ c : Char, c.toNat < 128 → isWord c = (c.isAlphanum || c = '_')

abbrev Message := Items Json

structure SanitizeRule where
  name : String
  pattern : List Char → Option Nat
  replacement : List Char → List Char

def mark : List Char := ['c', 'c', 'h', '=']

/-- `[0-9a-f]` -/
def isHex (c : Char) : Bool := ('0' ≤ c && c ≤ '9') || ('a' ≤ c && c ≤ 'f')

variable (W : WordChars)

/-- `\b` behind a word character. -/
def boundary : List Char → Bool
  | [] => true
  | c :: _ => !W.isWord c

/-- `(cch=)[0-9a-f]{5}\b` at the head of a text. -/
def cchPattern (text : List Char) : Option Nat :=
  let digits := (text.drop 4).take 5
  if mark.isPrefixOf text && digits.length = 5 && digits.all isHex && boundary W (text.drop 9) then
    some 9
  else none

/-- `\g<1>00000` -/
def cchReplacement (found : List Char) : List Char := found.take 4 ++ ['0', '0', '0', '0', '0']

def cchNormalization : SanitizeRule where
  name := "cch_normalization"
  pattern := cchPattern W
  replacement := cchReplacement

/-- `_DEFAULT_RULES` -/
def defaultRules : List SanitizeRule := [cchNormalization W]

/-- The loop over the rules: the content and the number of matches. -/
def applyRules (rules : List SanitizeRule) (content : String) : String × Nat :=
  rules.foldl (fun state rule =>
    let done := subn rule.pattern rule.replacement state.1.toList
    if 0 < done.2 then (String.ofList done.1, state.2 + done.2) else state) (content, 0)

/-- `ContentSanitizer.apply` -/
def apply (rules : List SanitizeRule) (message : Message) : Message :=
  match message.get? "role", message.get? "content" with
  | some (.str "system"), some (.str content) =>
    let done := applyRules rules content
    if 0 < done.2 then message.set "content" (.str done.1) else message
  | _, _ => message

/-- Each message of a list. -/
def sanitize (messages : List Message) : List Message := messages.map (apply (defaultRules W))

section Fields

/-- Five digits. -/
structure Digits (digits : List Char) : Prop where
  five : digits.length = 5
  hex : ∀ d ∈ digits, isHex d = true

/-- Two texts that differ at most in the five digits behind a mark, where `ends` holds
of the text behind the digits. -/
inductive SameBut (ends : List Char → Bool) : List Char → List Char → Prop
  | nil : SameBut ends [] []
  | char (c : Char) {text text' : List Char} :
      SameBut ends text text' → SameBut ends (c :: text) (c :: text')
  | field {digits digits' text text' : List Char} : Digits digits → Digits digits' →
      ends text = true → SameBut ends text text' →
      SameBut ends (mark ++ (digits ++ text)) (mark ++ (digits' ++ text'))

variable {W} {ends : List Char → Bool} {digits digits' pre text text' : List Char} {c : Char}

theorem isWord_of_alphanum (small : c.toNat < 128) (alphanum : c.isAlphanum = true) :
    W.isWord c = true := by
  rw [W.ascii c small, alphanum]
  rfl

/-- Hex digits are word characters, and no letters above `f`. -/
theorem isHex_spec (hex : isHex c = true) :
    c.toNat < 128 ∧ c.isAlphanum = true ∧ c ≠ 'h' ∧ c ≠ '=' := by
  have range : (48 ≤ c.toNat ∧ c.toNat ≤ 57) ∨ (97 ≤ c.toNat ∧ c.toNat ≤ 102) := by
    simpa [isHex, Char.le_def, UInt32.le_iff_toNat_le] using hex
  refine ⟨by omega, ?_, ?_, ?_⟩
  · rcases range with digit | letter
    · have isDigit : c.isDigit = true := by
        simpa [Char.isDigit, UInt32.le_iff_toNat_le] using digit
      rw [Char.isAlphanum, isDigit, Bool.or_true]
    · have upper : c.toNat ≤ 122 := by omega
      have isLower : c.isLower = true :=
        Bool.and_eq_true_iff.mpr ⟨decide_eq_true letter.1, decide_eq_true upper⟩
      have isAlpha : c.isAlpha = true := Bool.or_eq_true_iff.mpr (.inr isLower)
      rw [Char.isAlphanum, isAlpha, Bool.true_or]
  · rintro rfl
    exact absurd hex (by decide)
  · rintro rfl
    exact absurd hex (by decide)

theorem cchPattern_field (hex : Digits digits) (ends : boundary W text = true) :
    cchPattern W (mark ++ (digits ++ text)) = some 9 := by
  have front : (mark ++ (digits ++ text)).drop 4 = digits ++ text := rfl
  have back : (mark ++ (digits ++ text)).drop 9 = text := by
    rw [← List.append_assoc]
    have length : (mark ++ digits).length = 9 := by
      rw [List.length_append, hex.five]
      rfl
    rw [← length, List.drop_left]
  have all : digits.all isHex = true := List.all_eq_true.mpr hex.hex
  have starts : mark.isPrefixOf (mark ++ (digits ++ text)) = true :=
    List.isPrefixOf_iff_prefix.mpr (List.prefix_append _ _)
  have taken : (digits ++ text).take 5 = digits := by
    rw [← hex.five, List.take_left]
  rw [cchPattern, front, back]
  simp [starts, taken, all, ends, hex.five]

theorem cchPattern_eq_some {n : Nat} (found : cchPattern W text = some n) :
    n = 9 ∧ ∃ digits rest, text = mark ++ (digits ++ rest) ∧ Digits digits ∧
      boundary W rest = true := by
  unfold cchPattern at found
  dsimp only at found
  split_ifs at found with matched
  rw [Bool.and_eq_true, Bool.and_eq_true, Bool.and_eq_true] at matched
  obtain ⟨⟨⟨starts, five⟩, hex⟩, ends⟩ := matched
  obtain ⟨rest, rfl⟩ := List.isPrefixOf_iff_prefix.mp starts
  have front : (mark ++ rest).drop 4 = rest := rfl
  have back : (mark ++ rest).drop 9 = rest.drop 5 := rfl
  rw [front] at five hex
  rw [back] at ends
  refine ⟨(Option.some.inj found).symm, rest.take 5, rest.drop 5, ?_, ?_, ends⟩
  · rw [List.take_append_drop]
  · exact ⟨of_decide_eq_true five, List.all_eq_true.mp hex⟩

theorem SameBut.refl (text : List Char) : SameBut ends text text := by
  induction text with
  | nil => exact .nil
  | cons c _ same => exact .char c same

theorem SameBut.length_eq (same : SameBut ends text text') : text'.length = text.length := by
  induction same with
  | nil => rfl
  | char c _ ih => rw [List.length_cons, List.length_cons, ih]
  | field hex hex' _ _ ih => simp only [List.length_append, hex.five, hex'.five, ih]

theorem SameBut.boundary_eq (same : SameBut ends text text') :
    boundary W text' = boundary W text := by
  cases same with
  | nil => rfl
  | char c _ => rfl
  | field _ _ _ _ => rfl

theorem SameBut.symm (same : SameBut (boundary W) text text') :
    SameBut (boundary W) text' text := by
  induction same with
  | nil => exact .nil
  | char c _ ih => exact .char c ih
  | field hex hex' ends same ih => exact .field hex' hex (same.boundary_eq.trans ends) ih

/-- No mark starts in `pre` when `text` comes behind it. -/
def Quiet : List Char → List Char → Prop
  | [], _ => True
  | c :: pre, text => ¬ mark <+: c :: (pre ++ text) ∧ Quiet pre text

theorem SameBut.quiet (same : SameBut ends (pre ++ text) text') (quiet : Quiet pre text) :
    ∃ rest, text' = pre ++ rest ∧ SameBut ends text rest := by
  induction pre generalizing text' with
  | nil => exact ⟨text', rfl, same⟩
  | cons c pre ih =>
    generalize whole : c :: pre ++ text = full at same
    cases same with
    | nil => cases whole
    | char c' same =>
      obtain ⟨rfl, rfl⟩ := List.cons.inj whole
      obtain ⟨rest, rfl, behind⟩ := ih same quiet.2
      exact ⟨rest, rfl, behind⟩
    | field hex hex' ends same =>
      exact absurd ⟨_, whole.symm⟩ quiet.1

theorem not_mark_of_boundary (stop : boundary W text = true)
    (hex : ∀ d ∈ digits, isHex d = true) : ¬ mark <+: c :: (digits ++ text) := by
  rintro ⟨rest, eq⟩
  have tail : 'c' :: 'h' :: '=' :: rest = digits ++ text := (List.cons.inj eq).2
  rcases digits with _ | ⟨d, _ | ⟨d', digits⟩⟩
  · have word : W.isWord 'c' = true := isWord_of_alphanum (by decide) (by decide)
    rw [List.nil_append] at tail
    rw [← tail, boundary, word] at stop
    exact absurd stop (by decide)
  · have word : W.isWord 'h' = true := isWord_of_alphanum (by decide) (by decide)
    have behind : 'h' :: '=' :: rest = text := (List.cons.inj tail).2
    rw [← behind, boundary, word] at stop
    exact absurd stop (by decide)
  · have letter : 'h' = d' := (List.cons.inj (List.cons.inj tail).2).1
    have hex' : isHex d' = true := hex d' (List.mem_cons_of_mem _ List.mem_cons_self)
    exact (isHex_spec hex').2.2.1 letter.symm

theorem quiet_digits (stop : boundary W text = true) (all : ∀ d ∈ digits, isHex d = true) :
    Quiet digits text := by
  induction digits with
  | nil => trivial
  | cons d digits ih =>
    rw [List.forall_mem_cons] at all
    exact ⟨not_mark_of_boundary stop all.2, ih all.2⟩

/-- A text that starts with a field differs only in digits from texts that start with one. -/
theorem SameBut.field_inv (hex : Digits digits) (stop : boundary W text = true)
    (same : SameBut (boundary W) (mark ++ (digits ++ text)) text') :
    ∃ digits' rest, text' = mark ++ (digits' ++ rest) ∧ Digits digits' ∧
      SameBut (boundary W) text rest := by
  generalize whole : mark ++ (digits ++ text) = full at same
  cases same with
  | nil => cases whole
  | char c same =>
    obtain ⟨rfl, rfl⟩ := List.cons.inj whole
    have letters : Quiet ['c', 'h', '='] (digits ++ text) := by
      refine ⟨?_, ?_, ?_, trivial⟩ <;> rintro ⟨rest, eq⟩ <;> exact absurd eq (by simp [mark])
    obtain ⟨_, rfl, inner⟩ := SameBut.quiet same letters
    obtain ⟨rest, rfl, behind⟩ := SameBut.quiet inner (quiet_digits stop hex.hex)
    exact ⟨digits, rest, rfl, hex, behind⟩
  | @field digits₂ digits' text₂ rest hex₂ hex' _ same =>
    have behind : digits ++ text = digits₂ ++ text₂ := List.append_cancel_left whole
    obtain ⟨rfl, rfl⟩ := List.append_inj behind (hex.five.trans hex₂.five.symm)
    exact ⟨digits', rest, rfl, hex', same⟩

theorem subn_field (hex : Digits digits) (stop : boundary W text = true) :
    subn (cchPattern W) cchReplacement (mark ++ (digits ++ text)) =
      (mark ++ (['0', '0', '0', '0', '0'] ++ (subn (cchPattern W) cchReplacement text).1),
        (subn (cchPattern W) cchReplacement text).2 + 1) := by
  have length : (mark ++ digits).length = 9 := by
    rw [List.length_append, hex.five]
    rfl
  have found : cchPattern W ((mark ++ digits) ++ text) = some (mark ++ digits).length := by
    rw [length, List.append_assoc, cchPattern_field hex stop]
  rw [← List.append_assoc, subn_of_match (List.append_ne_nil_of_left_ne_nil (by decide) _) found]
  rfl

/-- A text is read from the left: a character no field starts at, or a whole field. -/
theorem field_induction {motive : List Char → Prop} (nil : motive [])
    (char : ∀ c rest, cchPattern W (c :: rest) = none → motive rest → motive (c :: rest))
    (field : ∀ digits rest, Digits digits → boundary W rest = true → motive rest →
      motive (mark ++ (digits ++ rest))) (text : List Char) : motive text := by
  induction length : text.length using Nat.strongRecOn generalizing text with
  | _ total ih =>
    subst length
    cases found : cchPattern W text with
    | none =>
      cases text with
      | nil => exact nil
      | cons c rest => exact char c rest found (ih _ (Nat.lt_succ_self _) rest rfl)
    | some n =>
      obtain ⟨-, digits, rest, rfl, hex, stop⟩ := cchPattern_eq_some found
      have shorter : rest.length < (mark ++ (digits ++ rest)).length := by
        rw [List.length_append, List.length_append, hex.five]
        omega
      exact field digits rest hex stop (ih _ shorter rest rfl)

/-- What the rule writes differs from the text at most in the digits of fields. -/
theorem sameBut_subn (text : List Char) :
    SameBut (boundary W) text (subn (cchPattern W) cchReplacement text).1 := by
  induction text using field_induction (W := W) with
  | nil => exact .nil
  | char c rest plain ih =>
    rw [subn_of_none plain]
    exact .char c ih
  | field digits rest hex stop ih =>
    rw [subn_field hex stop]
    exact .field hex ⟨rfl, List.all_eq_true.mp rfl⟩ stop ih

theorem cchPattern_none_of_sameBut (same : SameBut (boundary W) text text')
    (plain : cchPattern W text = none) : cchPattern W text' = none := by
  by_contra some
  obtain ⟨n, found⟩ := Option.ne_none_iff_exists'.mp some
  obtain ⟨-, digits, rest, rfl, hex, stop⟩ := cchPattern_eq_some found
  obtain ⟨digits', rest', rfl, hex', same'⟩ := SameBut.field_inv hex stop same.symm
  rw [cchPattern_field hex' (same'.boundary_eq.trans stop)] at plain
  exact absurd plain (by simp)

/-- Texts that differ only in the digits of fields are rewritten to the same text, with
as many matches. -/
theorem subn_eq_of_sameBut (same : SameBut (boundary W) text text') :
    subn (cchPattern W) cchReplacement text' = subn (cchPattern W) cchReplacement text := by
  induction text using field_induction (W := W) generalizing text' with
  | nil => cases same with | nil => rfl
  | char c rest plain ih =>
    generalize whole : c :: rest = text at same
    cases same with
    | nil => cases whole
    | char c' behind =>
      obtain ⟨rfl, rfl⟩ := List.cons.inj whole
      have plain' := cchPattern_none_of_sameBut (SameBut.char c behind) plain
      rw [subn_of_none plain, subn_of_none plain', ih behind]
    | field hex _ stop _ =>
      rw [whole, cchPattern_field hex stop] at plain
      exact absurd plain (by simp)
  | field digits rest hex stop ih =>
    obtain ⟨digits', rest', rfl, hex', same'⟩ := SameBut.field_inv hex stop same
    rw [subn_field hex stop, subn_field hex' (same'.boundary_eq.trans stop), ih same']

end Fields

section Messages

/-- The content with the digits of every field replaced. -/
def normalize (content : String) : String :=
  String.ofList (subn (cchPattern W) cchReplacement content.toList).1

/-- Two messages that are the same but for digits in the content of a system message. -/
def SameMessage (ends : List Char → Bool) (message message' : Message) : Prop :=
  message' = message ∨ ∃ content content' : String,
    message.get? "role" = some (.str "system") ∧ message.get? "content" = some (.str content) ∧
    SameBut ends content.toList content'.toList ∧
    message' = message.set "content" (.str content')

def textLength : Json → Option Nat
  | .str text => some text.length
  | _ => none

/-- The lengths of the texts of a message, by key. -/
def lengths (message : Message) : List (String × Option Nat) :=
  message.map fun item => (item.1, textLength item.2)

variable {W} {ends : List Char → Bool} {message message' : Message} {content : String}

theorem applyRules_default (content : String) :
    applyRules (defaultRules W) content =
      if 0 < (subn (cchPattern W) cchReplacement content.toList).2 then
        (normalize W content, (subn (cchPattern W) cchReplacement content.toList).2)
      else (content, 0) := by
  unfold applyRules defaultRules
  rw [List.foldl_cons, List.foldl_nil]
  dsimp only [cchNormalization]
  rw [Nat.zero_add, normalize]

theorem apply_system (role : message.get? "role" = some (.str "system"))
    (text : message.get? "content" = some (.str content)) :
    apply (defaultRules W) message = message.set "content" (.str (normalize W content)) := by
  unfold apply
  rw [role, text]
  change (if 0 < (applyRules (defaultRules W) content).2 then
    message.set "content" (.str (applyRules (defaultRules W) content).1) else message) = _
  rw [applyRules_default]
  by_cases some : 0 < (subn (cchPattern W) cchReplacement content.toList).2
  · rw [if_pos some]
    exact if_pos some
  · have same : normalize W content = content := by
      rw [normalize, subn_of_count_zero (Nat.eq_zero_of_not_pos some), String.ofList_toList]
    rw [if_neg some, same, Items.set_get message _ _ text]
    rfl

/-- A message is either left alone or a system message with a text. -/
theorem apply_cases (message : Message) :
    apply (defaultRules W) message = message ∨ ∃ content : String,
      message.get? "role" = some (.str "system") ∧ message.get? "content" = some (.str content) ∧
      apply (defaultRules W) message = message.set "content" (.str (normalize W content)) := by
  by_cases system : ∃ content : String, message.get? "role" = some (.str "system") ∧
      message.get? "content" = some (.str content)
  · obtain ⟨content, role, text⟩ := system
    exact .inr ⟨content, role, text, apply_system role text⟩
  · refine .inl ?_
    unfold apply
    split
    · exact absurd ⟨_, ‹_›, ‹_›⟩ system
    · rfl

theorem sameBut_normalize (content : String) :
    SameBut (boundary W) content.toList (normalize W content).toList := by
  rw [normalize, String.toList_ofList]
  exact sameBut_subn content.toList

theorem sameMessage_apply (message : Message) :
    SameMessage (boundary W) message (apply (defaultRules W) message) := by
  rcases apply_cases (W := W) message with alone | ⟨content, role, text, eq⟩
  · exact .inl alone
  · exact .inr ⟨content, _, role, text, sameBut_normalize content, eq⟩

theorem apply_eq_of_sameMessage (same : SameMessage (boundary W) message message') :
    apply (defaultRules W) message' = apply (defaultRules W) message := by
  rcases same with rfl | ⟨content, content', role, text, same, rfl⟩
  · rfl
  · have role' : (message.set "content" (.str content')).get? "role" = some (.str "system") := by
      rw [Items.get?_set_ne message _ (by decide), role]
    have eq : normalize W content' = normalize W content := by
      rw [normalize, subn_eq_of_sameBut same, normalize]
    rw [apply_system role' (Items.get?_set_self _ _ _), apply_system role text, Items.set_set, eq]

theorem lengths_eq (same : SameMessage ends message message') :
    lengths message' = lengths message := by
  rcases same with rfl | ⟨content, content', _, text, same, rfl⟩
  · rfl
  · refine Items.map_set _ text (congrArg (Prod.mk "content") ?_)
    rw [textLength, textLength, ← String.length_toList, ← String.length_toList, same.length_eq]

theorem map_eq_of_forall₂ {α β : Type} {R : α → α → Prop} {f : α → β} {l l' : List α}
    (eq : ∀ {a a'}, R a a' → f a' = f a) (same : List.Forall₂ R l l') : l'.map f = l.map f := by
  induction same with
  | nil => rfl
  | cons first _ ih => rw [List.map_cons, List.map_cons, eq first, ih]

/-- Sanitising is idempotent, keeps the length of every text and changes nothing but the
five digits of fields in system messages; lists that differ only in such digits become
the same list. -/
theorem sanitize_normal_form (W : WordChars) (messages : List Message) :
    sanitize W (sanitize W messages) = sanitize W messages ∧
    (sanitize W messages).map lengths = messages.map lengths ∧
    List.Forall₂ (SameMessage (boundary W)) messages (sanitize W messages) ∧
    ∀ others, List.Forall₂ (SameMessage (boundary W)) messages others →
      sanitize W others = sanitize W messages := by
  have same : List.Forall₂ (SameMessage (boundary W)) messages (sanitize W messages) := by
    rw [sanitize, List.forall₂_map_right_iff, List.forall₂_same]
    exact fun message _ => sameMessage_apply message
  have equal : ∀ others, List.Forall₂ (SameMessage (boundary W)) messages others →
      sanitize W others = sanitize W messages :=
    fun _ same => map_eq_of_forall₂ apply_eq_of_sameMessage same
  exact ⟨equal _ same, map_eq_of_forall₂ lengths_eq same, same, equal⟩

/-- A text of which the mark is followed by six word characters. -/
def longerWord (digits : List Char) : String := String.ofList (mark ++ (digits ++ ['g']))

def systemMessage (content : String) : Message :=
  [("role", .str "system"), ("content", .str content)]

def asciiWords : WordChars where
  isWord c := c.isAlphanum || c = '_'
  ascii _ _ := rfl

theorem longer_word_kept : ¬ ∀ (W : WordChars) (messages others : List Message),
    List.Forall₂ (SameMessage fun _ => true) messages others →
      sanitize W others = sanitize W messages := by
  intro normal
  have digits : Digits ['a', 'b', 'c', 'd', 'e'] := ⟨rfl, List.all_eq_true.mp rfl⟩
  have digits' : Digits ['1', '2', '3', '4', '5'] := ⟨rfl, List.all_eq_true.mp rfl⟩
  have same : SameMessage (fun _ => true) (systemMessage (longerWord ['a', 'b', 'c', 'd', 'e']))
      (systemMessage (longerWord ['1', '2', '3', '4', '5'])) := by
    refine .inr ⟨_, _, rfl, rfl, ?_, rfl⟩
    rw [longerWord, longerWord, String.toList_ofList, String.toList_ofList]
    exact .field digits digits' rfl (.refl ['g'])
  have kept : ∀ digits ∈ [['a', 'b', 'c', 'd', 'e'], ['1', '2', '3', '4', '5']],
      normalize asciiWords (longerWord digits) = longerWord digits := by
    simp only [longerWord, normalize, String.toList_ofList]
    decide
  have equal := normal asciiWords _ _ (.cons same .nil)
  rw [sanitize, sanitize, List.map_singleton, List.map_singleton, apply_system rfl rfl,
    apply_system rfl rfl, kept _ (by decide), kept _ (by decide)] at equal
  simp [systemMessage, longerWord, Items.set, mark] at equal

end Messages

end TrajProxy.Filters
