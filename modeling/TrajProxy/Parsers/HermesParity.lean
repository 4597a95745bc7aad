import TrajProxy.Parsers.HermesStream

/-! A stream of calls that a model wrote as `json.dumps` writes them has the names and the
arguments that the one-shot parser finds. -/

namespace TrajProxy.Parsers.Hermes
open HeldBack (regions)
open JsonText (FloatCodec LoadsRaised Readable dumpsBy escapeControl quoteBy skipBlank)
open Matching (afterLiteral afterLiteral_eq_some_iff firstMatch)
open TrajProxy.Substring (Tag cut)

/-- A call in the text of a model, and the text up to the next one. -/
structure WrittenCall where
  name : String
  arguments : Items Json
  before : List Char
  after : List Char
  between : List Char

namespace WrittenCall

def value (call : WrittenCall) : Json :=
  .obj [("name", .str call.name), ("arguments", .obj call.arguments)]

variable (floats : FloatCodec)

def argumentsText (call : WrittenCall) : List Char := dumpsBy floats .control (.obj call.arguments)

def body (call : WrittenCall) : List Char := dumpsBy floats .control call.value

/-- What stands between the tags. -/
def inner (call : WrittenCall) : List Char := call.before ++ (call.body floats ++ call.after)

def text (call : WrittenCall) : List Char :=
  toolCallStartToken ++ (call.inner floats ++ (toolCallEndToken ++ call.between))

/-- The name needs no escapes, and the tags only stand around the calls. -/
structure Admissible (call : WrittenCall) : Prop where
  before : skipBlank call.before = []
  after : skipBlank call.after = []
  name : call.name ≠ ""
  plain : ∀ c ∈ call.name.toList, escapeControl c = [c]
  arguments : Readable floats (.obj call.arguments)
  closes : ¬toolCallEndToken <:+: call.inner floats
  others : ¬toolCallStartToken <:+: call.between

end WrittenCall

section Text

variable {floats : FloatCodec} {call : WrittenCall}

theorem flatMap_plain {name : List Char} (plain : ∀ c ∈ name, escapeControl c = [c]) :
    name.flatMap escapeControl = name := by
  induction name with
  | nil => rfl
  | cons c name ih =>
    obtain ⟨here, later⟩ := List.forall_mem_cons.mp plain
    rw [List.flatMap_cons, here, ih later]
    rfl

/-- The object as text. -/
theorem WrittenCall.Admissible.body_eq (admissible : call.Admissible floats) :
    call.body floats = '{' :: ("\"name\"".toList ++ (": \"".toList ++ (call.name.toList ++
      ("\", ".toList ++ ("\"arguments\"".toList ++ (": ".toList ++
        (call.argumentsText floats ++ ['}']))))))) := by
  have name : quoteBy .control call.name = '"' :: (call.name.toList ++ ['"']) :=
    congrArg (fun text => '"' :: (text ++ ['"'])) (flatMap_plain admissible.plain)
  have keys : quoteBy .control "name" = "\"name\"".toList ∧
      quoteBy .control "arguments" = "\"arguments\"".toList := by decide
  rw [body, value, dumpsBy, JsonText.dumpsEntriesBy, JsonText.dumpsEntriesBy,
    JsonText.dumpsEntriesBy, keys.1, keys.2, dumpsBy, name, argumentsText]
  simp [JsonText.commaSeparated]

theorem WrittenCall.Admissible.noQuote (admissible : call.Admissible floats) :
    '"' ∉ call.name.toList := by
  intro mem
  have other := admissible.plain _ mem
  exact absurd other (by decide)

/-- The arguments are in braces. -/
theorem argumentsText_braces (floats : FloatCodec) (call : WrittenCall) :
    ∃ inner, call.argumentsText floats = '{' :: inner ∧
      ∃ front, call.argumentsText floats = front ++ ['}'] := by
  rw [WrittenCall.argumentsText, dumpsBy]
  exact ⟨_, rfl, '{' :: _, rfl⟩

theorem namePattern_cons {c : Char} (other : c ≠ '"') (text : List Char) :
    namePattern (c :: text) = none := by
  have literal : afterLiteral "\"name\"".toList (c :: text) = none :=
    if_neg fun begins => other (List.cons_prefix_cons.mp begins).1.symm
  rw [namePattern, literal]
  rfl

theorem argumentsPattern_cons {c : Char} (other : c ≠ '"') (text : List Char) :
    argumentsPattern (c :: text) = none := by
  have literal : afterLiteral "\"arguments\"".toList (c :: text) = none :=
    if_neg fun begins => other (List.cons_prefix_cons.mp begins).1.symm
  rw [argumentsPattern, literal]
  rfl

theorem argumentsPattern_quote {c : Char} (other : c ≠ 'a') (text : List Char) :
    argumentsPattern ('"' :: c :: text) = none := by
  have literal : afterLiteral "\"arguments\"".toList ('"' :: c :: text) = none :=
    if_neg fun begins =>
      other (List.cons_prefix_cons.mp (List.cons_prefix_cons.mp begins).2).1.symm
  rw [argumentsPattern, literal]
  rfl

/-- A string that is followed by a comma is no key. -/
theorem argumentsPattern_string {name after : List Char} (plain : '"' ∉ name) :
    argumentsPattern ('"' :: (name ++ '"' :: ',' :: after)) = none := by
  cases matched : argumentsPattern ('"' :: (name ++ '"' :: ',' :: after)) with
  | none => rfl
  | some found =>
    obtain ⟨word, value, rest, isWord, whole, -⟩ := (argumentsPattern_eq_some_iff _ _).mp matched
    cases isWord with
    | @mk space blank =>
      have key : "\"arguments\"".toList = '"' :: ("arguments".toList ++ ['"']) := by decide
      rw [key, List.append_assoc, List.cons_append, List.append_assoc, List.append_assoc,
        List.singleton_append, List.singleton_append] at whole
      have same : name ++ '"' :: ',' :: after =
          "arguments".toList ++ '"' :: (space ++ ':' :: rest) := (List.cons.inj whole).2
      have names := congrArg (List.takeWhile (· ≠ '"')) same
      rw [takeWhile_quote plain, takeWhile_quote (by decide)] at names
      rw [names, List.append_cancel_left_eq] at same
      cases space with
      | nil => exact absurd (List.cons.inj (List.cons.inj same).2).1 (by decide)
      | cons d space =>
        obtain ⟨rfl, _⟩ := List.cons.inj (List.cons.inj same).2
        exact absurd (blank ',' List.mem_cons_self) (by decide)

/-- The name is found. -/
theorem WrittenCall.Admissible.extractToolName (admissible : call.Admissible floats) :
    extractToolName (call.body floats) = some call.name.toList := by
  rw [admissible.body_eq, Hermes.extractToolName,
    Matching.firstMatch_cons (namePattern_cons (by decide) _)]
  refine Matching.firstMatch_of_head ((namePattern_eq_some_iff _ _).mpr ?_)
  refine ⟨_, _, ", ".toList ++ ("\"arguments\"".toList ++ (": ".toList ++
    (call.argumentsText floats ++ ['}']))), @NameWord.mk [] [' '] call.name.toList nofun
    (List.forall_mem_singleton.mpr (by decide)) ?_ admissible.noQuote, ?_, rfl⟩
  · exact fun none => admissible.name (String.toList_eq_nil_iff.mp none)
  · simp

/-- The arguments are found, with the brace that closes the object. -/
theorem WrittenCall.Admissible.argumentsPattern (admissible : call.Admissible floats) :
    firstMatch argumentsPattern (call.body floats) =
      some (call.argumentsText floats ++ ['}']) := by
  have skips : ∀ {before : List Char}, '"' ∉ before → ∀ text,
      firstMatch Hermes.argumentsPattern (before ++ text) =
        firstMatch Hermes.argumentsPattern text := by
    intro before plain text
    refine Matching.firstMatch_skip (fun c mem xs => argumentsPattern_cons ?_ xs) text
    rintro rfl
    exact plain mem
  obtain ⟨inner, begins, -⟩ := argumentsText_braces floats call
  have value : (": ".toList ++ (call.argumentsText floats ++ ['}'])) =
      ':' :: ' ' :: (call.argumentsText floats ++ ['}']) := rfl
  rw [admissible.body_eq]
  change firstMatch Hermes.argumentsPattern ('{' :: '"' :: 'n' :: ("ame".toList ++ ('"' :: ':' ::
    (" ".toList ++ ('"' :: (call.name.toList ++ ('"' :: ',' :: (" ".toList ++
      ("\"arguments\"".toList ++ (": ".toList ++ (call.argumentsText floats ++ ['}']))))))))))) = _
  rw [Matching.firstMatch_cons (argumentsPattern_cons (by decide) _),
    Matching.firstMatch_cons (argumentsPattern_quote (by decide) _),
    Matching.firstMatch_cons (argumentsPattern_cons (by decide) _), skips (by decide),
    Matching.firstMatch_cons (argumentsPattern_quote (by decide) _),
    Matching.firstMatch_cons (argumentsPattern_cons (by decide) _), skips (by decide),
    Matching.firstMatch_cons (argumentsPattern_string admissible.noQuote),
    skips admissible.noQuote,
    Matching.firstMatch_cons (argumentsPattern_quote (by decide) _),
    Matching.firstMatch_cons (argumentsPattern_cons (by decide) _), skips (by decide)]
  refine Matching.firstMatch_of_head ((argumentsPattern_eq_some_iff _ _).mpr ?_)
  refine ⟨_, _, ' ' :: (call.argumentsText floats ++ ['}']), @ArgumentsWord.mk [] nofun, rfl, ?_⟩
  rw [begins]
  rfl

theorem WrittenCall.Admissible.completeArguments (admissible : call.Admissible floats) :
    completeArguments (call.body floats) = call.argumentsText floats := by
  obtain ⟨-, -, front, ends⟩ := argumentsText_braces floats call
  rw [Hermes.completeArguments, extractToolArgs, admissible.argumentsPattern]
  simp only [Option.map_some, Option.getD_some, if_true]
  rw [rstripped_concat (by decide), if_pos (List.suffix_append _ _), List.dropLast_concat, ends,
    rstripped_concat (by decide)]

theorem body_braces (floats : FloatCodec) (call : WrittenCall) :
    ∃ inner, call.body floats = '{' :: inner ∧ ∃ front, call.body floats = front ++ ['}'] := by
  rw [WrittenCall.body, WrittenCall.value, dumpsBy]
  exact ⟨_, rfl, '{' :: _, rfl⟩

/-- The object is one to `json`. -/
theorem WrittenCall.Admissible.readable (admissible : call.Admissible floats) :
    Readable floats call.value := by
  refine .obj ?_ ?_
  · change ["name", "arguments"].Nodup
    decide
  intro item mem
  obtain rfl | last := List.mem_cons.mp mem
  · exact .str call.name
  · rw [List.mem_singleton.mp last]
    exact admissible.arguments

theorem WrittenCall.Admissible.conforms (admissible : call.Admissible floats)
    (partialLoads : List Char → Except LoadsRaised Json) :
    Conforms (.standard floats partialLoads) (call.body floats) := by
  obtain ⟨-, -, front, ends⟩ := body_braces floats call
  have read := JsonText.loads_written .control admissible.readable
  refine ⟨?_, ends ▸ List.suffix_append _ _⟩
  have known : (JsonModule.standard floats partialLoads).loads (call.body floats) =
      .ok call.value := read
  rw [isCompleteJson, known]

end Text

section Agreement

variable {floats : FloatCodec} {partialLoads : List Char → Except LoadsRaised Json}
  {content : List Char} {written : List WrittenCall}

/-- The text of the model. -/
def writtenText (floats : FloatCodec) (content : List Char) (written : List WrittenCall) :
    List Char :=
  content ++ written.flatMap (WrittenCall.text floats)

theorem map_eq_of_forall₂ {α β γ : Type} {R : α → β → Prop} {f : α → γ} {g : β → γ}
    {as : List α} {bs : List β} (each : List.Forall₂ R as bs)
    (same : ∀ a ∈ as, ∀ b, R a b → g b = f a) : bs.map g = as.map f := by
  induction each with
  | nil => rfl
  | cons head _ ih =>
    obtain ⟨here, later⟩ := List.forall_mem_cons.mp same
    rw [List.map_cons, List.map_cons, here _ head, ih later]

end Agreement

end TrajProxy.Parsers.Hermes
