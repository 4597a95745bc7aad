import TrajProxy.Library.Effect
import TrajProxy.Parsers.Hermes

/-! What the patterns and the regions of `Hermes2ProToolParser` say about a text, and
that they say the same or more when the text goes on. -/

namespace TrajProxy.Parsers.Hermes
open HeldBack (Grown Grows regions regionsWithin)
open Matching (Reads afterLiteral afterLiteral_eq_some_iff firstMatch)
open TrajProxy.Substring (cut)

section Patterns

def AllSpace (space : List Char) : Prop := ∀ c ∈ space, regexSpace c = true

/-- A run of `\s` before something else is what `\s*` takes. -/
theorem dropWhile_space {space after : List Char} {c : Char} (blank : AllSpace space)
    (other : regexSpace c = false) :
    (space ++ c :: after).dropWhile regexSpace = c :: after := by
  rw [List.dropWhile_append_of_pos blank, List.dropWhile_cons_of_neg (by rw [other]; exact nofun)]

theorem afterLiteral_dropWhile_iff {c : Char} (other : regexSpace c = false)
    {text after : List Char} :
    afterLiteral [c] (text.dropWhile regexSpace) = some after ↔
      ∃ space, AllSpace space ∧ text = space ++ c :: after := by
  rw [afterLiteral_eq_some_iff]
  refine ⟨fun rest => ⟨text.takeWhile regexSpace, fun d mem => List.mem_takeWhile_imp mem, ?_⟩, ?_⟩
  · have whole := List.takeWhile_append_dropWhile (p := regexSpace) (l := text)
    rw [rest] at whole
    exact whole.symm
  · rintro ⟨space, blank, rfl⟩
    exact dropWhile_space blank other

theorem AllSpace.not_mem {space : List Char} {c : Char} (blank : AllSpace space)
    (other : regexSpace c = false) : c ∉ space := by
  intro mem
  rw [blank c mem] at other
  nomatch other

theorem regexSpace_colon : regexSpace ':' = false := by decide

theorem regexSpace_quote : regexSpace '"' = false := by decide

/-- The words of `namePattern`: what it matches, and the name. -/
inductive NameWord : List Char → (List Char → List Char) → Prop
  | mk {space space' name : List Char} (blank : AllSpace space) (blank' : AllSpace space')
      (nonempty : name ≠ []) (plain : '"' ∉ name) :
      NameWord ("\"name\"".toList ++ (space ++ ':' :: (space' ++ '"' :: (name ++ ['"']))))
        fun _ => name

/-- The words of `argumentsPattern`, and the text after them. -/
inductive ArgumentsWord : List Char → (List Char → List Char) → Prop
  | mk {space : List Char} (blank : AllSpace space) :
      ArgumentsWord ("\"arguments\"".toList ++ (space ++ [':'])) (List.dropWhile regexSpace)

/-- Up to the closing quote. -/
theorem takeWhile_quote {name after : List Char} (plain : '"' ∉ name) :
    (name ++ '"' :: after).takeWhile (· ≠ '"') = name := by
  have kept : ∀ c ∈ name, decide (c ≠ '"') = true := by
    intro c mem
    refine decide_eq_true ?_
    rintro rfl
    exact plain mem
  rw [List.takeWhile_append_of_pos kept, List.takeWhile_cons_of_neg (by decide), List.append_nil]

/-- A text is in quotes up to the first one, if there is one. -/
theorem quoted_iff (text name : List Char) :
    (text.takeWhile (· ≠ '"') = name ∧ text.drop name.length ≠ []) ↔
      '"' ∉ name ∧ ∃ after, text = name ++ '"' :: after := by
  constructor
  · rintro ⟨rfl, more⟩
    have whole := List.takeWhile_append_dropWhile (p := fun c => decide (c ≠ '"')) (l := text)
    have plain : '"' ∉ text.takeWhile (· ≠ '"') := fun mem => by
      have other := List.mem_takeWhile_imp mem
      exact of_decide_eq_true other rfl
    refine ⟨plain, ?_⟩
    nth_rewrite 2 [← whole] at more
    rw [List.drop_left] at more
    obtain ⟨c, after, rest⟩ := List.exists_cons_of_ne_nil more
    have quote := List.head_dropWhile_not (fun c => decide (c ≠ '"')) more
    simp only [rest, List.head_cons, decide_eq_false_iff_not, not_not] at quote
    obtain rfl := quote
    exact ⟨after, by rw [← rest, whole]⟩
  · rintro ⟨plain, after, rfl⟩
    rw [List.drop_left]
    exact ⟨takeWhile_quote plain, List.cons_ne_nil _ _⟩

theorem namePattern_eq_some_iff (text name : List Char) :
    namePattern text = some name ↔
      ∃ word value after, NameWord word value ∧ text = word ++ after ∧ value after = name := by
  unfold namePattern
  constructor
  · intro whole
    obtain ⟨first, literal, fromFirst⟩ := Option.bind_eq_some_iff.mp whole
    obtain ⟨second, colon, fromSecond⟩ := Option.bind_eq_some_iff.mp fromFirst
    obtain ⟨third, quote, fromThird⟩ := Option.bind_eq_some_iff.mp fromSecond
    obtain rfl := afterLiteral_eq_some_iff.mp literal
    obtain ⟨space, blank, rfl⟩ := (afterLiteral_dropWhile_iff regexSpace_colon).mp colon
    obtain ⟨space', blank', rfl⟩ := (afterLiteral_dropWhile_iff regexSpace_quote).mp quote
    dsimp only at fromThird
    split at fromThird
    · nomatch fromThird
    · rename_i unfinished
      obtain ⟨nonempty, closed⟩ := not_or.mp unfinished
      obtain ⟨plain, after, rest⟩ := (quoted_iff third _).mp ⟨rfl, closed⟩
      obtain rfl := Option.some.inj fromThird
      refine ⟨_, _, after, .mk blank blank' nonempty plain, ?_, rfl⟩
      nth_rewrite 1 [rest]
      simp only [List.append_assoc, List.cons_append, List.nil_append]
  · rintro ⟨word, value, after, isWord, rfl, rfl⟩
    cases isWord with
    | mk blank blank' nonempty plain =>
      rename_i space space' name
      have literal : afterLiteral "\"name\"".toList ("\"name\"".toList ++
          (space ++ ':' :: (space' ++ '"' :: (name ++ ['"']))) ++ after) =
            some (space ++ ':' :: (space' ++ '"' :: (name ++ ['"'])) ++ after) :=
        afterLiteral_eq_some_iff.mpr (List.append_assoc _ _ _)
      have colon := (afterLiteral_dropWhile_iff regexSpace_colon).mpr
        ⟨space, blank, List.append_assoc space (':' :: (space' ++ '"' :: (name ++ ['"']))) after⟩
      have quote := (afterLiteral_dropWhile_iff regexSpace_quote).mpr
        ⟨space', blank', List.append_assoc space' ('"' :: (name ++ ['"'])) after⟩
      refine Option.bind_eq_some_iff.mpr ⟨_, literal, Option.bind_eq_some_iff.mpr
        ⟨_, colon, Option.bind_eq_some_iff.mpr ⟨_, quote, ?_⟩⟩⟩
      obtain ⟨same, closed⟩ := (quoted_iff (name ++ ['"'] ++ after) name).mpr
        ⟨plain, after, List.append_assoc _ _ _⟩
      rw [List.append_eq, same]
      exact if_neg (not_or.mpr ⟨nonempty, closed⟩)

theorem argumentsPattern_eq_some_iff (text found : List Char) :
    argumentsPattern text = some found ↔
      ∃ word value after, ArgumentsWord word value ∧ text = word ++ after ∧
        value after = found := by
  unfold argumentsPattern
  constructor
  · intro whole
    obtain ⟨first, literal, fromFirst⟩ := Option.bind_eq_some_iff.mp whole
    obtain ⟨after, colon, fromSecond⟩ := Option.bind_eq_some_iff.mp fromFirst
    obtain rfl := afterLiteral_eq_some_iff.mp literal
    obtain ⟨space, blank, rfl⟩ := (afterLiteral_dropWhile_iff regexSpace_colon).mp colon
    refine ⟨_, _, after, .mk blank, ?_, Option.some.inj fromSecond⟩
    simp only [List.append_assoc, List.cons_append, List.nil_append]
  · rintro ⟨word, value, after, isWord, rfl, rfl⟩
    cases isWord with
    | mk blank =>
      rename_i space
      have literal : afterLiteral "\"arguments\"".toList
          ("\"arguments\"".toList ++ (space ++ [':']) ++ after) = some (space ++ [':'] ++ after) :=
        afterLiteral_eq_some_iff.mpr (List.append_assoc _ _ _)
      have colon := (afterLiteral_dropWhile_iff regexSpace_colon).mpr
        ⟨space, blank, List.append_assoc space [':'] after⟩
      exact Option.bind_eq_some_iff.mpr ⟨_, literal, Option.bind_eq_some_iff.mpr ⟨_, colon, rfl⟩⟩

/-- A word ends with the fourth of its quotes. -/
theorem NameWord.quotes {word : List Char} {value : List Char → List Char}
    (isWord : NameWord word value) : ∃ front, word = front ++ ['"'] ∧ front.count '"' = 3 := by
  obtain ⟨blank, blank', nonempty, plain⟩ := isWord
  rename_i space space' name
  refine ⟨"\"name\"".toList ++ (space ++ ':' :: (space' ++ '"' :: name)), ?_, ?_⟩
  · simp only [List.append_assoc, List.cons_append]
  · rw [List.count_append, List.count_append, List.count_cons, List.count_append, List.count_cons,
      List.count_eq_zero.mpr (blank.not_mem regexSpace_quote),
      List.count_eq_zero.mpr (blank'.not_mem regexSpace_quote), List.count_eq_zero.mpr plain]
    rfl

theorem reads_namePattern : Reads namePattern NameWord where
  eq_some_iff := namePattern_eq_some_iff
  apart {word value word' value'} isWord isWord' inside := by
    obtain ⟨front, rfl, three⟩ := isWord.quotes
    obtain ⟨front', rfl, three'⟩ := isWord'.quotes
    have many := inside.sublist.count_le '"'
    rw [List.dropLast_concat, List.count_append, three, three', List.count_singleton_self] at many
    omega

/-- The colon is the end of a word. -/
theorem reads_argumentsPattern : Reads argumentsPattern ArgumentsWord where
  eq_some_iff := argumentsPattern_eq_some_iff
  apart {word value word' value'} isWord isWord' inside := by
    obtain ⟨blank⟩ := isWord
    obtain ⟨blank'⟩ := isWord'
    have mem := inside.subset (a := ':') (by simp)
    rw [← List.append_assoc, List.dropLast_concat] at mem
    obtain literal | space := List.mem_append.mp mem
    · exact absurd literal (by decide)
    · exact blank.not_mem regexSpace_colon space

/-- A name is complete once its quotes are. -/
theorem extractToolName_grows {tcJson longer name : List Char}
    (named : extractToolName tcJson = some name) (grows : tcJson <+: longer) :
    extractToolName longer = some name := by
  obtain ⟨rest, rfl⟩ := grows
  have same : ∀ word value after, NameWord word value → value after = value (after ++ rest) := by
    intro word value after isWord
    cases isWord with
    | mk => rfl
  obtain ⟨_, matched, rfl⟩ := reads_namePattern.firstMatch_append same named
  exact matched

theorem argumentsPattern_append {tcJson raw : List Char}
    (matched : firstMatch argumentsPattern tcJson = some raw) (rest : List Char) :
    ∃ longer, firstMatch argumentsPattern (tcJson ++ rest) = some longer ∧
      (raw = [] ∨ longer = raw ++ rest) := by
  refine reads_argumentsPattern.firstMatch_append
    (R := fun raw longer => raw = [] ∨ longer = raw ++ rest) ?_ matched
  intro word value after isWord
  cases isWord with
  | mk blank =>
    rw [List.dropWhile_append]
    split_ifs with nothing
    · exact .inl (List.isEmpty_iff.mp nothing)
    · exact .inr rfl

theorem argumentsPattern_suffix {tcJson raw : List Char}
    (matched : firstMatch argumentsPattern tcJson = some raw) : raw <:+ tcJson := by
  obtain ⟨suffix, inside, here⟩ := Matching.exists_suffix_of_firstMatch matched
  obtain ⟨word, value, after, isWord, rfl, rfl⟩ := (argumentsPattern_eq_some_iff _ _).mp here
  cases isWord with
  | mk blank =>
    exact ((List.dropWhile_suffix regexSpace).trans (List.suffix_append _ after)).trans inside

end Patterns

/-- The text of the arguments as it is so far, with what follows them. -/
def argumentsText (tcJson : List Char) : List Char := (firstMatch argumentsPattern tcJson).getD []

/-- `_extract_tool_args` of a complete object, if it has any. -/
def completeArguments (tcJson : List Char) : List Char := (extractToolArgs tcJson true).getD []

section Arguments

variable {tcJson longer : List Char} {isComplete : Bool}

theorem extractToolArgs_begins (tcJson : List Char) (isComplete : Bool) :
    (extractToolArgs tcJson isComplete).getD [] <+: argumentsText tcJson := by
  unfold extractToolArgs argumentsText
  cases firstMatch argumentsPattern tcJson with
  | none => exact List.prefix_rfl
  | some raw =>
    simp only [Option.map_some, Option.getD_some]
    split_ifs
    · exact ((rstripped_begins _).trans (List.dropLast_prefix _)).trans (rstripped_begins raw)
    · exact rstripped_begins raw
    · exact List.prefix_rfl

theorem argumentsText_grows (grows : tcJson <+: longer) :
    argumentsText tcJson <+: argumentsText longer := by
  obtain ⟨rest, rfl⟩ := grows
  unfold argumentsText
  cases matched : firstMatch argumentsPattern tcJson with
  | none => exact List.nil_prefix
  | some raw =>
    obtain ⟨later, matched', none | more⟩ := argumentsPattern_append matched rest
    · rw [none]
      exact List.nil_prefix
    · rw [matched', more]
      exact List.prefix_append raw rest

/-- Nothing of an unfinished object is sent that the finished one would not send. -/
theorem argumentsText_prefix_complete (grows : tcJson <+: longer) (unfinished : tcJson ≠ longer)
    (whole : rstripped tcJson = tcJson) (closed : ['}'] <:+ longer) :
    argumentsText tcJson <+: completeArguments longer := by
  obtain ⟨rest, rfl⟩ := grows
  unfold argumentsText completeArguments extractToolArgs
  cases matched : firstMatch argumentsPattern tcJson with
  | none => exact List.nil_prefix
  | some raw =>
    obtain ⟨later, matched', none | more⟩ := argumentsPattern_append matched rest
    · rw [none]
      exact List.nil_prefix
    · rw [matched']
      obtain ⟨front, ended⟩ := closed
      obtain ⟨front', rfl⟩ : ∃ front', rest = front' ++ ['}'] := by
        have nonempty : rest ≠ [] := by
          rintro rfl
          exact unfinished (List.append_nil tcJson).symm
        have last := congrArg List.getLast? ended
        rw [List.getLast?_concat, List.getLast?_append_of_ne_nil _ nonempty] at last
        exact ⟨rest.dropLast, (List.dropLast_append_getLast? '}' last.symm).symm⟩
      have kept := rstripped_of_suffix whole (argumentsPattern_suffix matched)
      simp only [Option.map_some, Option.getD_some, if_true, more, ← List.append_assoc]
      rw [rstripped_concat (by decide), if_pos (List.suffix_append _ _), List.dropLast_concat]
      exact Matching.prefix_rdropWhile kept (List.prefix_append raw front')

end Arguments

section Regions

variable {json : JsonModule} {text : List Char}

/-- What is between the tags of the calls of a text, as it is so far. -/
def bodies (text : List Char) : List (List Char) :=
  (regions toolCallStartToken toolCallEndToken text).map fun region => stripped region.1

/-- A region as `_extract_tool_call_jsons` returns it. -/
def readRegion (json : JsonModule) (region : List Char × Bool) : Except String (List Char × Bool) :=
  let tcJson := stripped region.1
  if region.2 then .ok (tcJson, true)
  else if tcJson.isEmpty then .ok (tcJson, false)
  else do
    let isComplete ← isCompleteJson json tcJson
    pure (tcJson, isComplete)

theorem toolCallJsonsFrom_eq (json : JsonModule) (fuel : Nat) (text : List Char) :
    toolCallJsonsFrom json fuel text =
      (regionsWithin toolCallStartToken toolCallEndToken fuel text).mapM (readRegion json) := by
  induction fuel generalizing text with
  | zero => rfl
  | succ fuel ih =>
    rw [toolCallJsonsFrom, regionsWithin]
    cases cut toolCallStartToken text with
    | none => rfl
    | some parts =>
      obtain ⟨before, body⟩ := parts
      dsimp only
      cases ended : cut toolCallEndToken body with
      | some parts =>
        obtain ⟨inner, after⟩ := parts
        dsimp only
        rw [ih, List.mapM_cons]
        rfl
      | none =>
        have clear : Substring.find toolCallEndToken body = none := Option.map_eq_none_iff.mp ended
        have raw : (if partialTagOverlap body toolCallEndToken = 0 then body
            else body.take (body.length - partialTagOverlap body toolCallEndToken)) =
            HeldBack.released toolCallEndToken body := by
          rw [HeldBack.released_of_none clear]
          split_ifs with zero
          · rw [partialTagOverlap] at zero
            rw [zero, Nat.sub_zero, List.take_length]
          · rfl
        dsimp only
        rw [raw, List.mapM_cons, List.mapM_nil, readRegion]
        simp only [Bool.false_eq_true, if_false]
        split_ifs
        · rfl
        · cases isCompleteJson json (stripped (HeldBack.released toolCallEndToken body)) <;> rfl

/-- What `_extract_tool_call_jsons` says of a call. -/
structure ReadAs (json : JsonModule) (region tc : List Char × Bool) : Prop where
  text : tc.1 = stripped region.1
  closed : region.2 = true → tc.2 = true
  complete : isCompleteJson json tc.1 = .ok true → tc.1 ≠ [] → tc.2 = true

theorem readRegion_ok {region tc : List Char × Bool} (read : readRegion json region = .ok tc) :
    ReadAs json region tc := by
  simp only [readRegion] at read
  split_ifs at read with closed empty
  · obtain rfl := Except.ok.inj read
    exact ⟨rfl, fun _ => rfl, fun _ _ => rfl⟩
  · obtain rfl := Except.ok.inj read
    exact ⟨rfl, fun other => absurd other closed,
      fun _ nonempty => absurd (List.isEmpty_iff.mp empty) nonempty⟩
  · obtain ⟨isComplete, found, read⟩ := bind_eq_ok read
    obtain rfl := Except.ok.inj read
    refine ⟨rfl, fun other => absurd other closed, fun known _ => ?_⟩
    exact Except.ok.inj (found.symm.trans known)

theorem readAs_of_ok {toolCallJsons : List (List Char × Bool)}
    (read : extractToolCallJsons json text = .ok toolCallJsons) :
    List.Forall₂ (ReadAs json) (regions toolCallStartToken toolCallEndToken text)
      toolCallJsons := by
  rw [extractToolCallJsons, toolCallJsonsFrom_eq] at read
  exact (forall₂_of_mapM_ok read).imp fun _ _ => readRegion_ok

theorem bodies_of_ok {toolCallJsons : List (List Char × Bool)}
    (read : extractToolCallJsons json text = .ok toolCallJsons) :
    toolCallJsons.map Prod.fst = bodies text := by
  have all := readAs_of_ok read
  clear read
  unfold bodies
  generalize regions toolCallStartToken toolCallEndToken text = found at all
  induction all with
  | nil => rfl
  | cons head _ ih => rw [List.map_cons, List.map_cons, head.text, ih]

/-- The bodies of a growing text grow, and there are more of them. -/
theorem bodies_append (text rest : List Char) :
    Grown (· <+: ·) (bodies text) (bodies (text ++ rest)) := by
  have opens : toolCallStartToken ≠ [] := by decide
  have closes : toolCallEndToken ≠ [] := by decide
  have grown := HeldBack.regions_append opens closes text rest
  unfold bodies
  generalize regions toolCallStartToken toolCallEndToken text = older at grown
  generalize regions toolCallStartToken toolCallEndToken (text ++ rest) = newer at grown
  induction grown with
  | nil => exact .nil
  | cons head _ ih => exact .cons (stripped_grows head.body) ih

theorem rstripped_of_mem_bodies {tcJson : List Char} (mem : tcJson ∈ bodies text) :
    rstripped tcJson = tcJson := by
  obtain ⟨region, _, rfl⟩ := List.mem_map.mp mem
  exact rstripped_rstripped _

end Regions

end TrajProxy.Parsers.Hermes
