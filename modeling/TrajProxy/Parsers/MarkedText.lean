import TrajProxy.Library.Search
import TrajProxy.Parsers.ThinkingStream

/-! Token sequences with their decoded text, and what `extract_reasoning` of the base
class says of the text: where the markers are kept it splits the tokens at them, and
where they are stripped it finds none. -/

namespace TrajProxy.Parsers
open Search

/-- Whether decoding keeps the marker tokens or skips them as special tokens. -/
inductive Decoding
  | kept
  | stripped
  deriving DecidableEq

def Decoding.shows : Decoding → String → String
  | .kept, marker => marker
  | .stripped, _ => ""

/-- A token sequence with at most one start and one end marker. The decoded text has a
marker only where the marker's token put it. -/
structure Markers.Marked (M : Markers) (decoding : Decoding) (tokens : List Token) : Prop where
  start_once : (tokenIds tokens).count M.startTokenId ≤ 1
  end_once : (tokenIds tokens).count M.endTokenId ≤ 1
  start_text : ∀ token ∈ tokens, token.id = M.startTokenId →
    token.text = decoding.shows M.startToken
  end_text : ∀ token ∈ tokens, token.id = M.endTokenId → token.text = decoding.shows M.endToken
  start_shown : ∀ run, run <:+: tokens → M.startToken.toList <:+: chars run →
    decoding = .kept ∧ M.startTokenId ∈ tokenIds run
  end_shown : ∀ run, run <:+: tokens → M.endToken.toList <:+: chars run →
    decoding = .kept ∧ M.endTokenId ∈ tokenIds run

def Spoken.ofPair (pair : Option String × Option String) : Spoken :=
  ⟨(pair.1.getD "").toList, (pair.2.getD "").toList⟩

def Token.isId (id : Int) (token : Token) : Bool := token.id = id

/-- The tokens before and after the end marker, or all of them before it. -/
def Markers.splitEnd (M : Markers) (body : List Token) : Spoken :=
  match splitFirst (Token.isId M.endTokenId) body with
  | none => ⟨chars body, []⟩
  | some (before, _, after) => ⟨chars before, chars after⟩

variable {M : Markers} {decoding : Decoding} {tokens run before after : List Token}
  {token : Token} {id : Int}

section Tokens

theorem mem_tokenIds : id ∈ tokenIds tokens ↔ ∃ token ∈ tokens, token.id = id := List.mem_map

theorem isId_eq_false_iff : (∀ token ∈ tokens, token.isId id = false) ↔ id ∉ tokenIds tokens := by
  simp [mem_tokenIds, Token.isId]

/-- A marker token of a sequence with what is before and after it. -/
structure At (id : Int) (before : List Token) (token : Token) (after : List Token) : Prop where
  here : token.id = id
  before : id ∉ tokenIds before
  after : id ∉ tokenIds after

theorem notMem_of_once {more : List Token} (once : (tokenIds (tokens ++ more)).count id ≤ 1)
    (mem : id ∈ tokenIds tokens) : id ∉ tokenIds more := by
  intro again
  have first := List.count_pos_iff.mpr mem
  have second := List.count_pos_iff.mpr again
  rw [tokenIds_append, List.count_append] at once
  omega

theorem at_of_once (once : (tokenIds (before ++ token :: after)).count id ≤ 1)
    (here : token.id = id) : At id before token after := by
  rw [tokenIds_append, tokenIds_cons, here, List.count_append, List.count_cons_self] at once
  refine ⟨here, fun mem => ?_, fun mem => ?_⟩
  · have twice := List.count_pos_iff.mpr mem
    omega
  · have twice := List.count_pos_iff.mpr mem
    omega

theorem exists_at (once : (tokenIds tokens).count id ≤ 1) (mem : id ∈ tokenIds tokens) :
    ∃ before token after, tokens = before ++ token :: after ∧ At id before token after := by
  obtain ⟨token, mem, here⟩ := mem_tokenIds.mp mem
  obtain ⟨before, after, rfl⟩ := List.append_of_mem mem
  exact ⟨before, token, after, rfl, at_of_once once here⟩

theorem At.splitFirst (at_ : At id before token after) :
    Search.splitFirst (Token.isId id) (before ++ token :: after) = some (before, token, after) :=
  splitFirst_append (decide_eq_true at_.here) (isId_eq_false_iff.mpr at_.before)

theorem splitFirst_eq_none (fresh : id ∉ tokenIds tokens) :
    Search.splitFirst (Token.isId id) tokens = none :=
  splitFirst_eq_none_iff.mpr (isId_eq_false_iff.mpr fresh)

theorem Markers.Marked.part (marked : M.Marked decoding tokens) (part : run <:+: tokens) :
    M.Marked decoding run where
  start_once := Nat.le_trans ((part.sublist.map _).count_le _) marked.start_once
  end_once := Nat.le_trans ((part.sublist.map _).count_le _) marked.end_once
  start_text token mem := marked.start_text token (part.subset mem)
  end_text token mem := marked.end_text token (part.subset mem)
  start_shown run inner := marked.start_shown run (inner.trans part)
  end_shown run inner := marked.end_shown run (inner.trans part)

theorem Markers.Marked.start_clear (marked : M.Marked decoding tokens)
    (fresh : M.startTokenId ∉ tokenIds tokens) : ¬M.startToken.toList <:+: chars tokens :=
  fun shown => fresh (marked.start_shown tokens List.infix_rfl shown).2

theorem Markers.Marked.end_clear (marked : M.Marked decoding tokens)
    (fresh : M.endTokenId ∉ tokenIds tokens) : ¬M.endToken.toList <:+: chars tokens :=
  fun shown => fresh (marked.end_shown tokens List.infix_rfl shown).2

theorem Markers.Marked.start_hidden (marked : M.Marked .stripped tokens) :
    ¬M.startToken.toList <:+: chars tokens :=
  fun shown => (nomatch (marked.start_shown tokens List.infix_rfl shown).1)

theorem Markers.Marked.end_hidden (marked : M.Marked .stripped tokens) :
    ¬M.endToken.toList <:+: chars tokens :=
  fun shown => (nomatch (marked.end_shown tokens List.infix_rfl shown).1)

end Tokens

section OneShot

theorem stripStart_of_clear {text : String} (clear : ¬M.startToken.toList <:+: text.toList) :
    M.stripStart text = text := by
  rw [Markers.stripStart, Text.partition_of_clear clear]
  rfl

theorem stripStart_decoded (clear : ¬M.startToken.toList <:+: chars tokens) :
    (M.stripStart (decoded tokens)).toList = chars tokens := by
  rw [← toList_decoded] at clear
  rw [stripStart_of_clear clear, toList_decoded]

theorem stripStart_of_tag {text : String} {before after : List Char}
    (clear : ¬M.startToken.toList <:+: before)
    (shown : text.toList = before ++ (M.startToken.toList ++ after)) :
    (M.stripStart text).toList = after := by
  have marker : M.startToken ≠ "" := fun empty =>
    M.startToken_tag.ne_nil (String.toList_eq_nil_iff.mpr empty)
  rw [Markers.stripStart, Text.partition_of_tag M.startToken_tag clear shown]
  dsimp only
  rw [if_pos marker, String.toList_ofList]

theorem extractReasoning_of_clear {text : String} {body : List Char}
    (strip : (M.stripStart text).toList = body) (clear : ¬M.endToken.toList <:+: body) :
    Spoken.ofPair (M.extractReasoning text) = ⟨body, []⟩ := by
  obtain rfl := strip
  rw [Markers.extractReasoning, Text.contains_of_clear clear]
  rfl

theorem getD_nonempty (text : String) : (nonempty text).getD "" = text := by
  unfold nonempty
  split_ifs with empty
  · exact empty.symm
  · rfl

theorem extractReasoning_of_tag {text : String} {before after : List Char}
    (strip : (M.stripStart text).toList = before ++ (M.endToken.toList ++ after))
    (clear : ¬M.endToken.toList <:+: before) :
    Spoken.ofPair (M.extractReasoning text) = ⟨before, after⟩ := by
  have base : M.extractReasoning text =
      (some (String.ofList before), nonempty (String.ofList after)) := by
    rw [Markers.extractReasoning, Text.contains_of_tag M.endToken_tag clear strip,
      Text.partition_of_tag M.endToken_tag clear strip]
    rfl
  rw [base, Spoken.ofPair, getD_nonempty, String.toList_ofList, Option.getD_some,
    String.toList_ofList]

theorem Markers.Marked.chars_end (marked : M.Marked decoding (before ++ token :: after))
    (here : token.id = M.endTokenId) : chars (before ++ token :: after) =
      chars before ++ ((decoding.shows M.endToken).toList ++ chars after) := by
  rw [chars_append, chars_cons, marked.end_text token (by simp) here]

theorem Markers.Marked.chars_start (marked : M.Marked decoding (before ++ token :: after))
    (here : token.id = M.startTokenId) : chars (before ++ token :: after) =
      chars before ++ ((decoding.shows M.startToken).toList ++ chars after) := by
  rw [chars_append, chars_cons, marked.start_text token (by simp) here]

theorem Markers.Marked.left (marked : M.Marked decoding (before ++ token :: after)) :
    M.Marked decoding before :=
  marked.part (List.prefix_append before _).isInfix

theorem after_part : after <:+: before ++ token :: after :=
  ((List.suffix_cons token after).trans (List.suffix_append before _)).isInfix

theorem Markers.Marked.right (marked : M.Marked decoding (before ++ token :: after)) :
    M.Marked decoding after :=
  marked.part after_part

theorem splitEnd_of_notMem (unended : M.endTokenId ∉ tokenIds tokens) :
    M.splitEnd tokens = ⟨chars tokens, []⟩ := by
  rw [Markers.splitEnd, splitFirst_eq_none unended]

theorem splitEnd_of_at (at_ : At M.endTokenId before token after) :
    M.splitEnd (before ++ token :: after) = ⟨chars before, chars after⟩ := by
  rw [Markers.splitEnd, at_.splitFirst]

/-- The part of `extract_reasoning` after the start marker. -/
theorem extractReasoning_split {text : String} (marked : M.Marked .kept tokens)
    (strip : (M.stripStart text).toList = chars tokens) :
    Spoken.ofPair (M.extractReasoning text) = M.splitEnd tokens := by
  by_cases mem : M.endTokenId ∈ tokenIds tokens
  · obtain ⟨before, token, after, rfl, at_⟩ := exists_at marked.end_once mem
    rw [splitEnd_of_at at_]
    exact extractReasoning_of_tag (strip.trans (marked.chars_end at_.here))
      (marked.left.end_clear at_.before)
  · rw [splitEnd_of_notMem mem]
    exact extractReasoning_of_clear strip (marked.end_clear mem)

/-- The text after the start marker. -/
theorem stripStart_at (marked : M.Marked .kept (before ++ token :: after))
    (at_ : At M.startTokenId before token after) :
    (M.stripStart (decoded (before ++ token :: after))).toList = chars after :=
  stripStart_of_tag (marked.left.start_clear at_.before)
    ((toList_decoded _).trans (marked.chars_start at_.here))

/-- What `extract_reasoning` says where the markers are kept. -/
theorem extractReasoning_kept (marked : M.Marked .kept tokens) :
    Spoken.ofPair (M.extractReasoning (decoded tokens)) = M.splitEnd
      (match splitFirst (Token.isId M.startTokenId) tokens with
      | none => tokens
      | some (_, _, body) => body) := by
  by_cases mem : M.startTokenId ∈ tokenIds tokens
  · obtain ⟨before, token, after, rfl, at_⟩ := exists_at marked.start_once mem
    rw [at_.splitFirst]
    exact extractReasoning_split marked.right (stripStart_at marked at_)
  · rw [splitFirst_eq_none mem]
    exact extractReasoning_split marked (stripStart_decoded (marked.start_clear mem))

/-- Where they are stripped there is nothing to find. -/
theorem extractReasoning_stripped (marked : M.Marked .stripped tokens) :
    Spoken.ofPair (M.extractReasoning (decoded tokens)) = ⟨chars tokens, []⟩ :=
  extractReasoning_of_clear (stripStart_decoded marked.start_hidden) marked.end_hidden

end OneShot

end TrajProxy.Parsers
