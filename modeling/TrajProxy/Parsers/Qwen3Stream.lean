import Mathlib.Data.List.TakeWhile
import TrajProxy.Parsers.MarkedStream

/-! `Qwen3ReasoningParser` on a stream and on the whole text. Both strip the start
marker, and both take `<tool_call>` for an end of the reasoning, the stream by its id
and the whole text by the tag. -/

namespace TrajProxy.Parsers
open Search

/-- The decoded text of a token sequence has `<tool_call>` only where its token put it;
it may be kept where the markers are stripped. The tag's id is its own. -/
structure Qwen3.Tagged (M : Markers) (Q : Qwen3) (shown : Decoding) (tokens : List Token) :
    Prop where
  start_ne : Q.toolCallTokenId ≠ some M.startTokenId
  tool_text : ∀ token ∈ tokens, Q.toolCallTokenId = some token.id →
    token.text = shown.shows toolCallTag
  tool_shown : ∀ run, run <:+: tokens → toolCallTag.toList <:+: chars run →
    shown = .kept ∧ Q.callsTool (tokenIds run) = true

theorem toolCallTag_tag : Substring.Tag toolCallTag.toList :=
  ⟨'<', "tool_call>".toList, by decide, by decide⟩

/-- The text before the first `<tool_call>`, and the text from it on. -/
def cutTool (text : List Char) : Spoken :=
  match Substring.find toolCallTag.toList text with
  | none => ⟨text, []⟩
  | some index => ⟨text.take index, text.drop index⟩

/-- What `extract_reasoning` says of a text without an end marker. -/
def Qwen3.whole (Q : Qwen3) (text : List Char) : Spoken :=
  if Q.thinkingEnabled then cutTool text else ⟨[], text⟩

/-- The token of `<tool_call>`. -/
def Qwen3.calls (Q : Qwen3) (token : Token) : Bool := decide (Q.toolCallTokenId = some token.id)

/-- The tokens before the first `<tool_call>` and from it on, if the text shows it. -/
def Qwen3.cutCalls (Q : Qwen3) : Decoding → List Token → List Token × List Token
  | .kept, tokens =>
    (tokens.takeWhile fun token => !Q.calls token, tokens.dropWhile fun token => !Q.calls token)
  | .stripped, tokens => (tokens, [])

variable {M : Markers} {Q : Qwen3} {decoding shown : Decoding} {previous : List Int}
  {tokens run before after : List Token} {token : Token} {chunk : List Token}
  {chunks earlier later : List (List Token)}

section Calls

@[simp] theorem callsTool_append (ids more : List Int) :
    Q.callsTool (ids ++ more) = (Q.callsTool ids || Q.callsTool more) := List.any_append

@[simp] theorem callsTool_cons (token : Token) (tokens : List Token) :
    Q.callsTool (tokenIds (token :: tokens)) =
      (Q.calls token || Q.callsTool (tokenIds tokens)) := rfl

theorem callsTool_eq_false_iff :
    Q.callsTool (tokenIds tokens) = false ↔ ∀ token ∈ tokens, Q.calls token = false := by
  rw [tokenIds, Qwen3.callsTool, List.any_map, List.any_eq_false]
  simp only [Qwen3.calls, Function.comp_def, decide_eq_true_eq, decide_eq_false_iff_not]

theorem exists_call (calls : Q.callsTool (tokenIds tokens) = true) :
    ∃ before token after, tokens = before ++ token :: after ∧ Q.calls token = true ∧
      Q.callsTool (tokenIds before) = false := by
  by_contra none
  refine Bool.false_ne_true (Eq.trans (callsTool_eq_false_iff.mpr fun token mem => ?_).symm calls)
  by_contra here
  obtain ⟨before, first, after, rfl, found, clear⟩ :=
    splitFirst_of_mem (p := Q.calls) mem (Bool.not_eq_false _ ▸ here)
  exact none ⟨before, first, after, rfl, found, callsTool_eq_false_iff.mpr clear⟩

theorem Qwen3.Tagged.part (tagged : Q.Tagged M shown tokens) (part : run <:+: tokens) :
    Q.Tagged M shown run where
  start_ne := tagged.start_ne
  tool_text token mem := tagged.tool_text token (part.subset mem)
  tool_shown run inner := tagged.tool_shown run (inner.trans part)

theorem cutCalls_of_uncalled (uncalled : Q.callsTool (tokenIds tokens) = false) :
    Q.cutCalls shown tokens = (tokens, []) := by
  cases shown with
  | stripped => rfl
  | kept =>
    have all : ∀ token ∈ tokens, (!Q.calls token) = true := by
      intro token mem
      rw [callsTool_eq_false_iff.mp uncalled token mem]
      rfl
    rw [Qwen3.cutCalls, List.takeWhile_eq_self_iff.mpr all, List.dropWhile_eq_nil_iff.mpr all]

theorem cutCalls_of_call (calls : Q.calls token = true)
    (clear : Q.callsTool (tokenIds before) = false) :
    Q.cutCalls .kept (before ++ token :: after) = (before, token :: after) := by
  have all : ∀ token ∈ before, (!Q.calls token) = true := by
    intro token mem
    rw [callsTool_eq_false_iff.mp clear token mem]
    rfl
  rw [Qwen3.cutCalls, List.takeWhile_append_of_pos all, List.dropWhile_append_of_pos all,
    List.takeWhile_cons_of_neg (by simp [calls]), List.dropWhile_cons_of_neg (by simp [calls]),
    List.append_nil]

theorem cutCalls_append (tokens : List Token) :
    (Q.cutCalls shown tokens).1 ++ (Q.cutCalls shown tokens).2 = tokens := by
  cases shown with
  | kept => exact List.takeWhile_append_dropWhile
  | stripped => exact List.append_nil tokens

end Calls

section Cutting

variable {text first rest : List Char}

theorem cutTool_of_clear (clear : ¬toolCallTag.toList <:+: text) : cutTool text = ⟨text, []⟩ := by
  rw [cutTool, Substring.find_eq_none_iff.mpr clear]

theorem cutTool_of_tag (clear : ¬toolCallTag.toList <:+: first) :
    cutTool (first ++ (toolCallTag.toList ++ rest)) = ⟨first, toolCallTag.toList ++ rest⟩ := by
  rw [cutTool, toolCallTag_tag.find clear]
  dsimp only
  rw [List.take_left, List.drop_left]

/-- The tag is cut off where its token is. -/
theorem cutTool_chars (tagged : Q.Tagged M shown tokens) :
    cutTool (chars tokens) =
      ⟨chars (Q.cutCalls shown tokens).1, chars (Q.cutCalls shown tokens).2⟩ := by
  cases calls : Q.callsTool (tokenIds tokens) with
  | false =>
    rw [cutCalls_of_uncalled calls, cutTool_of_clear fun there => ?_]
    · rfl
    · rw [(tagged.tool_shown tokens List.infix_rfl there).2] at calls
      nomatch calls
  | true =>
    cases shown with
    | stripped =>
      rw [Qwen3.cutCalls, cutTool_of_clear fun there => ?_]
      · rfl
      · nomatch (tagged.tool_shown tokens List.infix_rfl there).1
    | kept =>
      obtain ⟨before, token, after, rfl, here, clear⟩ := exists_call calls
      have text := tagged.tool_text token (by simp) (of_decide_eq_true here)
      rw [cutCalls_of_call here clear, chars_append, chars_cons, text]
      refine cutTool_of_tag fun there => ?_
      have part : before <:+: before ++ token :: after := (List.prefix_append before _).isInfix
      rw [(tagged.tool_shown before part there).2] at clear
      nomatch clear

end Cutting

section OneShot

variable {text : String} {body first rest : List Char}

theorem qwen3_extractReasoning_of_tag
    (strip : (M.stripStart text).toList = first ++ (M.endToken.toList ++ rest))
    (clear : ¬M.endToken.toList <:+: first) :
    Spoken.ofPair (Q.extractReasoning M text) = ⟨first, rest⟩ := by
  have pair : Q.extractReasoning M text =
      (some (String.ofList first), nonempty (String.ofList rest)) := by
    rw [Qwen3.extractReasoning, Text.contains_of_tag M.endToken_tag clear strip,
      Text.partition_of_tag M.endToken_tag clear strip]
    rfl
  rw [pair, Spoken.ofPair, getD_nonempty, String.toList_ofList, Option.getD_some,
    String.toList_ofList]

theorem ofPair_nonempty (reasoning content : String) :
    Spoken.ofPair (nonempty reasoning, nonempty content) = ⟨reasoning.toList, content.toList⟩ := by
  rw [Spoken.ofPair, getD_nonempty, getD_nonempty]

theorem qwen3_extractReasoning_of_clear (strip : (M.stripStart text).toList = body)
    (clear : ¬M.endToken.toList <:+: body) :
    Spoken.ofPair (Q.extractReasoning M text) = Q.whole body := by
  obtain rfl := strip
  rw [Qwen3.extractReasoning, Text.contains_of_clear clear, Qwen3.whole]
  cases Q.thinkingEnabled with
  | false => rfl
  | true =>
    rw [cutTool, Text.find]
    dsimp only
    rw [if_neg Bool.false_ne_true, if_neg Bool.noConfusion]
    cases Substring.find toolCallTag.toList (M.stripStart text).toList with
    | none => rfl
    | some index =>
      have found : (index : Int) ≠ -1 := by omega
      dsimp only
      rw [if_pos found, ofPair_nonempty, Text.toList_upTo, Text.toList_startingAt,
        Slice.upTo_natCast, Slice.startingAt_natCast]
      rfl

end OneShot

section Strip

/-- The text of a chunk without the start marker and what comes before it. -/
def Markers.strip (M : Markers) (chunk : List Token) : List Char :=
  (Qwen3.stripStartDelta M (handedChunk [] chunk)).toList

theorem strip_of_notMem (unstarted : M.startTokenId ∉ tokenIds chunk) :
    M.strip chunk = chars chunk := by
  unfold Markers.strip Qwen3.stripStartDelta
  simp only [handedChunk, unstarted, if_false]
  exact toList_decoded chunk

theorem strip_of_clear (clear : ¬M.startToken.toList <:+: chars chunk) :
    M.strip chunk = chars chunk := by
  have found := Text.find_of_clear ((toList_decoded chunk).symm ▸ clear)
  have negative : ¬(0 : Int) ≤ -1 := by decide
  unfold Markers.strip Qwen3.stripStartDelta
  simp only [handedChunk, found, negative, if_false, ite_self]
  exact toList_decoded chunk

theorem strip_at (marked : M.Marked .kept (before ++ token :: after))
    (at_ : At M.startTokenId before token after) :
    M.strip (before ++ token :: after) = chars after := by
  have mem : M.startTokenId ∈ tokenIds (before ++ token :: after) := by simp [at_.here]
  have shown := (toList_decoded _).trans (marked.chars_start at_.here)
  have found := Text.find_of_tag M.startToken_tag (marked.left.start_clear at_.before) shown
  unfold Markers.strip Qwen3.stripStartDelta
  simp only [handedChunk, mem, if_true, found, Int.natCast_nonneg]
  exact startingAt_mark shown

end Strip

section Chunk

variable {text first rest : List Char}

/-- What a chunk with an end marker says, if its text shows the marker. -/
def Markers.cutEnd (M : Markers) (text : List Char) : Spoken :=
  match Substring.find M.endToken.toList text with
  | none => ⟨[], []⟩
  | some index => ⟨text.take index, text.drop (index + M.endToken.toList.length)⟩

theorem cutEnd_of_clear (clear : ¬M.endToken.toList <:+: text) : M.cutEnd text = ⟨[], []⟩ := by
  rw [Markers.cutEnd, Substring.find_eq_none_iff.mpr clear]

theorem cutEnd_of_tag (clear : ¬M.endToken.toList <:+: first) :
    M.cutEnd (first ++ (M.endToken.toList ++ rest)) = ⟨first, rest⟩ := by
  rw [Markers.cutEnd, M.endToken_tag.find clear]
  dsimp only
  rw [List.take_left, ← List.append_assoc, ← List.length_append, List.drop_left]

theorem delta_qwen3 : (Thinking.qwen3 Q).delta M previous chunk =
    Q.extractReasoningStreaming M (handedChunk previous chunk) := rfl

/-- The message for a chunk with an end marker. -/
theorem ofDelta_end (text : String) :
    Spoken.ofDelta
        (let endIndex := Text.find text M.endToken
        if 0 ≤ endIndex then
          let reasoning := Text.upTo text endIndex
          let content := Text.startingAt text (endIndex + M.endToken.toList.length)
          if reasoning = "" ∧ content = "" then none
          else some ⟨nonempty content, nonempty reasoning, []⟩
        else none) = M.cutEnd text.toList := by
  dsimp only
  rw [Text.find, Markers.cutEnd]
  cases Substring.find M.endToken.toList text.toList with
  | none => rfl
  | some index =>
    have last : (index : Int) + M.endToken.toList.length =
        ((index + M.endToken.toList.length : Nat) : Int) := (Int.natCast_add _ _).symm
    have reasoning : (Text.upTo text index).toList = text.toList.take index := by
      rw [Text.toList_upTo, Slice.upTo_natCast]
    have content : (Text.startingAt text (index + M.endToken.toList.length)).toList =
        text.toList.drop (index + M.endToken.toList.length) := by
      rw [Text.toList_startingAt, last, Slice.startingAt_natCast]
    dsimp only
    rw [if_pos (Int.natCast_nonneg index), ← reasoning, ← content]
    split_ifs with neither
    · rw [neither.1, neither.2]
      rfl
    · exact Spoken.ofDelta_nonempty _ _

/-- The message for a chunk with a `<tool_call>` and no end marker, and else the text
is reasoning. -/
theorem ofDelta_tool (calls : Bool) (text : String) :
    Spoken.ofDelta
        (let toolIndex := Text.find text toolCallTag
        if calls = true ∧ 0 ≤ toolIndex then
          some ⟨nonempty (Text.startingAt text toolIndex), nonempty (Text.upTo text toolIndex), []⟩
        else if text = "" then none
        else some (reasoningDelta text)) =
      if calls then cutTool text.toList else ⟨text.toList, []⟩ := by
  have plain : Spoken.ofDelta (if text = "" then none else some (reasoningDelta text)) =
      ⟨text.toList, []⟩ := by
    split_ifs with empty
    · rw [empty]
      rfl
    · rfl
  dsimp only
  cases calls with
  | false =>
    rw [if_neg fun both => Bool.false_ne_true both.1]
    exact plain
  | true =>
    rw [Text.find, cutTool]
    cases Substring.find toolCallTag.toList text.toList with
    | none => exact plain
    | some index =>
      dsimp only
      rw [if_pos ⟨rfl, Int.natCast_nonneg index⟩, Spoken.ofDelta_nonempty, Text.toList_upTo,
        Text.toList_startingAt, Slice.upTo_natCast, Slice.startingAt_natCast]
      rfl

/-- What a chunk in the reasoning phase says. -/
theorem chunkSpoken_qwen3 (opened : M.endTokenId ∉ previous)
    (uncalled : Q.callsTool previous = false) :
    (Thinking.qwen3 Q).chunkSpoken M previous chunk =
      if M.endTokenId ∈ tokenIds chunk then M.cutEnd (M.strip chunk)
      else if Q.callsTool (tokenIds chunk) then cutTool (M.strip chunk)
      else ⟨M.strip chunk, []⟩ := by
  rw [Thinking.chunkSpoken, delta_qwen3, Qwen3.extractReasoningStreaming]
  by_cases ends : M.endTokenId ∈ tokenIds chunk
  · rw [if_pos ends]
    simp only [show (handedChunk previous chunk).deltaTokenIds = tokenIds chunk from rfl, ends,
      if_true]
    exact ofDelta_end _
  · rw [if_neg ends]
    simp only [show (handedChunk previous chunk).deltaTokenIds = tokenIds chunk from rfl, ends,
      if_false, Qwen3.plainDelta,
      show (handedChunk previous chunk).previousTokenIds = previous from rfl, opened, uncalled,
      Bool.false_eq_true]
    exact ofDelta_tool _ _

end Chunk

section Said

/-- What the stream says from a call in the reasoning phase on. -/
def Qwen3.said (M : Markers) (Q : Qwen3) : List (List Token) → Spoken
  | [] => ⟨[], []⟩
  | chunk :: rest =>
    if M.endTokenId ∈ tokenIds chunk then
      (M.cutEnd (M.strip chunk)).add ⟨[], chars rest.flatten⟩
    else if Q.callsTool (tokenIds chunk) then
      (cutTool (M.strip chunk)).add ⟨[], chars rest.flatten⟩
    else (⟨M.strip chunk, []⟩ : Spoken).add (Qwen3.said M Q rest)

theorem spoken_qwen3 (opened : M.endTokenId ∉ previous) (uncalled : Q.callsTool previous = false)
    (chunks : List (List Token)) :
    (Thinking.qwen3 Q).spoken M previous chunks = Q.said M chunks := by
  induction chunks generalizing previous with
  | nil => rfl
  | cons chunk rest ih =>
    have ending : (Thinking.qwen3 Q).isReasoningEndStreaming M (tokenIds chunk) =
        (decide (M.endTokenId ∈ tokenIds chunk) || Q.callsTool (tokenIds chunk)) := rfl
    rw [Thinking.spoken, chunkSpoken_qwen3 opened uncalled, Qwen3.said, ending]
    by_cases ends : M.endTokenId ∈ tokenIds chunk
    · simp [ends]
    · cases calls : Q.callsTool (tokenIds chunk) with
      | true => simp [ends]
      | false =>
        have next : M.endTokenId ∉ previous ++ tokenIds chunk := by
          rw [List.mem_append, not_or]
          exact ⟨opened, ends⟩
        rw [ih next (by rw [callsTool_append, uncalled, calls]; rfl)]
        simp [ends]

end Said

end TrajProxy.Parsers
