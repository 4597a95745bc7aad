import TrajProxy.Parsers.BaseSplit
import TrajProxy.Parsers.Qwen3Split

/-! When the deltas of a stream say what `extract_reasoning` says of the whole text, for
each of the reasoning parsers. -/

namespace TrajProxy.Parsers
open Pipeline (deltaContent deltaReasoning)

/-- Only `Qwen3ReasoningParser` looks at the `<tool_call>` tag. -/
def Thinking.Tagged (M : Markers) (K : Thinking) (shown : Decoding) (tokens : List Token) :
    Prop :=
  match K with
  | .qwen3 Q => Q.Tagged M shown tokens
  | _ => True

/-- The condition for each of the parsers. -/
def Thinking.Agree (M : Markers) (K : Thinking) (decoding shown : Decoding)
    (promptTokenIds : Option (List Int)) (chunks : List (List Token)) : Prop :=
  match K with
  | .qwen3 Q => Q.Agree M shown decoding promptTokenIds chunks
  | _ => K.BaseAgree M decoding promptTokenIds chunks

variable {M : Markers} {K : Thinking} {decoding shown : Decoding} {chunks : List (List Token)}

theorem streamed_iff (promptTokenIds : Option (List Int))
    (marked : M.Marked decoding chunks.flatten) (tagged : K.Tagged M shown chunks.flatten) :
    K.streamed M promptTokenIds chunks =
        .ofPair (K.extractReasoning M (decoded chunks.flatten)) ↔
      K.Agree M decoding shown promptTokenIds chunks := by
  cases K with
  | base => exact base_streamed_iff rfl promptTokenIds marked
  | deepSeekR1 => exact base_streamed_iff rfl promptTokenIds marked
  | qwen3 Q => exact qwen3_streamed_iff promptTokenIds marked tagged

/-- The deltas of the calls of `parse_delta` say what `extract_reasoning` returns for
the whole text. -/
def Thinking.SplitsAlike {τ : Type} (M : Markers) (K : Thinking)
    (request : Except Raised StreamToolChoice) (tool : τ) (promptTokenIds : Option (List Int))
    (chunks : List (List Token)) : Prop :=
  let whole := K.extractReasoning M (decoded chunks.flatten)
  ∃ deltas s', ((K.parser M τ request).parseDeltas promptTokenIds (calls chunks)).run
      (.initial () tool) = (.ok deltas, s') ∧
    String.join (deltas.map deltaReasoning) = whole.1.getD "" ∧
    String.join (deltas.map deltaContent) = whole.2.getD ""

theorem splitsAlike_iff {τ : Type} (request : Except Raised StreamToolChoice) (tool : τ)
    (promptTokenIds : Option (List Int)) :
    K.SplitsAlike M request tool promptTokenIds chunks ↔
      K.streamed M promptTokenIds chunks =
        .ofPair (K.extractReasoning M (decoded chunks.flatten)) := by
  obtain ⟨deltas, s', run, said⟩ :=
    parseDeltas_streamed (M := M) (K := K) request tool promptTokenIds chunks
  rw [← said, Spoken.ext_iff]
  unfold Thinking.SplitsAlike Spoken.ofDeltas Spoken.ofPair
  rw [run]
  simp only [String.toList_inj]
  constructor
  · rintro ⟨_, _, same, reasoning, content⟩
    cases same
    exact ⟨reasoning, content⟩
  · rintro ⟨reasoning, content⟩
    exact ⟨deltas, s', rfl, reasoning, content⟩

/-- When the reasoning and the content of a stream are those of the whole text. -/
theorem splitsAlike_iff_agree {τ : Type} (M : Markers) (K : Thinking) (decoding shown : Decoding)
    (request : Except Raised StreamToolChoice) (tool : τ) (promptTokenIds : Option (List Int))
    (chunks : List (List Token)) (marked : M.Marked decoding chunks.flatten)
    (tagged : K.Tagged M shown chunks.flatten) :
    K.SplitsAlike M request tool promptTokenIds chunks ↔
      K.Agree M decoding shown promptTokenIds chunks :=
  (splitsAlike_iff request tool promptTokenIds).trans
    (streamed_iff promptTokenIds marked tagged)

/-- Tokens whose text is too short for a marker. -/
theorem marked_of_short {tokens : List Token}
    (start_once : (tokenIds tokens).count M.startTokenId ≤ 1)
    (end_once : (tokenIds tokens).count M.endTokenId ≤ 1)
    (hidden : ∀ token ∈ tokens, token.id = M.startTokenId ∨ token.id = M.endTokenId →
      token.text = "")
    (start_long : (chars tokens).length < M.startToken.toList.length)
    (end_long : (chars tokens).length < M.endToken.toList.length) :
    M.Marked .stripped tokens := by
  have absent : ∀ {mark : List Char}, (chars tokens).length < mark.length →
      ∀ run, run <:+: tokens → ¬mark <:+: chars run := by
    rintro mark long run ⟨earlier, later, rfl⟩ shown
    have le := shown.length_le
    rw [chars_append, chars_append, List.length_append, List.length_append] at long
    omega
  exact
    { start_once := start_once
      end_once := end_once
      start_text := fun token mem here => hidden token mem (.inl here)
      end_text := fun token mem here => hidden token mem (.inr here)
      start_shown := fun run part shown => absurd shown (absent start_long run part)
      end_shown := fun run part shown => absurd shown (absent end_long run part) }

/-- A stream whose end marker is stripped and comes in a chunk of its own at the end. -/
theorem splitsAlike_iff_agree_ending :
    Thinking.deepSeekR1.SplitsAlike (.think 1 2 (by decide)) (.ok .other) () none
      [[⟨3, "ab"⟩], [⟨2, ""⟩]] :=
  (splitsAlike_iff_agree (.think 1 2 (by decide)) .deepSeekR1 .stripped .kept (.ok .other) () none
    [[⟨3, "ab"⟩], [⟨2, ""⟩]]
    (marked_of_short (by decide) (by decide) (by simp [Markers.think]) (by decide) (by decide))
    trivial).mpr ⟨fun never => (nomatch never), rfl, rfl⟩

/-- The stripped end marker is looked for in the text of its chunk: the last character
of the text is lost. -/
theorem stripped_end_loses_text :
    ¬∀ (M : Markers) (K : Thinking) (decoding shown : Decoding) (chunks : List (List Token)),
      M.Marked decoding chunks.flatten → K.Tagged M shown chunks.flatten →
      K.SplitsAlike M (.ok .other) () none chunks := by
  intro all
  have marked : (Markers.think 1 2 (by decide)).Marked .stripped
      [[(⟨3, "ab"⟩ : Token), ⟨2, ""⟩]].flatten :=
    marked_of_short (by decide) (by decide) (by simp [Markers.think]) (by decide) (by decide)
  have alike := all _ .deepSeekR1 .stripped .kept _ marked trivial
  have tagged : Thinking.deepSeekR1.Tagged (.think 1 2 (by decide)) .kept
      [[(⟨3, "ab"⟩ : Token), ⟨2, ""⟩]].flatten := trivial
  have agree := (streamed_iff none marked tagged).mp ((splitsAlike_iff _ _ _).mp alike)
  exact absurd agree.2.1 (by decide)

end TrajProxy.Parsers
