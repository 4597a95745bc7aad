import TrajProxy.Pipeline.Parity
import TrajProxy.Pipeline.Rendering

/-! When `OpenAIResponseBuilder.build` returns, and whether the message it
returns is coherent: a finish reason it set itself comes with tool calls, and
without tool calls the text is there. -/

namespace TrajProxy.Pipeline
open Text

variable {env : BuildEnv} {parser : MessageParser} {content : String} {response : InferResponse}
  {counts : TokenCounts}

/-- The text that is left after the reasoning, all of it where the reasoning
parser raises. -/
def remainingText (env : BuildEnv) (parser : MessageParser) (content : String) : Option String :=
  (splitReasoning env parser content).2

/-- The parts before the tool calls are looked for. -/
def splitParts (env : BuildEnv) (parser : MessageParser) (content : String)
    (toolCalls : List Json) (finishReason : Option String) : MessageParts :=
  ⟨remainingText env parser content, (splitReasoning env parser content).1, toolCalls,
    finishReason⟩

section Returns

/-- One choice, with an assistant message. -/
def SingleAssistant (response : Items Json) : Prop :=
  ∃ choice message, response.get? "choices" = some (.arr [.obj choice]) ∧
    Items.get? choice "message" = some (.obj message) ∧
    Items.get? message "role" = some (.str "assistant")

theorem RawResponse.singleAssistant (raw : RawResponse) : SingleAssistant raw.toItems := by
  refine ⟨raw.choiceItems, raw.messageItems, rfl, rfl, ?_⟩
  unfold RawResponse.messageItems
  dsimp only
  split_ifs <;> cases raw.message.reasoning <;> rfl

theorem buildMessage_ok_iff (toolCalls : List Json) (finishReason : Option String) :
    (∃ message, buildMessage env parser content toolCalls finishReason = .ok message) ↔
      (toolCalls = [] → ReadsChoice env parser (remainingText env parser content)) :=
  bind_pure_ok_iff.trans extractToolCalls_ok_iff

/-- A `message` of the upstream choice, if there is one, is an object. -/
def UpstreamMessage (response : InferResponse) : Prop :=
  ∀ choice, response.choices.head? = some choice → HasMessage choice.extras

theorem build_returns_iff (counts : TokenCounts) :
    (∃ raw, build env parser content response counts = .ok raw) ↔
      UpstreamMessage response ∧ (upstreamToolCalls response = [] →
        ReadsChoice env parser (remainingText env parser content)) := by
  cases hhead : response.choices.head? with
  | some choice =>
    have calls : upstreamToolCalls response = choice.toolCalls.get.getD [] := by
      rw [upstreamToolCalls, hhead]
      rfl
    rw [build_ok_iff hhead, buildMessage_ok_iff, calls, UpstreamMessage, hhead]
    simp
  | none =>
    have calls : upstreamToolCalls response = [] := by
      rw [upstreamToolCalls, hhead]
      rfl
    have upstream : UpstreamMessage response := by
      intro choice h
      rw [hhead] at h
      nomatch h
    rw [calls, and_iff_right upstream, ← buildMessage_ok_iff []  (getFinishReason response)]
    unfold build
    rw [hhead]
    exact bind_pure_ok_iff

/-- The builder returns a single assistant message for the request of a client
exactly if the upstream choice has no message of another kind and, where it has
no tool calls, branches A and B can read the text. -/
theorem build_assistant_iff (env : BuildEnv) (parser : MessageParser) (rawRequest : Items Json)
    (content : String) (response : InferResponse) (counts : TokenCounts) :
    (∃ raw, build (env.forRequest rawRequest) parser content response counts = .ok raw ∧
        SingleAssistant raw.toItems) ↔
      UpstreamMessage response ∧ (upstreamToolCalls response = [] →
        ReadsChoice (env.forRequest rawRequest) parser
          (remainingText (env.forRequest rawRequest) parser content)) := by
  rw [← build_returns_iff counts]
  exact ⟨fun ⟨raw, h, _⟩ => ⟨raw, h⟩, fun ⟨raw, h⟩ => ⟨raw, h, raw.singleAssistant⟩⟩

/-- `json.loads` on one text, which is no JSON otherwise. -/
def loadsOnly (text : String) (value : Json) : BuildEnv :=
  { plainEnv with loads := fun s => if s = text then .ok value else .error .valueError }

/-- A required tool call whose text is a list of strings raises. -/
theorem build_listOfStrings :
    ¬∀ (env : BuildEnv) (parser : MessageParser) (rawRequest : Items Json) (content : String)
      (response : InferResponse) (counts : TokenCounts),
      ∃ raw, build (env.forRequest rawRequest) parser content response counts = .ok raw ∧
        SingleAssistant raw.toItems := by
  intro h
  obtain ⟨raw, hraw, _⟩ := h (loadsOnly "[\"x\"]" (.arr [.str "x"])) noParser
    [("tool_choice", .str "required")] "[\"x\"]"
    (oneChoice (.value "[\"x\"]") .missing (.value "stop")) ⟨.null, .null, .null⟩
  have raised : build ((loadsOnly "[\"x\"]" (.arr [.str "x"])).forRequest
      [("tool_choice", .str "required")]) noParser "[\"x\"]"
      (oneChoice (.value "[\"x\"]") .missing (.value "stop")) ⟨.null, .null, .null⟩ =
        .error "AttributeError" := rfl
  rw [raised] at hraw
  nomatch hraw

end Returns

section Coherence

variable {toolCalls : List Json} {finishReason : Option String} {message : MessageParts}

/-- The builder sets the finish reason itself: whatever the upstream one is, it
ends as `tool_calls`. -/
def SetsToolCalls (env : BuildEnv) (parser : MessageParser) (content : String)
    (toolCalls : List Json) : Prop :=
  ∀ finishReason message, buildMessage env parser content toolCalls finishReason = .ok message →
    message.finishReason = some "tool_calls"

/-- The fields of a message built from a text and the upstream tool calls fit. -/
structure Coherent (env : BuildEnv) (parser : MessageParser) (content : String)
    (toolCalls : List Json) (message : MessageParts) : Prop where
  finish : SetsToolCalls env parser content toolCalls → message.toolCalls ≠ []
  text : message.toolCalls = [] →
    message.content = (remainingText env parser content).filter fun text => !isBlank text

/-- Branch B takes the remaining text for an empty list, no tool call is there
from upstream and the tool parser finds none in an empty text. -/
def LosesText (env : BuildEnv) (parser : MessageParser) (content : String)
    (toolCalls : List Json) : Prop :=
  toolCalls = [] ∧ RequiredEmpty env parser (remainingText env parser content) ∧
    ¬FindsCalls parser ""

theorem emptied_splitParts_iff :
    Emptied env parser (splitParts env parser content toolCalls finishReason) ↔
      LosesText env parser content toolCalls :=
  ⟨fun h => ⟨h.noCalls, h.required, h.noneFound⟩, fun h => ⟨h.1, h.2.1, h.2.2⟩⟩

/-- The message where the text is lost. -/
theorem buildMessage_losesText (lost : LosesText env parser content toolCalls)
    (h : buildMessage env parser content toolCalls finishReason = .ok message) :
    message.toolCalls = [] ∧ message.finishReason = some "tool_calls" := by
  obtain ⟨parts, hparts, h⟩ := bind_eq_ok h
  obtain rfl := Except.ok.inj h
  rcases extractToolCalls_cases hparts with ⟨_, rfl⟩ | ⟨kept, _⟩
  · exact ⟨rfl, rfl⟩
  · exact absurd (emptied_splitParts_iff.mpr lost) kept

/-- Otherwise a message without tool calls has the text and the upstream finish
reason. -/
theorem buildMessage_keepsText (kept : ¬LosesText env parser content toolCalls)
    (h : buildMessage env parser content toolCalls finishReason = .ok message)
    (none : message.toolCalls = []) :
    message.content = (remainingText env parser content).filter (fun text => !isBlank text) ∧
      message.finishReason = finishReason := by
  obtain ⟨parts, hparts, h⟩ := bind_eq_ok h
  obtain rfl := Except.ok.inj h
  rcases extractToolCalls_cases hparts with ⟨emptied, _⟩ | ⟨_, extracted⟩
  · exact absurd (emptied_splitParts_iff.mp emptied) kept
  · cases extracted with
    | called _ _ _ nonempty _ => exact absurd none nonempty
    | unchanged =>
      refine ⟨?_, rfl⟩
      have noCalls : toolCalls = [] := none
      subst noCalls
      unfold MessageParts.normalized remainingText
      dsimp only
      split
      · next text found => exact found.symm
      · next blank => exact blank.symm

/-- The tool calls of a message do not depend on the upstream finish reason. -/
theorem buildMessage_reason (reason : Option String)
    (h : buildMessage env parser content toolCalls finishReason = .ok message) :
    ∃ message', buildMessage env parser content toolCalls reason = .ok message' ∧
      message'.toolCalls = message.toolCalls := by
  obtain ⟨parts, hparts, h⟩ := bind_eq_ok h
  obtain rfl := Except.ok.inj h
  have alike := extractToolCalls_reason env parser
    (splitParts env parser content toolCalls finishReason) reason
  change AlikeResults (extractToolCalls env parser (splitParts env parser content toolCalls
    finishReason)) (extractToolCalls env parser (splitParts env parser content toolCalls
      reason)) at alike
  have hparts' : extractToolCalls env parser (splitParts env parser content toolCalls
      finishReason) = .ok parts := hparts
  rw [hparts'] at alike
  cases hother : extractToolCalls env parser (splitParts env parser content toolCalls reason) with
  | error e =>
    rw [hother] at alike
    exact absurd alike id
  | ok parts' =>
    rw [hother] at alike
    refine ⟨parts'.normalized, ?_, ?_⟩
    · exact bind_of_ok hother
    · exact (congrArg MessageParts.toolCalls alike).symm

/-- A built message is coherent exactly if its text was not lost. -/
theorem coherent_iff {rawRequest : Items Json} {raw : RawResponse}
    (h : build (env.forRequest rawRequest) parser content response counts = .ok raw) :
    Coherent (env.forRequest rawRequest) parser content (upstreamToolCalls response) raw.message ↔
      ¬LosesText (env.forRequest rawRequest) parser content (upstreamToolCalls response) := by
  have built : buildMessage (env.forRequest rawRequest) parser content
    (upstreamToolCalls response) (getFinishReason response) = .ok raw.message := (build_ok h).1
  refine ⟨?_, ?_⟩
  · intro coherent lost
    refine coherent.finish ?_ (buildMessage_losesText lost built).1
    intro reason message hmessage
    exact (buildMessage_losesText lost hmessage).2
  · intro kept
    refine ⟨?_, fun none => (buildMessage_keepsText kept built none).1⟩
    intro sets none
    obtain ⟨message, hmessage, same⟩ := buildMessage_reason Option.none built
    have reason := (buildMessage_keepsText kept hmessage (same.trans none)).2
    rw [sets Option.none message hmessage] at reason
    nomatch reason

/-- A plain text answer is built coherently. -/
theorem coherent_plainText :
    let response := oneChoice (.value "hi") .missing (.value "stop")
    ∃ raw, build (plainEnv.forRequest []) noParser "hi" response ⟨.null, .null, .null⟩ = .ok raw ∧
      Coherent (plainEnv.forRequest []) noParser "hi" (upstreamToolCalls response) raw.message := by
  intro response
  obtain ⟨raw, hraw⟩ : ∃ raw, build (plainEnv.forRequest []) noParser "hi" response
      ⟨.null, .null, .null⟩ = .ok raw := ⟨_, rfl⟩
  refine ⟨raw, hraw, (coherent_iff hraw).mpr ?_⟩
  intro lost
  nomatch lost.2.1.required

/-- A required tool call whose text is the empty list ends as `tool_calls` without
any. -/
theorem build_emptyList :
    ¬∀ (env : BuildEnv) (parser : MessageParser) (rawRequest : Items Json) (content : String)
      (response : InferResponse) (counts : TokenCounts) (raw : RawResponse),
      build (env.forRequest rawRequest) parser content response counts = .ok raw →
      Coherent (env.forRequest rawRequest) parser content (upstreamToolCalls response)
        raw.message := by
  intro h
  have coherent := h (loadsOnly "[]" (.arr [])) noParser [("tool_choice", .str "required")] "[]"
    (oneChoice (.value "[]") .missing (.value "stop")) ⟨.null, .null, .null⟩ _ rfl
  refine coherent.finish ?_ rfl
  intro finishReason message hmessage
  obtain rfl := Except.ok.inj hmessage
  rfl

end Coherence

end TrajProxy.Pipeline
