import TrajProxy.Library.Substring
import TrajProxy.Parsers.ParseDelta

/-! `BaseThinkingReasoningParser` and its subclasses `DeepSeekR1ReasoningParser` and
`Qwen3ReasoningParser`. None of them keeps a state of its own. -/

namespace TrajProxy.Parsers
open Pipeline (DeltaMessage)

/-- The markers of a thinking parser with their ids in the vocabulary of the
tokenizer, which has one id for each token. -/
structure Markers where
  startToken : String
  endToken : String
  startTokenId : Int
  endTokenId : Int
  startToken_tag : Substring.Tag startToken.toList
  endToken_tag : Substring.Tag endToken.toList
  ids_ne : startTokenId ≠ endTokenId

/-- The markers of both subclasses. -/
def Markers.think (startTokenId endTokenId : Int) (ids_ne : startTokenId ≠ endTokenId) :
    Markers where
  startToken := "<think>"
  endToken := "</think>"
  startTokenId := startTokenId
  endTokenId := endTokenId
  startToken_tag := ⟨'<', "think>".toList, by decide, by decide⟩
  endToken_tag := ⟨'<', "/think>".toList, by decide, by decide⟩
  ids_ne := ids_ne

/-- `text if text else None` -/
def nonempty (text : String) : Option String := if text = "" then none else some text

def reasoningDelta (text : String) : DeltaMessage := ⟨none, some text, []⟩

def contentDelta (text : String) : DeltaMessage := ⟨some text, none, []⟩

section Base

variable (M : Markers)

/-- The loop of `is_reasoning_end`, over the ids from the last one back. -/
def Markers.endsBack : List Int → Bool
  | [] => false
  | id :: earlier =>
    if id = M.startTokenId then false
    else if id = M.endTokenId then true
    else endsBack earlier

/-- `is_reasoning_end` -/
def Markers.isReasoningEnd (inputIds : List Int) : Bool := M.endsBack inputIds.reverse

/-- `is_reasoning_end_streaming` -/
def Markers.isReasoningEndStreaming (deltaIds : List Int) : Bool :=
  decide (M.endTokenId ∈ deltaIds)

/-- `extract_content_ids` -/
def Markers.extractContentIds (inputIds : List Int) : List Int :=
  if M.endTokenId ∈ inputIds.dropLast then inputIds.drop (inputIds.idxOf M.endTokenId + 1)
  else []

/-- A delta cut at the end marker, which `find` may not find. -/
def Markers.cutDelta (deltaText : String) : DeltaMessage :=
  let endIndex := Text.find deltaText M.endToken
  { reasoning := some (Text.upTo deltaText endIndex)
    content := nonempty (Text.startingAt deltaText (endIndex + M.endToken.toList.length))
    toolCalls := [] }

/-- A delta with both markers. -/
def Markers.betweenDelta (deltaText : String) : DeltaMessage :=
  let startIndex := Text.find deltaText M.startToken
  let endIndex := Text.find deltaText M.endToken
  { reasoning := some
      (Text.between deltaText (startIndex + M.startToken.toList.length) endIndex)
    content := nonempty (Text.startingAt deltaText (endIndex + M.endToken.toList.length))
    toolCalls := [] }

/-- `extract_reasoning_streaming` -/
def Markers.extractReasoningStreaming (h : Handed) : Option DeltaMessage :=
  if h.deltaTokenIds = [M.startTokenId] ∨ h.deltaTokenIds = [M.endTokenId] then none
  else if M.startTokenId ∈ h.previousTokenIds then
    if M.endTokenId ∈ h.deltaTokenIds then some (M.cutDelta h.deltaText)
    else if M.endTokenId ∈ h.previousTokenIds then some (contentDelta h.deltaText)
    else some (reasoningDelta h.deltaText)
  else if M.startTokenId ∈ h.deltaTokenIds then
    if M.endTokenId ∈ h.deltaTokenIds then some (M.betweenDelta h.deltaText)
    else some (reasoningDelta h.deltaText)
  else some (contentDelta h.deltaText)

/-- The output without the start marker and what comes before it. -/
def Markers.stripStart (modelOutput : String) : String :=
  let parts := Text.partition modelOutput M.startToken
  if parts.2.1 ≠ "" then parts.2.2 else parts.1

/-- `extract_reasoning` -/
def Markers.extractReasoning (modelOutput : String) : Option String × Option String :=
  let modelOutput := M.stripStart modelOutput
  if Text.contains modelOutput M.endToken then
    let parts := Text.partition modelOutput M.endToken
    (some parts.1, nonempty parts.2.2)
  else (some modelOutput, none)

/-- `DeepSeekR1ReasoningParser.extract_reasoning_streaming` -/
def Markers.deepSeekStreaming (h : Handed) : Option DeltaMessage :=
  match M.extractReasoningStreaming h with
  | none => none
  | some ret =>
    if M.startTokenId ∉ h.previousTokenIds ∧ M.startTokenId ∉ h.deltaTokenIds then
      if M.endTokenId ∈ h.deltaTokenIds then some (M.cutDelta h.deltaText)
      else if M.endTokenId ∈ h.previousTokenIds then some (contentDelta h.deltaText)
      else some (reasoningDelta h.deltaText)
    else some ret

end Base

/-- What `Qwen3ReasoningParser` has besides the markers: the ids of `<tool_call>` and
`</tool_call>` in the vocabulary, if they are there. -/
structure Qwen3 where
  thinkingEnabled : Bool
  toolCallTokenId : Option Int
  toolCallEndTokenId : Option Int

section Qwen3

variable (M : Markers) (Q : Qwen3)

def toolCallTag : String := "<tool_call>"

/-- `self._tool_call_token_id in ids`, if there is such a token. -/
def Qwen3.callsTool (ids : List Int) : Bool := ids.any fun id => Q.toolCallTokenId = some id

/-- The loop of `is_reasoning_end`, over the ids from the last one back; `later` are
those it has passed. A paired `<tool_call>` is passed over. -/
def Qwen3.endsBack (later : List Int) : List Int → Bool
  | [] => false
  | id :: earlier =>
    if id = M.startTokenId then false
    else if id = M.endTokenId then true
    else if Q.toolCallTokenId = some id ∧ ¬∃ other ∈ later, Q.toolCallEndTokenId = some other then
      true
    else endsBack (id :: later) earlier

def Qwen3.isReasoningEnd (inputIds : List Int) : Bool := Q.endsBack M [] inputIds.reverse

def Qwen3.isReasoningEndStreaming (deltaIds : List Int) : Bool :=
  M.isReasoningEndStreaming deltaIds || Q.callsTool deltaIds

/-- The content starts after the end marker, or else at the last `<tool_call>`. -/
def Qwen3.extractContentIds (inputIds : List Int) : List Int :=
  match M.extractContentIds inputIds, Q.toolCallTokenId with
  | [], some id =>
    if id ∈ inputIds then inputIds.drop (inputIds.length - 1 - inputIds.reverse.idxOf id) else []
  | result, _ => result

/-- The delta after the start marker, if it is found. -/
def Qwen3.stripStartDelta (h : Handed) : String :=
  if M.startTokenId ∈ h.deltaTokenIds then
    let startIndex := Text.find h.deltaText M.startToken
    if 0 ≤ startIndex then
      Text.startingAt h.deltaText (startIndex + M.startToken.toList.length)
    else h.deltaText
  else h.deltaText

/-- The end of `extract_reasoning_streaming`, where no marker ends the reasoning. -/
def Qwen3.plainDelta (h : Handed) (deltaText : String) : Option DeltaMessage :=
  if deltaText = "" then none
  else if M.endTokenId ∈ h.previousTokenIds then some (contentDelta deltaText)
  else if Q.callsTool h.previousTokenIds then some (contentDelta deltaText)
  else some (reasoningDelta deltaText)

def Qwen3.extractReasoningStreaming (h : Handed) : Option DeltaMessage :=
  let deltaText := Qwen3.stripStartDelta M h
  if M.endTokenId ∈ h.deltaTokenIds then
    let endIndex := Text.find deltaText M.endToken
    if 0 ≤ endIndex then
      let reasoning := Text.upTo deltaText endIndex
      let content := Text.startingAt deltaText (endIndex + M.endToken.toList.length)
      if reasoning = "" ∧ content = "" then none
      else some ⟨nonempty content, nonempty reasoning, []⟩
    else none
  else
    let toolIndex := Text.find deltaText toolCallTag
    if Q.callsTool h.deltaTokenIds ∧ 0 ≤ toolIndex then
      some ⟨nonempty (Text.startingAt deltaText toolIndex),
        nonempty (Text.upTo deltaText toolIndex), []⟩
    else Q.plainDelta M h deltaText

def Qwen3.extractReasoning (modelOutput : String) : Option String × Option String :=
  let modelOutput := M.stripStart modelOutput
  if Text.contains modelOutput M.endToken then
    let parts := Text.partition modelOutput M.endToken
    (some parts.1, nonempty parts.2.2)
  else if Q.thinkingEnabled = false then (none, some modelOutput)
  else
    let toolCallIndex := Text.find modelOutput toolCallTag
    if toolCallIndex ≠ -1 then
      (nonempty (Text.upTo modelOutput toolCallIndex),
        nonempty (Text.startingAt modelOutput toolCallIndex))
    else (some modelOutput, none)

end Qwen3

/-- A thinking reasoning parser: a class that only names its markers, or one of the
two subclasses that override methods. -/
inductive Thinking
  | base
  | deepSeekR1
  | qwen3 (Q : Qwen3)

namespace Thinking

variable (M : Markers)

def isReasoningEnd : Thinking → List Int → Bool
  | .qwen3 Q => Q.isReasoningEnd M
  | _ => M.isReasoningEnd

def isReasoningEndStreaming : Thinking → List Int → Bool
  | .qwen3 Q => Q.isReasoningEndStreaming M
  | _ => M.isReasoningEndStreaming

def extractContentIds : Thinking → List Int → List Int
  | .qwen3 Q => Q.extractContentIds M
  | _ => M.extractContentIds

def extractReasoningStreaming : Thinking → Handed → Option DeltaMessage
  | .base => M.extractReasoningStreaming
  | .deepSeekR1 => M.deepSeekStreaming
  | .qwen3 Q => Q.extractReasoningStreaming M

def extractReasoning : Thinking → String → Option String × Option String
  | .qwen3 Q => Q.extractReasoning M
  | _ => M.extractReasoning

/-- The parser that `parse_delta` calls. -/
def reasoningParser (K : Thinking) : ReasoningParser Unit where
  isReasoningEnd inputIds := pure (K.isReasoningEnd M inputIds)
  isReasoningEndStreaming _ deltaIds := pure (K.isReasoningEndStreaming M deltaIds)
  extractContentIds inputIds := pure (K.extractContentIds M inputIds)
  extractReasoningStreaming h := pure (K.extractReasoningStreaming M h)

/-- A `Parser` with this reasoning parser and no tool parser. -/
def parser (τ : Type) (K : Thinking) (request : Except Raised StreamToolChoice) :
    Parser Unit τ where
  reasoningParser := some (K.reasoningParser M)
  toolParser := none
  request := request

end Thinking

end TrajProxy.Parsers
