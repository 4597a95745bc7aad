import TrajProxy.Pipeline.TokenStream
import TrajProxy.Library.Effect

/-! `Parser.parse_delta` with its `StreamState`. The two sub-parsers are
parameters: their methods change a state of their own and return or raise. -/

namespace TrajProxy.Parsers
open Pipeline (DeltaMessage)

/-- The values a sub-parser is called with. -/
structure Handed where
  previousText : String
  currentText : String
  deltaText : String
  previousTokenIds : List Int
  currentTokenIds : List Int
  deltaTokenIds : List Int

/-- The methods of a `ReasoningParser` that `parse_delta` calls. -/
structure ReasoningParser (ρ : Type) where
  isReasoningEnd : List Int → Py ρ Bool
  isReasoningEndStreaming : List Int → List Int → Py ρ Bool
  extractContentIds : List Int → Py ρ (List Int)
  extractReasoningStreaming : Handed → Py ρ (Option DeltaMessage)

/-- `tool_choice` of the request as `_extract_tool_calls_streaming` sorts it; a
named one has the function's name. -/
inductive StreamToolChoice
  | named (functionName : String)
  | required
  | other

/-- A `ToolParser` and the functions that stand in for it where the choice is named
or required; those return `function_name_returned` too. -/
structure ToolParser (τ : Type) where
  supportsRequiredAndNamed : Bool
  extractToolCallsStreaming : Handed → StreamToolChoice → Py τ (Option DeltaMessage)
  extractNamed : Handed → String → Nat → Bool → Py τ (Option DeltaMessage × Bool)
  extractRequired : Handed → Nat → Bool → Py τ (Option DeltaMessage × Bool)
  toolCallsSeen : τ → Bool

/-- `StreamState`; `tool_call_id_type` is never changed. -/
structure StreamState where
  reasoningEnded : Bool
  toolCallTextStarted : Bool
  promptReasoningChecked : Bool
  previousText : String
  previousTokenIds : List Int
  historyToolCallCnt : Nat
  functionNameReturned : Bool

def StreamState.initial : StreamState where
  reasoningEnded := false
  toolCallTextStarted := false
  promptReasoningChecked := false
  previousText := ""
  previousTokenIds := []
  historyToolCallCnt := 0
  functionNameReturned := false

/-- A `Parser` for one request, which `_build_request` can read or not. -/
structure Parser (ρ τ : Type) where
  reasoningParser : Option (ReasoningParser ρ)
  toolParser : Option (ToolParser τ)
  request : Except Raised StreamToolChoice

/-- The states of a parser; `handed` is what the tool parser was called with, the
first call first. -/
structure ParserState (ρ τ : Type) where
  stream : StreamState
  reasoning : ρ
  tool : τ
  handed : List Handed

variable {ρ τ α : Type} (P : Parser ρ τ)

def ParserState.initial (reasoning : ρ) (tool : τ) : ParserState ρ τ :=
  ⟨.initial, reasoning, tool, []⟩

def modifyStream (f : StreamState → StreamState) : Py (ParserState ρ τ) Unit :=
  Py.modify fun s => { s with stream := f s.stream }

/-- A call of the reasoning parser. -/
def onReasoning (m : Py ρ α) : Py (ParserState ρ τ) α :=
  Py.focus ParserState.reasoning (fun r s => { s with reasoning := r }) m

/-- A call of the tool parser. -/
def onTool (m : Py τ α) : Py (ParserState ρ τ) α :=
  Py.focus ParserState.tool (fun t s => { s with tool := t }) m

def endReasoning (state : StreamState) : StreamState := { state with reasoningEnded := true }

/-- The prompt is looked at in the first call that comes with one. -/
def Parser.checkPrompt (promptTokenIds : Option (List Int)) : Py (ParserState ρ τ) Unit := do
  let s ← Py.read
  match promptTokenIds, s.stream.promptReasoningChecked with
  | some ids, false => do
    modifyStream fun state => { state with promptReasoningChecked := true }
    match P.reasoningParser with
    | none => modifyStream endReasoning
    | some R =>
      let ended ← onReasoning (R.isReasoningEnd ids)
      if ended then modifyStream endReasoning else pure ()
  | _, _ => pure ()

/-- A delta after what came before it. -/
def StreamState.hand (state : StreamState) (deltaText : String) (deltaTokenIds : List Int) :
    Handed where
  previousText := state.previousText
  currentText := state.previousText ++ deltaText
  deltaText := deltaText
  previousTokenIds := state.previousTokenIds
  currentTokenIds := state.previousTokenIds ++ deltaTokenIds
  deltaTokenIds := deltaTokenIds

/-- The local variables after the boundary delta: what is left is its content. -/
def Handed.atBoundary (h : Handed) (content : String) (contentIds : List Int) : Handed :=
  { h with
    currentText := content
    deltaText := content
    currentTokenIds := contentIds
    deltaTokenIds := contentIds }

/-- The part under `_in_reasoning_phase`. -/
def Parser.reasoningPhase (h : Handed) : Py (ParserState ρ τ) (Option DeltaMessage × Handed) := do
  let s ← Py.read
  match P.reasoningParser, s.stream.reasoningEnded with
  | some R, false => do
    let delta ← onReasoning (R.extractReasoningStreaming h)
    let ended ← onReasoning (R.isReasoningEndStreaming h.currentTokenIds h.deltaTokenIds)
    if ended then
      modifyStream endReasoning
      let contentIds ← onReasoning (R.extractContentIds h.deltaTokenIds)
      pure (delta, h.atBoundary ((delta.bind DeltaMessage.content).getD "") contentIds)
    else pure (delta, h)
  | _, _ => pure (none, h)

/-- `_extract_tool_calls_streaming` -/
def Parser.extractToolCallsStreaming (T : ToolParser τ) (h : Handed) (toolCallIdx : Nat)
    (functionNameReturned : Bool) : Py (ParserState ρ τ) (Option DeltaMessage × Bool) := do
  let choice ← Py.ofExcept P.request
  Py.modify fun s => { s with handed := s.handed ++ [h] }
  match T.supportsRequiredAndNamed, choice with
  | true, .named functionName =>
    onTool (T.extractNamed h functionName toolCallIdx functionNameReturned)
  | true, .required => onTool (T.extractRequired h toolCallIdx functionNameReturned)
  | _, _ => do
    let delta ← onTool (T.extractToolCallsStreaming h choice)
    pure (delta, functionNameReturned)

/-- The first call starts over, with all of the current text. -/
def Handed.startOver (h : Handed) : Handed where
  previousText := ""
  currentText := h.currentText
  deltaText := h.currentText
  previousTokenIds := []
  currentTokenIds := h.currentTokenIds
  deltaTokenIds := h.currentTokenIds

/-- The reasoning of the boundary delta is kept, if there is any. -/
def keepReasoning (reasoning : Option String) (delta : Option DeltaMessage) :
    Option DeltaMessage :=
  match reasoning.filter (· ≠ "") with
  | none => delta
  | some text => some { delta.getD ⟨none, none, []⟩ with reasoning := some text }

/-- `delta_message.tool_calls[0].id is not None`, if there are any. -/
def startsToolCall (delta : Option DeltaMessage) : Bool :=
  match (delta.map DeltaMessage.toolCalls).getD [] with
  | [] => false
  | call :: _ => call.id.isSome

/-- The part under `_in_tool_call_phase`. -/
def Parser.toolPhase (delta : Option DeltaMessage) (h : Handed) :
    Py (ParserState ρ τ) (Option DeltaMessage) := do
  let s ← Py.read
  match P.toolParser, s.stream.reasoningEnded with
  | some T, true => do
    let handed := if s.stream.toolCallTextStarted then h else h.startOver
    modifyStream fun state =>
      if state.toolCallTextStarted then state
      else { state with toolCallTextStarted := true, previousText := "", previousTokenIds := [] }
    let result ← P.extractToolCallsStreaming T handed s.stream.historyToolCallCnt
      s.stream.functionNameReturned
    let delta := keepReasoning (delta.bind DeltaMessage.reasoning) result.1
    modifyStream fun state => { state with
      functionNameReturned := result.2
      historyToolCallCnt :=
        if startsToolCall delta then state.historyToolCallCnt + 1 else state.historyToolCallCnt }
    pure delta
  | _, _ => pure delta

/-- Outside both phases the delta is passed through as content. -/
def Parser.passThrough (state : StreamState) (delta : Option DeltaMessage) (deltaText : String) :
    Option DeltaMessage :=
  match delta with
  | some message => some message
  | none =>
    if (P.reasoningParser.isSome ∧ state.reasoningEnded = false) ∨
        (P.toolParser.isSome ∧ state.reasoningEnded = true) then none
    else some ⟨some deltaText, none, []⟩

/-- `parse_delta` up to the tool parser. -/
def Parser.readDelta (deltaText : String) (deltaTokenIds : List Int)
    (promptTokenIds : Option (List Int)) : Py (ParserState ρ τ) (Option DeltaMessage × Handed) := do
  P.checkPrompt promptTokenIds
  let s ← Py.read
  P.reasoningPhase (s.stream.hand deltaText deltaTokenIds)

/-- `Parser.parse_delta` -/
def Parser.parseDelta (deltaText : String) (deltaTokenIds : List Int)
    (promptTokenIds : Option (List Int)) : Py (ParserState ρ τ) (Option DeltaMessage) := do
  let (delta, h) ← P.readDelta deltaText deltaTokenIds promptTokenIds
  let delta ← P.toolPhase delta h
  let s ← Py.read
  modifyStream fun state => { state with
    previousText := h.currentText
    previousTokenIds := h.currentTokenIds }
  pure (P.passThrough s.stream delta h.deltaText)

/-- The calls of one stream. The prompt comes with the first one, and a call that
raises is the last one. -/
def Parser.parseDeltas : Option (List Int) → List (String × List Int) →
    Py (ParserState ρ τ) (List (Option DeltaMessage))
  | _, [] => pure []
  | promptTokenIds, (deltaText, deltaTokenIds) :: rest => do
    let first ← P.parseDelta deltaText deltaTokenIds promptTokenIds
    let more ← Parser.parseDeltas none rest
    pure (first :: more)

end TrajProxy.Parsers
