import TrajProxy.Library.Occurrences
import TrajProxy.Parsers.Coercion
import TrajProxy.Parsers.ChoiceStream

/-! `Qwen3CoderToolParser`: a tool call is `<function=name>` with its parameters between
`<tool_call>` and `</tool_call>`. A call of the streaming parser sends one message at most:
the name, the opening brace, the parameters that are complete, or the closing brace. -/

namespace TrajProxy.Parsers.Qwen3Coder
open TrajProxy.Substring (cut find behind)
open Pipeline (DeltaMessage DeltaToolCall)

def toolCallStartToken : List Char := "<tool_call>".toList

def toolCallEndToken : List Char := "</tool_call>".toList

def toolCallPrefix : List Char := "<function=".toList

def functionEndToken : List Char := "</function>".toList

def parameterPrefix : List Char := "<parameter=".toList

def parameterEndToken : List Char := "</parameter>".toList

/-- What the parser has from outside; `generateToolCallId` and `makeToolCallId` are the ids
of the calls that are started, the second those of a required choice. -/
structure Env where
  floats : JsonText.FloatCodec
  numbers : PyNumbers
  partialLoads : List Char → Except JsonText.LoadsRaised Json
  tools : List FunctionTool
  generateToolCallId : Nat → String
  makeToolCallId : Nat → String
  toolCallStartTokenId : Int
  toolCallEndTokenId : Int

/-- `json.dumps(value, ensure_ascii=False)` -/
def Env.dumps (env : Env) (value : Json) : List Char := JsonText.dumpsBy env.floats .control value

/-- `_convert_param_value` -/
def Env.convertParamValue (env : Env) (paramConfig : Json) (paramName paramValue : List Char) :
    Except Raised Json :=
  match paramConfig with
  | .obj config =>
    let paramSchema := (Items.get? config (String.ofList paramName)).getD (.obj [])
    coerceToSchemaType env.floats env.numbers paramValue (extractTypesFromSchema paramSchema)
  | _ => .error (.exception "AttributeError")

/-- The value of a parameter of a function. -/
def Env.converted (env : Env) (functionName paramName paramValue : List Char) :
    Except Raised Json := do
  let paramConfig ← findToolProperties env.tools functionName
  env.convertParamValue paramConfig paramName paramValue

/-- `value[1:]` where it starts with a newline. -/
def afterNewline : List Char → List Char
  | '\n' :: value => value
  | value => value

/-- `value[:-1]` where it ends with a newline. -/
def beforeNewline (value : List Char) : List Char :=
  if ['\n'] <:+ value then value.dropLast else value

/-- The lazy group behind `<parameter=` and what is left of the text: up to
`</parameter>`, to what is no part of the match, or to `$`, which is also before a newline
that ends the text. -/
def parameterGroup : List Char → List Char × List Char
  | [] => ([], [])
  | c :: text =>
    if parameterEndToken <+: c :: text then ([], (c :: text).drop parameterEndToken.length)
    else if parameterPrefix <+: c :: text ∨ functionEndToken <+: c :: text ∨ c :: text = ['\n'] then
      ([], c :: text)
    else
      let (group, rest) := parameterGroup text
      (c :: group, rest)

/-- `tool_call_parameter_regex.findall` -/
def parameterTextsFrom : Nat → List Char → List (List Char)
  | 0, _ => []
  | fuel + 1, text =>
    match cut parameterPrefix text with
    | none => []
    | some (_, after) =>
      let (group, rest) := parameterGroup after
      group :: parameterTextsFrom fuel rest

def parameterTexts (text : List Char) : List (List Char) := parameterTextsFrom text.length text

/-- One round of the loop over the parameters of a complete call. -/
def addParameter (env : Env) (functionName : List Char) (paramDict : Items Json)
    (matchText : List Char) : Except Raised (Items Json) :=
  match cut ['>'] matchText with
  | none => .error (.exception "ValueError")
  | some (paramName, paramValue) => do
    let value ← env.converted functionName paramName (beforeNewline (afterNewline paramValue))
    pure (paramDict.set (String.ofList paramName) value)

structure ToolCall where
  name : List Char
  arguments : List Char
  deriving DecidableEq

/-- `_parse_xml_function_call` -/
def parseXmlFunctionCall (env : Env) (functionCallStr : List Char) :
    Except Raised (Option ToolCall) :=
  match cut ['>'] functionCallStr with
  | none => .ok none
  | some (functionName, parameters) => do
    -- `find_tool_properties` is called whether or not there are parameters
    let _ ← findToolProperties env.tools functionName
    let paramDict ← (parameterTexts parameters).foldlM (addParameter env functionName) []
    pure (some ⟨functionName, env.dumps (.obj paramDict)⟩)

/-- What a lazy group up to `$` takes of the rest of a text. -/
def toEnd (text : List Char) : List Char := beforeNewline text

/-- `tool_call_regex.findall`, the group that is not empty. -/
def toolCallTextsFrom : Nat → List Char → List (List Char)
  | 0, _ => []
  | fuel + 1, text =>
    match cut toolCallStartToken text with
    | none => []
    | some (_, body) =>
      match cut toolCallEndToken body with
      | some (inner, after) => inner :: toolCallTextsFrom fuel after
      | none => [toEnd body]

/-- `tool_call_function_regex.findall`, the group that is not empty. -/
def functionTextsFrom : Nat → List Char → List (List Char)
  | 0, _ => []
  | fuel + 1, text =>
    match cut toolCallPrefix text with
    | none => []
    | some (_, body) =>
      match cut functionEndToken body with
      | some (inner, after) => inner :: functionTextsFrom fuel after
      | none => [body]

def functionTexts (text : List Char) : List (List Char) := functionTextsFrom text.length text

/-- `_get_function_calls` -/
def getFunctionCalls (modelOutput : List Char) : List (List Char) :=
  let rawToolCalls := toolCallTextsFrom modelOutput.length modelOutput
  let rawToolCalls := if rawToolCalls = [] then [modelOutput] else rawToolCalls
  rawToolCalls.flatMap functionTexts

structure Extracted where
  toolsCalled : Bool
  toolCalls : List ToolCall
  content : Option (List Char)

/-- `model_output[:content_index]` -/
def contentBefore (modelOutput : List Char) : List Char :=
  match cut toolCallStartToken modelOutput with
  | some (before, _) => before
  | none => ((cut toolCallPrefix modelOutput).map Prod.fst).getD modelOutput

/-- `extract_tool_calls`; whatever a call raises, the output is content. -/
def extractToolCalls (env : Env) (modelOutput : List Char) : Extracted :=
  if cut toolCallPrefix modelOutput = none then ⟨false, [], some modelOutput⟩
  else if getFunctionCalls modelOutput = [] then ⟨false, [], some modelOutput⟩
  else match (getFunctionCalls modelOutput).mapM (parseXmlFunctionCall env) with
    | .error _ => ⟨false, [], some modelOutput⟩
    | .ok toolCalls =>
      let validToolCalls := toolCalls.reduceOption
      let content := contentBefore modelOutput
      ⟨validToolCalls ≠ [], validToolCalls, if content = [] then none else some content⟩

/-- The state of the streaming parser. -/
structure State where
  prevToolCallArr : List ToolCall
  streamedArgsForTool : List (List Char)
  currentToolIndex : Nat
  isToolCallStarted : Bool
  headerSent : Bool
  currentFunctionName : Option (List Char)
  paramCount : Nat
  inFunction : Bool
  jsonStarted : Bool
  jsonClosed : Bool
  deriving DecidableEq

def State.initial : State := ⟨[], [], 0, false, false, none, 0, false, false, false⟩

/-- `_reset_streaming_state`, which leaves the calls that were started. -/
def State.reset (s : State) : State :=
  { State.initial with
    prevToolCallArr := s.prevToolCallArr
    streamedArgsForTool := s.streamedArgsForTool }

/-- `streamed_args_for_tool[current_tool_index] += text` -/
def State.addStreamed (s : State) (text : List Char) : State :=
  { s with streamedArgsForTool := s.streamedArgsForTool.modify s.currentToolIndex (· ++ text) }

def contentDelta (content : List Char) : DeltaMessage := ⟨some (String.ofList content), none, []⟩

def argumentsDelta (s : State) (arguments : List Char) : DeltaMessage :=
  ⟨none, none, [⟨s.currentToolIndex, none, none, none, some (String.ofList arguments)⟩]⟩

/-- `len(tool_call_complete_regex.findall(text))` -/
def completeCallsFrom : Nat → List Char → Nat
  | 0, _ => 0
  | fuel + 1, text =>
    match cut toolCallStartToken text with
    | none => 0
    | some (_, body) =>
      match cut toolCallEndToken body with
      | some (_, after) => completeCallsFrom fuel after + 1
      | none => 0

def completeCalls (text : List Char) : Nat := completeCallsFrom text.length text

/-- `text.count(token)` -/
def count (token text : List Char) : Nat := (behind token text).length

/-- The answer to tokens without text. -/
def withoutText (env : Env) (s : State) (currentText : List Char) (deltaTokenIds : List Int) :
    Option DeltaMessage :=
  if deltaTokenIds ≠ [] ∧ env.toolCallEndTokenId ∉ deltaTokenIds then
    if 0 < completeCalls currentText ∧ s.prevToolCallArr ≠ [] then
      if count toolCallStartToken currentText = count toolCallEndToken currentText then
        some (contentDelta [])
      else none
    else if s.isToolCallStarted = false ∧ currentText ≠ [] then some (contentDelta [])
    else none
  else none

/-- The call has ended, so that the next one is looked for. -/
def State.advance (s : State) (currentText : List Char) : State :=
  { s with
    currentToolIndex := s.currentToolIndex + 1
    headerSent := false
    paramCount := 0
    jsonStarted := false
    jsonClosed := false
    isToolCallStarted :=
      s.isToolCallStarted && s.currentToolIndex + 1 < count toolCallStartToken currentText }

/-- What is not part of a call. -/
def contentPhase (env : Env) (s : State) (currentText deltaText : List Char)
    (deltaTokenIds : List Int) : Option DeltaMessage × State :=
  match cut toolCallStartToken deltaText with
  | some (contentBefore, _) =>
    (if contentBefore = [] then none else some (contentDelta contentBefore),
      { s with isToolCallStarted := true })
  | none =>
    if env.toolCallStartTokenId ∈ deltaTokenIds then (none, { s with isToolCallStarted := true })
    else if toolCallEndToken <:+ rstripped currentText ∧ stripped deltaText = [] then (none, s)
    else (some (contentDelta deltaText), s)

/-- `tool_text`: the call from its token to the token that ends it. -/
def toolText (currentText : List Char) (index : Nat) : Option (List Char) :=
  (behind toolCallStartToken currentText)[index]?.map fun after =>
    let text := toolCallStartToken ++ after
    match find toolCallEndToken text with
    | none => text
    | some stop => text.take (stop + toolCallEndToken.length)

/-- The name in `<function=name>` -/
def functionName (toolText : List Char) : Option (List Char) := do
  let (_, after) ← cut toolCallPrefix toolText
  let (name, _) ← cut ['>'] after
  pure name

/-- `param_end_idx` -/
def paramEndIdx (valueText : List Char) : Option Nat :=
  match find parameterEndToken valueText with
  | some stop => some stop
  | none =>
    match find parameterPrefix valueText, find functionEndToken valueText with
    | some next, none => some next
    | some next, some stop => if next < stop then some next else some stop
    | none, some stop => some stop
    | none, none => find toolCallEndToken valueText

/-- The name and the value of a parameter that is complete. -/
def readParameter (remaining : List Char) : Option (List Char × List Char) := do
  let (paramName, valueText) ← cut ['>'] remaining
  let stop ← paramEndIdx (afterNewline valueText)
  pure (paramName, beforeNewline ((afterNewline valueText).take stop))

/-- `json_fragment` -/
def jsonFragment (env : Env) (paramCount : Nat) (paramName : List Char) (value : Json) :
    List Char :=
  (if paramCount = 0 then [] else [',', ' ']) ++
    ('"' :: (paramName ++ ['"', ':', ' '] ++ env.dumps value))

/-- The loop over the parameters from `param_count` on: the fragments, the new count, and
what the loop raised. -/
def streamParameters (env : Env) (functionName : List Char) : Nat → List (List Char) →
    List (List Char) × Nat × Option Raised
  | paramCount, [] => ([], paramCount, none)
  | paramCount, remaining :: rest =>
    match readParameter remaining with
    | none => ([], paramCount, none)
    | some (paramName, paramValue) =>
      match env.converted functionName paramName paramValue with
      | .error e => ([], paramCount, some e)
      | .ok value =>
        let (fragments, paramCount', raised) :=
          streamParameters env functionName (paramCount + 1) rest
        (jsonFragment env paramCount paramName value :: fragments, paramCount', raised)

/-- `func_content`, where `text.find` is `-1` if there is no function. -/
def functionContent (toolText : List Char) : Option (List Char) :=
  let start := match find toolCallPrefix toolText with
    | some start => start + toolCallPrefix.length
    | none => toolCallPrefix.length - 1
  (cut functionEndToken (toolText.drop start)).map Prod.fst

/-- The arguments of a call that ended, for `prev_tool_call_arr`. -/
def State.recorded (env : Env) (s : State) (toolText : List Char) : State :=
  match (functionContent toolText).map (parseXmlFunctionCall env) with
  | some (.ok (some call)) =>
    { s with
      prevToolCallArr := s.prevToolCallArr.modify s.currentToolIndex fun entry =>
        { entry with arguments := call.arguments } }
  | _ => s

def headerDelta (env : Env) (s : State) (name : List Char) : DeltaMessage :=
  ⟨none, none, [⟨s.currentToolIndex, some (env.generateToolCallId s.streamedArgsForTool.length),
    some "function", some (String.ofList name), some ""⟩]⟩

def State.named (s : State) (name : List Char) : State :=
  { s with
    currentFunctionName := some name
    headerSent := true
    inFunction := true
    prevToolCallArr := s.prevToolCallArr ++ [⟨name, ['{', '}']⟩]
    streamedArgsForTool := s.streamedArgsForTool ++ [[]] }

def headerPhase (env : Env) (s : State) (toolText : List Char) : Option DeltaMessage × State :=
  match functionName toolText with
  | none => (none, s)
  | some name => (some (headerDelta env s name), s.named name)

def closePhase (env : Env) (s : State) (toolText : List Char) : Option DeltaMessage × State :=
  if s.jsonClosed = false ∧ find functionEndToken toolText ≠ none then
    (some (argumentsDelta s ['}']),
      { (s.recorded env toolText).addStreamed ['}'] with inFunction := false, jsonClosed := true })
  else (none, s)

def bodyPhase (env : Env) (s : State) (toolText : List Char) :
    Except Raised (Option DeltaMessage) × State :=
  if s.jsonStarted = false then
    let s := { s with jsonStarted := true }
    if s.currentToolIndex < s.streamedArgsForTool.length then
      (.ok (some (argumentsDelta s ['{'])), s.addStreamed ['{'])
    else (.error (.exception "IndexError"), s)
  else
    let (fragments, paramCount, raised) :=
      streamParameters env (s.currentFunctionName.getD []) s.paramCount
        ((behind parameterPrefix toolText).drop s.paramCount)
    let s := { s with paramCount }
    match raised with
    | some e => (.error e, s)
    | none =>
      if fragments = [] then
        let (message, s) := closePhase env s toolText
        (.ok message, s)
      else (.ok (some (argumentsDelta s fragments.flatten)), s.addStreamed fragments.flatten)

/-- The part of `extract_tool_calls_streaming` that is in a call. -/
def callPhase (env : Env) (s : State) (toolText : List Char) :
    Except Raised (Option DeltaMessage) × State :=
  if s.headerSent = false then
    let (message, s) := headerPhase env s toolText
    (.ok message, s)
  else if s.inFunction = true then bodyPhase env s toolText
  else (.ok none, s)

/-- `extract_tool_calls_streaming` after `_reset_streaming_state`. -/
def stream (env : Env) (s : State) (currentText deltaText : List Char)
    (deltaTokenIds : List Int) : Except Raised (Option DeltaMessage) × State :=
  if deltaText = [] then (.ok (withoutText env s currentText deltaTokenIds), s)
  else if s.jsonClosed = true ∧ s.inFunction = false ∧
      s.currentToolIndex < count toolCallEndToken currentText then
    (.ok none, s.advance currentText)
  else if s.isToolCallStarted = false then
    let (message, s) := contentPhase env s currentText deltaText deltaTokenIds
    (.ok message, s)
  else match toolText currentText s.currentToolIndex with
    | none => (.ok none, s)
    | some toolText => callPhase env s toolText

/-- `extract_tool_calls_streaming` -/
def extractToolCallsStreaming (env : Env) (s : State) (h : Handed) :
    Except Raised (Option DeltaMessage) × State :=
  stream env (if h.previousText = "" then s.reset else s) h.currentText.toList
    h.deltaText.toList h.deltaTokenIds

/-- The tool parser as `parse_delta` calls it. -/
def toolParser (env : Env) : ToolParser State where
  supportsRequiredAndNamed := true
  extractToolCallsStreaming h _ := ⟨fun s => extractToolCallsStreaming env s h⟩
  extractNamed h functionName toolCallIdx returned :=
    pure (extractNamedToolCallStreaming env.makeToolCallId h.deltaText functionName toolCallIdx
      returned)
  extractRequired h toolCallIdx returned := .ofExcept
    (extractRequiredToolCallStreaming (.standard env.floats env.partialLoads)
      env.makeToolCallId h toolCallIdx returned)
  toolCallsSeen s := !s.prevToolCallArr.isEmpty

end TrajProxy.Parsers.Qwen3Coder
