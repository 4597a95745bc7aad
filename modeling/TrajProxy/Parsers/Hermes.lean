import TrajProxy.Parsers.ChoiceStream

/-! `Hermes2ProToolParser`: a tool call is a JSON object between `<tool_call>` and
`</tool_call>`. -/

namespace TrajProxy.Parsers.Hermes
open TrajProxy.Substring (cut find)
open Matching (afterLiteral firstMatch)
open Pipeline (DeltaMessage DeltaToolCall)

def toolCallStartToken : List Char := "<tool_call>".toList

def toolCallEndToken : List Char := "</tool_call>".toList

/-- What the parser uses from outside: `json`, and `make_tool_call_id` for the call of
each index. -/
structure Env where
  json : JsonModule
  makeToolCallId : Nat → String

/-- The entries of `prev_tool_call_arr` and of `streamed_args_for_tool` at one index;
the two lists grow together. -/
structure ToolEntry where
  name : Option (List Char)
  arguments : Option (List Char)
  streamedArgs : List Char

def ToolEntry.empty : ToolEntry := ⟨none, none, []⟩

structure State where
  sentContentIdx : Nat
  entries : List ToolEntry

def State.initial : State := ⟨0, []⟩

/-- `_extract_content` -/
def extractContent (sentContentIdx : Nat) (currentText : List Char) : Option (List Char) × Nat :=
  let sendableIdx :=
    match find toolCallStartToken currentText with
    | none => currentText.length - partialTagOverlap currentText toolCallStartToken
    | some index => index
  if sentContentIdx < sendableIdx then
    (some ((currentText.take sendableIdx).drop sentContentIdx), sendableIdx)
  else (none, sentContentIdx)

/-- The loop of `_extract_tool_call_jsons` over what follows `pos`; every round takes
at least one character. -/
def toolCallJsonsFrom (json : JsonModule) : Nat → List Char →
    Except String (List (List Char × Bool))
  | 0, _ => .ok []
  | fuel + 1, text =>
    match cut toolCallStartToken text with
    | none => .ok []
    | some (_, body) =>
      match cut toolCallEndToken body with
      | some (inner, after) => do
        let results ← toolCallJsonsFrom json fuel after
        pure ((stripped inner, true) :: results)
      | none => do
        let overlap := partialTagOverlap body toolCallEndToken
        let raw := if overlap = 0 then body else body.take (body.length - overlap)
        let tcJson := stripped raw
        let isComplete ← if tcJson.isEmpty then .ok false else isCompleteJson json tcJson
        pure [(tcJson, isComplete)]

/-- `_extract_tool_call_jsons` -/
def extractToolCallJsons (json : JsonModule) (text : List Char) :
    Except String (List (List Char × Bool)) :=
  toolCallJsonsFrom json text.length text

/-- `"name"\s*:\s*"([^"]+)"` -/
def namePattern (text : List Char) : Option (List Char) := do
  let text ← afterLiteral "\"name\"".toList text
  let text ← afterLiteral [':'] (text.dropWhile regexSpace)
  let text ← afterLiteral ['"'] (text.dropWhile regexSpace)
  let name := text.takeWhile (· ≠ '"')
  if name = [] ∨ text.drop name.length = [] then none else some name

/-- `"arguments"\s*:\s*`, of which the text after it is used. -/
def argumentsPattern (text : List Char) : Option (List Char) := do
  let text ← afterLiteral "\"arguments\"".toList text
  let text ← afterLiteral [':'] (text.dropWhile regexSpace)
  pure (text.dropWhile regexSpace)

/-- `_extract_tool_name` -/
def extractToolName (tcJson : List Char) : Option (List Char) := firstMatch namePattern tcJson

/-- `_extract_tool_args` -/
def extractToolArgs (tcJson : List Char) (isComplete : Bool) : Option (List Char) :=
  (firstMatch argumentsPattern tcJson).map fun raw =>
    if isComplete then
      let raw := rstripped raw
      if ['}'] <:+ raw then rstripped raw.dropLast else raw
    else raw

/-- `_compute_args_diff` -/
def computeArgsDiff (entry : ToolEntry) (tcJson : List Char) (isComplete : Bool) :
    Option (List Char) × ToolEntry :=
  match extractToolArgs tcJson isComplete with
  | none => (none, entry)
  | some args =>
    if args.length ≤ entry.streamedArgs.length then (none, entry)
    else (some (args.drop entry.streamedArgs.length),
      { entry with arguments := some args, streamedArgs := args })

def nameDelta (env : Env) (index : Nat) (name : List Char) : DeltaToolCall :=
  ⟨index, some (env.makeToolCallId index), some "function", some (String.ofList name), none⟩

def argumentsDelta (index : Nat) (diff : List Char) : DeltaToolCall :=
  ⟨index, none, none, none, some (String.ofList diff)⟩

/-- The name that is streamed back, unless it was; `none` where it is not complete. -/
def streamName (env : Env) (index : Nat) (tcJson : List Char) (entry : ToolEntry) :
    Option (List DeltaToolCall × ToolEntry) :=
  match entry.name with
  | some _ => some ([], entry)
  | none => (extractToolName tcJson).map fun name =>
      ([nameDelta env index name], { entry with name := some name })

/-- The loop over `tool_call_jsons` from an index on, with the entries from there on. -/
def streamToolCalls (env : Env) : Nat → List (List Char × Bool) → List ToolEntry →
    List DeltaToolCall × List ToolEntry
  | _, [], entries => ([], entries)
  | index, (tcJson, isComplete) :: rest, entries =>
    let entry := entries.headD .empty
    match streamName env index tcJson entry with
    -- without its name the call is left by `break`, and so are those after it
    | none => ([], entry :: entries.tail)
    | some (named, entry) =>
      let (diff, entry) := computeArgsDiff entry tcJson isComplete
      let (more, later) := streamToolCalls env (index + 1) rest entries.tail
      (named ++ (diff.map (argumentsDelta index)).toList ++ more, entry :: later)

/-- `extract_tool_calls_streaming`. What `is_complete_json` lets through is caught, when
the content counts as sent. -/
def extractToolCallsStreaming (env : Env) (s : State) (currentText : List Char) :
    Option DeltaMessage × State :=
  let (content, sentContentIdx) := extractContent s.sentContentIdx currentText
  match extractToolCallJsons env.json currentText with
  | .error _ => (none, { s with sentContentIdx := sentContentIdx })
  | .ok toolCallJsons =>
    let (toolCallDeltas, entries) := streamToolCalls env 0 toolCallJsons s.entries
    (if content = none ∧ toolCallDeltas = [] then none
      else some ⟨content.map String.ofList, none, toolCallDeltas⟩,
      ⟨sentContentIdx, entries⟩)

/-- A call as `extract_tool_calls` returns it. -/
structure ToolCall where
  name : Json
  arguments : List Char

structure Extracted where
  toolsCalled : Bool
  toolCalls : List ToolCall
  content : Option (List Char)

/-- `<tool_call>(.*?)</tool_call>|<tool_call>(.*)` with `findall`: the group that is not
empty, which is the last one's after a call that is not closed. -/
def functionCallTextsFrom : Nat → List Char → List (List Char)
  | 0, _ => []
  | fuel + 1, text =>
    match cut toolCallStartToken text with
    | none => []
    | some (_, body) =>
      match cut toolCallEndToken body with
      | some (inner, after) => inner :: functionCallTextsFrom fuel after
      | none => [body]

def functionCallTexts (text : List Char) : List (List Char) :=
  functionCallTextsFrom text.length text

/-- `function_call["name"]` and `function_call["arguments"]` -/
def readToolCall (json : JsonModule) (text : List Char) : Option ToolCall := do
  let functionCall ← (json.loads text).toOption
  match functionCall with
  | .obj items => do
    let name ← Items.get? items "name"
    let arguments ← Items.get? items "arguments"
    pure ⟨name, json.dumps arguments⟩
  | _ => none

/-- `extract_tool_calls`; whatever a call raises, the output is content. -/
def extractToolCalls (json : JsonModule) (modelOutput : List Char) : Extracted :=
  match cut toolCallStartToken modelOutput with
  | none => ⟨false, [], some modelOutput⟩
  | some (content, _) =>
    match (functionCallTexts modelOutput).mapM (readToolCall json) with
    | none => ⟨false, [], some modelOutput⟩
    | some toolCalls => ⟨true, toolCalls, if content = [] then none else some content⟩

/-- The tool parser as `parse_delta` calls it. -/
def toolParser (env : Env) : ToolParser State where
  supportsRequiredAndNamed := true
  extractToolCallsStreaming h _ := ⟨fun s =>
    let (delta, s') := extractToolCallsStreaming env s h.currentText.toList
    (.ok delta, s')⟩
  extractNamed h functionName toolCallIdx returned :=
    pure (extractNamedToolCallStreaming env.makeToolCallId h.deltaText functionName toolCallIdx
      returned)
  extractRequired h toolCallIdx returned := .ofExcept
    (extractRequiredToolCallStreaming env.json env.makeToolCallId h toolCallIdx returned)
  toolCallsSeen s := !s.entries.isEmpty

end TrajProxy.Parsers.Hermes
