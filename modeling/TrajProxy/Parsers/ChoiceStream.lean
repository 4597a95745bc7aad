import TrajProxy.Parsers.ParseDelta
import TrajProxy.Parsers.ToolStream
import TrajProxy.Parsers.ToolText

/-! `tool_parsers/streaming.py`: the stream of a named tool choice, whose text is the
arguments, and of a required one, whose text is a JSON list of calls. -/

namespace TrajProxy.Parsers
open Matching (afterLiteral)
open Pipeline (DeltaMessage DeltaToolCall)

def callDelta (delta : DeltaToolCall) : DeltaMessage := ⟨none, none, [delta]⟩

/-- `extract_named_tool_call_streaming`; no tokenizer is a Mistral one. -/
def extractNamedToolCallStreaming (makeToolCallId : Nat → String) (deltaText functionName : String)
    (toolCallIdx : Nat) (functionNameReturned : Bool) : Option DeltaMessage × Bool :=
  if functionNameReturned then
    (some (callDelta ⟨0, none, none, none, some deltaText⟩), true)
  else
    (some (callDelta ⟨0, some (makeToolCallId toolCallIdx), some "function", some functionName,
      some deltaText⟩), true)

/-- The level after a bracket. -/
def bracketStep (level : Int) (c : Char) : Int :=
  if c = '{' then level + 1 else if c = '}' then level - 1 else level

/-- `_bracket_level` -/
def bracketLevel (s : List Char) : Int := s.foldl bracketStep 0

/-- The loop of `filter_delta_text`: what is kept, and whether the last bracket closed
the outermost one. -/
def filterFrom (bracketLevel : Int) (passedZero : Bool) : List Char → List Char × Bool
  | [] => ([], passedZero)
  | c :: rest =>
    let level := bracketStep bracketLevel c
    let passedZero := if c = '{' ∨ c = '}' then decide (level = 0) else passedZero
    if level ≠ 0 then
      let (updated, passedZero) := filterFrom level passedZero rest
      (c :: updated, passedZero)
    else if c = ',' then ([], passedZero)
    else filterFrom level passedZero rest

/-- `filter_delta_text` -/
def filterDeltaText (deltaText previousText : List Char) : List Char × Bool :=
  filterFrom (bracketLevel previousText) false deltaText

/-- `key in item` -/
def hasKey (key : String) : Json → Except Raised Bool
  | .obj items => .ok (items.any fun item => item.1 = key)
  | .str s => .ok (Text.contains s key)
  | .arr items => .ok (items.any fun
      | .str s => s = key
      | _ => false)
  | _ => .error (.exception "TypeError")

/-- `item["name"]` as the name of a function; the model has names that are strings. -/
def nameOf : Json → Except Raised String
  | .obj items =>
    match Items.get? items "name" with
    | some (.str name) => .ok name
    | some _ => .error (.exception "name")
    | none => .error (.exception "KeyError")
  | _ => .error (.exception "TypeError")

/-- `.*"parameters":\s*(.*)`, which matches at the last place. -/
def lastParameters (text : List Char) : Option (List Char) :=
  (text.tails.filterMap (afterLiteral "\"parameters\":".toList)).getLast?.map
    (List.dropWhile regexSpace)

/-- The part of `extract_required_tool_call_streaming` for a list that is not empty. -/
def requiredDelta (makeToolCallId : Nat → String) (h : Handed) (toolCallIdx : Nat)
    (functionNameReturned : Bool) (obj : List Json) (last : Json) :
    Except Raised (Option DeltaMessage × Bool) := do
  let previousText := h.previousText.toList
  let finishesPreviousTool := (filterDeltaText h.deltaText.toList previousText).2
  let index := obj.length - 1
  let incomplete ← do
    if finishesPreviousTool then pure false
    else if !(← hasKey "name" last) then pure true
    else pure !(← hasKey "parameters" last)
  if incomplete then pure (none, false)
  else if functionNameReturned then
    let (deltaText, _) := filterDeltaText h.deltaText.toList previousText
    if deltaText = [] then pure (none, true)
    else pure (some (callDelta ⟨index, none, none, none, some (String.ofList deltaText)⟩), true)
  else do
    let arguments := (lastParameters h.currentText.toList).getD []
    let (arguments, _) := filterDeltaText arguments previousText
    -- the call that ends here is the one before the last
    let call ←
      if finishesPreviousTool && !(← hasKey "parameters" last) then
        match obj.dropLast.getLast? with
        | some call => pure call
        | none => .error (.exception "IndexError")
      else pure last
    let name ← nameOf call
    pure (some (callDelta ⟨index, some (makeToolCallId toolCallIdx), some "function", some name,
      some (String.ofList arguments)⟩), true)

/-- `extract_required_tool_call_streaming` -/
def extractRequiredToolCallStreaming (json : JsonModule) (makeToolCallId : Nat → String)
    (h : Handed) (toolCallIdx : Nat) (functionNameReturned : Bool) :
    Except Raised (Option DeltaMessage × Bool) :=
  if h.currentText = "" then .ok (none, functionNameReturned)
  else match json.partialLoads h.currentText.toList with
    | .error (.other message) => .error (.exception message)
    | .error .decodeError => .ok (none, false)
    | .ok (.arr obj) =>
      match obj.getLast? with
      | none => .ok (none, false)
      | some last => requiredDelta makeToolCallId h toolCallIdx functionNameReturned obj last
    | .ok _ => .ok (none, false)

end TrajProxy.Parsers
