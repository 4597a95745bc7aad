import TrajProxy.Parsers.Qwen3CoderStream

/-! `Qwen3CoderToolParser` behind `parse_delta`: in every state the arguments that a client
has of a call are those in `streamed_args_for_tool`, and only the last call can lack its
closing brace. -/

namespace TrajProxy.Parsers.Qwen3Coder
open Pipeline (DeltaMessage)

theorem zeroText_printable (_ : UInt64) : JsonText.AllPrintable "0.0".toList :=
  JsonText.allPrintable_of_all rfl

/-- A tool with a number and a string, and `int` and `float` of the text `inf`. -/
def scaleEnv : Env where
  floats :=
    { text := fun _ => "0.0".toList
      printable := zeroText_printable
      read := fun _ => 0 }
  numbers := ⟨fun _ => none, fun text => if text = "inf".toList then some .infinite else none⟩
  partialLoads _ := .error .decodeError
  tools := [⟨"scale".toList,
    some (.obj [("properties", .obj [("by", .obj [("type", .str "number")]),
      ("unit", .obj [("type", .str "string")])])])⟩]
  generateToolCallId index := "call_" ++ toString index
  makeToolCallId index := "call_" ++ toString index
  toolCallStartTokenId := 1
  toolCallEndTokenId := 2

section ParseDelta

variable {ρ : Type} {P : Parser ρ State} {env : Env} {choice : StreamToolChoice}

/-- The run of the parser in the calls of `parse_delta` for one stream. -/
theorem tracks_parseDeltas (delegates : P.Delegates (toolParser env) choice) (reasoning : ρ)
    (promptTokenIds : Option (List Int)) (calls : List (String × List Int))
    {messages : List (Option DeltaMessage)} {last : ParserState ρ State}
    (returns : (P.parseDeltas promptTokenIds calls).run (.initial reasoning .initial) =
      (.ok messages, last))
    (Q : List Char → List Called → Option Called → Prop) (start : Q [] [] none)
    (moves : ∀ text more done current done' current', Q text done current →
      Moves env (text ++ more) done current done' current' → Q (text ++ more) done' current') :
    ∃ done current, Tracks env last.tool done current ∧
      takeDeltas [] (sentToolCalls messages) = some (clientFrom env 0 (done ++ current.toList)) ∧
      Q (P.textAfterReasoning (.initial reasoning .initial) promptTokenIds calls).toList
        done current := by
  have steps := parseDeltas_step (ready_initial P reasoning State.initial promptTokenIds) calls
  obtain ⟨linked, passed⟩ := (Py.ends_of_ok returns).mp steps
  have hands : P.HandsOver := by
    refine ⟨?_, fun e raised => ?_⟩
    · rw [delegates.toolParser]
      exact Option.some_ne_none _
    · rw [delegates.request] at raised
      cases raised
  have nothing : (toolParser env).Ran choice State.initial
      (ParserState.initial reasoning State.initial).handed []
      (ParserState.initial reasoning State.initial).tool := .nil
  have run := parseDeltas_ran delegates promptTokenIds calls nothing
  obtain ⟨own, ran, sent⟩ := (Py.ends_of_ok returns).mp run
  obtain ⟨-, done, current, tracks, taken, holds⟩ := tracks_ran Q start moves ran linked
  rw [List.nil_append, ← sent] at taken
  have text : handedText last.handed =
      P.textAfterReasoning (.initial reasoning .initial) promptTokenIds calls :=
    (passed hands).trans String.empty_append
  rw [text] at holds
  exact ⟨done, current, tracks, taken, holds⟩

/-- What a client has of the last call. -/
theorem Tracks.current_arguments {s : State} {done : List Called} {call : Called}
    (h : Tracks env s done (some call)) :
    call.arguments = [] ∨ call.arguments = openArguments env call.params ∨
      call.arguments = closedArguments env call.params := by
  cases h.stage with
  | named _ _ _ _ _ _ _ arguments => exact .inl arguments
  | opened _ _ _ _ _ _ arguments => exact .inr (.inl arguments)
  | closed _ _ _ _ arguments => exact .inr (.inr arguments)

/-- What it has of any call. -/
theorem Tracks.arguments {s : State} {done : List Called} {current : Option Called}
    (h : Tracks env s done current) {call : Called} (mem : call ∈ done ++ current.toList) :
    call.arguments = [] ∨ call.arguments = openArguments env call.params ∨
      call.arguments = closedArguments env call.params := by
  rcases List.mem_append.mp mem with earlier | last
  · exact .inr (.inr (h.closed call earlier))
  · obtain rfl := Option.mem_toList.mp last
    exact h.current_arguments

/-- A request with this tool parser and no reasoning parser. -/
def plainParser (env : Env) : Parser Unit State where
  reasoningParser := none
  toolParser := some (toolParser env)
  request := .ok .other

theorem plainParser_delegates (env : Env) :
    (plainParser env).Delegates (toolParser env) .other where
  toolParser := rfl
  request := rfl
  plain := .inr rfl
  silent _ none := nomatch none

theorem exists_of_isOk {α σ : Type} {ended : Except Raised α × σ} (ok : ended.1.isOk = true) :
    ∃ a s, ended = (.ok a, s) := by
  obtain ⟨result, s⟩ := ended
  cases result with
  | ok a => exact ⟨a, s, rfl⟩
  | error e => cases ok

end ParseDelta

end TrajProxy.Parsers.Qwen3Coder
