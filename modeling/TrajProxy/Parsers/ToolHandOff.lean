import TrajProxy.Parsers.HandOff
import TrajProxy.Parsers.ToolStream

/-! The tool calls in the messages of `parse_delta` are those of the tool parser, run on
what it was handed. -/

namespace TrajProxy.Parsers
open Pipeline (DeltaMessage)

variable {ρ τ : Type}

/-- A tool parser was called with all this, one after the other, and returned these. -/
inductive ToolParser.Ran (T : ToolParser τ) (choice : StreamToolChoice) (start : τ) :
    List Handed → List (Option DeltaMessage) → τ → Prop
  | nil : ToolParser.Ran T choice start [] [] start
  | snoc {handed : List Handed} {messages : List (Option DeltaMessage)} {t t' : τ} {h : Handed}
      {message : Option DeltaMessage} (earlier : ToolParser.Ran T choice start handed messages t)
      (last : (T.extractToolCallsStreaming h choice).run t = (.ok message, t')) :
      ToolParser.Ran T choice start (handed ++ [h]) (messages ++ [message]) t'

/-- A reasoning parser that leaves the tool calls to the tool parser. -/
def ReasoningParser.Silent (R : ReasoningParser ρ) : Prop :=
  ∀ h r, (R.extractReasoningStreaming h).Ends r (fun delta _ => sentToolCalls [delta] = [])
    fun _ _ => True

/-- A request for which the tool parser itself is called. -/
structure Parser.Delegates (P : Parser ρ τ) (T : ToolParser τ) (choice : StreamToolChoice) :
    Prop where
  toolParser : P.toolParser = some T
  request : P.request = .ok choice
  plain : T.supportsRequiredAndNamed = false ∨ choice = .other
  silent : ∀ R, P.reasoningParser = some R → R.Silent

section Linked

theorem Linked.init {handed : List Handed} {h : Handed} (linked : Linked (handed ++ [h])) :
    Linked handed where
  adds other mem := linked.adds other (List.mem_append_left _ mem)
  starts other head := linked.starts other (by rw [List.head?_append, head]; rfl)
  follows := (List.isChain_append.mp linked.follows).1

/-- The current text of the last call is all the text that was handed over. -/
theorem Linked.currentText {handed : List Handed} {h : Handed} (linked : Linked (handed ++ [h])) :
    h.currentText = handedText (handed ++ [h]) := by
  have adds := (linked.adds h (List.mem_append_right _ List.mem_cons_self)).text
  induction handed using List.reverseRecOn generalizing h with
  | nil =>
    rw [handedText_snoc, ← adds, (linked.starts h rfl).text]
    rfl
  | append_singleton handed before ih =>
    have earlier := linked.init
    have first := ih earlier (earlier.adds before (List.mem_append_right _ List.mem_cons_self)).text
    have follows := (List.isChain_append.mp linked.follows).2.2 before (by simp) h (by simp)
    rw [handedText_snoc, ← first, ← adds, follows.text]

end Linked

section Frame

variable {P : Parser ρ τ} {s : ParserState ρ τ}

/-- Neither the tool parser nor what it was handed changes. -/
structure SameTool (s s' : ParserState ρ τ) : Prop where
  tool : s'.tool = s.tool
  handed : s'.handed = s.handed

theorem SameTool.refl (s : ParserState ρ τ) : SameTool s s := ⟨rfl, rfl⟩

theorem sameTool_onReasoning {α : Type} (m : Py ρ α) : Py.Keeps (SameTool s) (onReasoning m) :=
  Py.keeps_focus m fun _ _ same => ⟨same.tool, same.handed⟩

theorem sameTool_modifyStream (f : StreamState → StreamState) :
    Py.Keeps (SameTool s) (modifyStream f) :=
  Py.keeps_modify fun _ same => ⟨same.tool, same.handed⟩

theorem sameTool_checkPrompt (promptTokenIds : Option (List Int)) :
    Py.Keeps (SameTool s) (P.checkPrompt promptTokenIds) := by
  refine Py.keeps_read.bind fun s' => ?_
  split
  · refine (sameTool_modifyStream _).bind fun _ => ?_
    split
    · exact sameTool_modifyStream _
    · refine (sameTool_onReasoning _).bind fun ended => ?_
      split_ifs
      · exact sameTool_modifyStream _
      · exact Py.keeps_pure ()
  · exact Py.keeps_pure ()

theorem sameTool_reasoningPhase (h : Handed) :
    Py.Keeps (SameTool s) (P.reasoningPhase h) := by
  refine Py.keeps_read.bind fun s' => ?_
  split
  · refine (sameTool_onReasoning _).bind fun delta => (sameTool_onReasoning _).bind fun ended => ?_
    split_ifs
    · exact (sameTool_modifyStream _).bind fun _ =>
        (sameTool_onReasoning _).bind fun _ => Py.keeps_pure _
    · exact Py.keeps_pure _
  · exact Py.keeps_pure _

theorem sameTool_readDelta (deltaText : String) (deltaTokenIds : List Int)
    (promptTokenIds : Option (List Int)) :
    Py.Keeps (SameTool s) (P.readDelta deltaText deltaTokenIds promptTokenIds) :=
  (sameTool_checkPrompt _).bind fun _ => Py.keeps_read.bind fun _ => sameTool_reasoningPhase _

end Frame

section Messages

variable {P : Parser ρ τ} {T : ToolParser τ} {choice : StreamToolChoice} {s : ParserState ρ τ}
  {delta : Option DeltaMessage} {h : Handed}

theorem silent_none : sentToolCalls [none] = [] := rfl

theorem silent_reasoningPhase (silent : ∀ R, P.reasoningParser = some R → R.Silent) :
    (P.reasoningPhase h).Ends s (fun read _ => sentToolCalls [read.1] = []) fun _ _ => True := by
  unfold Parser.reasoningPhase
  rw [Py.ends_bind, Py.ends_read]
  split
  · next R hR _ =>
    have plain := silent R hR h s.reasoning
    unfold Py.Ends at plain
    rw [Py.ends_bind]
    unfold Py.Ends onReasoning
    rw [Py.run_focus]
    cases hrun : (R.extractReasoningStreaming h).run s.reasoning with
    | mk result r =>
      rw [hrun] at plain
      cases result with
      | error e => trivial
      | ok message =>
        dsimp only at plain ⊢
        change Py.Ends _ _ _ _
        refine Py.ends_bind_any fun ended s' => ?_
        split_ifs
        · refine Py.ends_bind_any fun _ s' => Py.ends_bind_any fun _ s' => ?_
          exact plain
        · exact plain
  · exact silent_none

theorem keepReasoning_toolCalls (reasoning : Option String) (delta : Option DeltaMessage) :
    sentToolCalls [keepReasoning reasoning delta] = sentToolCalls [delta] := by
  unfold keepReasoning
  split
  · rfl
  · cases delta <;> rfl

theorem passThrough_toolCalls (state : StreamState) (delta : Option DeltaMessage)
    (deltaText : String) :
    sentToolCalls [P.passThrough state delta deltaText] = sentToolCalls [delta] := by
  unfold Parser.passThrough
  cases delta with
  | some message => rfl
  | none =>
    dsimp only
    split_ifs <;> rfl

theorem extractToolCallsStreaming_plain (delegates : P.Delegates T choice) (toolCallIdx : Nat)
    (functionNameReturned : Bool) :
    P.extractToolCallsStreaming T h toolCallIdx functionNameReturned = (do
      Py.modify fun s => { s with handed := s.handed ++ [h] }
      let delta ← onTool (T.extractToolCallsStreaming h choice)
      pure (delta, functionNameReturned)) := by
  unfold Parser.extractToolCallsStreaming
  rw [delegates.request]
  obtain unsupported | rfl := delegates.plain
  · rw [unsupported]
    rfl
  · cases T.supportsRequiredAndNamed <;> rfl

/-- A call of the tool parser: the message has its tool calls. -/
theorem toolPhase_ran (delegates : P.Delegates T choice) (ended : s.stream.reasoningEnded = true) :
    (P.toolPhase delta h).Ends s
      (fun delta' s' => ∃ h' message, s'.handed = s.handed ++ [h'] ∧
        (T.extractToolCallsStreaming h' choice).run s.tool = (.ok message, s'.tool) ∧
        sentToolCalls [delta'] = sentToolCalls [message])
      fun _ _ => True := by
  unfold Parser.toolPhase
  rw [Py.ends_bind, Py.ends_read, delegates.toolParser, ended]
  dsimp only
  rw [Py.ends_bind, modifyStream, Py.ends_modify, Py.ends_bind]
  generalize (if s.stream.toolCallTextStarted then h else h.startOver) = h'
  rw [extractToolCallsStreaming_plain delegates, Py.ends_bind, Py.ends_modify, Py.ends_bind]
  unfold Py.Ends onTool
  rw [Py.run_focus]
  cases hrun : (T.extractToolCallsStreaming h' choice).run s.tool with
  | mk result t =>
    cases result with
    | error e => trivial
    | ok message =>
      exact ⟨h', message, rfl, hrun, keepReasoning_toolCalls _ _⟩

/-- One call of `parse_delta`: it leaves the tool parser alone and has no tool calls, or
it has those of one call of the tool parser. -/
theorem parseDelta_ran (delegates : P.Delegates T choice) (deltaText : String)
    (deltaTokenIds : List Int) (promptTokenIds : Option (List Int)) :
    (P.parseDelta deltaText deltaTokenIds promptTokenIds).Ends s
      (fun delta s' => (SameTool s s' ∧ sentToolCalls [delta] = []) ∨
        ∃ h message, s'.handed = s.handed ++ [h] ∧
          (T.extractToolCallsStreaming h choice).run s.tool = (.ok message, s'.tool) ∧
          sentToolCalls [delta] = sentToolCalls [message])
      fun _ _ => True := by
  have frame := Py.ends_state.mpr
    (sameTool_readDelta (P := P) deltaText deltaTokenIds promptTokenIds s (.refl s))
  have silent : (P.readDelta deltaText deltaTokenIds promptTokenIds).Ends s
      (fun read _ => sentToolCalls [read.1] = []) fun _ _ => True :=
    Py.ends_bind_any fun _ _ => Py.ends_bind_any fun _ _ => silent_reasoningPhase delegates.silent
  unfold Parser.parseDelta
  rw [Py.ends_bind]
  refine (frame.and silent).mono ?_ fun _ _ _ => trivial
  rintro ⟨delta, h⟩ mid ⟨same, plain⟩
  rw [Py.ends_bind]
  cases hended : mid.stream.reasoningEnded with
  | false =>
    rw [Py.ends_of_ok (toolPhase_idle (.inr hended)), Py.ends_bind, Py.ends_read, Py.ends_bind,
      modifyStream, Py.ends_modify, Py.ends_pure]
    exact .inl ⟨⟨same.tool, same.handed⟩, (passThrough_toolCalls _ _ _).trans plain⟩
  | true =>
    refine (toolPhase_ran delegates hended).mono ?_ fun _ _ _ => trivial
    rintro delta' s' ⟨h', message, handed, ran, calls⟩
    rw [Py.ends_bind, Py.ends_read, Py.ends_bind, modifyStream, Py.ends_modify, Py.ends_pure]
    refine .inr ⟨h', message, ?_, ?_, (passThrough_toolCalls _ _ _).trans calls⟩
    · rw [← same.handed]
      exact handed
    · rw [← same.tool]
      exact ran

/-- Over a stream the messages have the tool calls of the tool parser's. -/
theorem parseDeltas_ran (delegates : P.Delegates T choice) (promptTokenIds : Option (List Int))
    (calls : List (String × List Int)) {start : τ} {earlier : List (Option DeltaMessage)}
    (ran : T.Ran choice start s.handed earlier s.tool) :
    (P.parseDeltas promptTokenIds calls).Ends s
      (fun messages s' => ∃ more, T.Ran choice start s'.handed (earlier ++ more) s'.tool ∧
        sentToolCalls messages = sentToolCalls more)
      fun _ _ => True := by
  induction calls generalizing s promptTokenIds earlier with
  | nil => exact ⟨[], by rw [List.append_nil]; exact ran, rfl⟩
  | cons call rest ih =>
    obtain ⟨deltaText, deltaTokenIds⟩ := call
    unfold Parser.parseDeltas
    rw [Py.ends_bind]
    refine (parseDelta_ran delegates deltaText deltaTokenIds promptTokenIds).mono ?_
      fun _ _ _ => trivial
    intro message mid step
    rw [Py.ends_bind]
    obtain ⟨same, nothing⟩ | ⟨h, own, handed, called, same⟩ := step
    · have next : T.Ran choice start mid.handed earlier mid.tool := by
        rw [same.handed, same.tool]
        exact ran
      refine (ih none next).mono ?_ fun _ _ _ => trivial
      rintro messages s' ⟨more, all, sent⟩
      refine ⟨more, all, ?_⟩
      rw [sentToolCalls_cons, nothing, sent, List.nil_append]
    · have next : T.Ran choice start mid.handed (earlier ++ [own]) mid.tool := by
        rw [handed]
        exact .snoc ran called
      refine (ih none next).mono ?_ fun _ _ _ => trivial
      rintro messages s' ⟨more, all, sent⟩
      refine ⟨own :: more, by rw [← List.singleton_append, ← List.append_assoc]; exact all, ?_⟩
      rw [sentToolCalls_cons, same, sent, ← sentToolCalls_cons]

end Messages

end TrajProxy.Parsers
