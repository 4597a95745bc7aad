import Mathlib.Data.List.Chain
import TrajProxy.Parsers.ParseDelta
import TrajProxy.Pipeline.Deltas

/-! What `parse_delta` hands to the tool parser over a stream: deltas that add up,
each call starting where the one before it ended, from the end of the reasoning
on. -/

namespace TrajProxy.Parsers
open Pipeline (DeltaMessage)

section Linked

variable {handed : List Handed} {h : Handed}

/-- What was before and the delta make up what is current. -/
structure Handed.Adds (h : Handed) : Prop where
  text : h.previousText ++ h.deltaText = h.currentText
  tokenIds : h.previousTokenIds ++ h.deltaTokenIds = h.currentTokenIds

/-- A call starts where another one ended. -/
structure Handed.Follows (h' h : Handed) : Prop where
  text : h'.previousText = h.currentText
  tokenIds : h'.previousTokenIds = h.currentTokenIds

/-- A call starts with nothing before it. -/
structure Handed.Starts (h : Handed) : Prop where
  text : h.previousText = ""
  tokenIds : h.previousTokenIds = []

structure Linked (handed : List Handed) : Prop where
  adds : ∀ h ∈ handed, h.Adds
  starts : ∀ h, handed.head? = some h → h.Starts
  follows : handed.IsChain fun h h' => h'.Follows h

/-- All the text that was handed over. -/
def handedText (handed : List Handed) : String := String.join (handed.map Handed.deltaText)

theorem linked_nil : Linked [] where
  adds _ mem := nomatch mem
  starts _ head := nomatch head
  follows := List.isChain_nil

theorem handedText_snoc (handed : List Handed) (h : Handed) :
    handedText (handed ++ [h]) = handedText handed ++ h.deltaText := by
  simp [handedText]

theorem linked_single (adds : h.Adds) (starts : h.Starts) : Linked [h] where
  adds other mem := by
    rw [List.mem_singleton.mp mem]
    exact adds
  starts other head := by
    obtain rfl := Option.some.inj head
    exact starts
  follows := List.isChain_singleton h

theorem Linked.snoc {last : Handed} (linked : Linked handed)
    (ends : handed.getLast? = some last) (adds : h.Adds) (follows : h.Follows last) :
    Linked (handed ++ [h]) where
  adds other mem := by
    rcases List.mem_append.mp mem with old | new
    · exact linked.adds other old
    · rw [List.mem_singleton.mp new]
      exact adds
  starts other head := by
    cases handed with
    | nil => nomatch ends
    | cons first rest => exact linked.starts other head
  follows := by
    refine List.isChain_append.mpr ⟨linked.follows, List.isChain_singleton h, ?_⟩
    intro other hother next hnext
    rw [ends] at hother
    obtain rfl := Option.some.inj hother
    obtain rfl := Option.some.inj hnext
    exact follows

end Linked

variable {ρ τ : Type} {P : Parser ρ τ} {s : ParserState ρ τ}

section Phases

/-- What a delta is to the reasoning. -/
inductive Phase
  | reasoning
  | boundary (content : String)
  | ended
  | raised

/-- The calls `parse_delta` makes to the reasoning parser for a delta: the message,
and whether the reasoning ends in it. -/
def ReasoningParser.read {ρ : Type} (R : ReasoningParser ρ) (h : Handed) :
    Py ρ (Option DeltaMessage × Bool) := do
  let delta ← R.extractReasoningStreaming h
  let ended ← R.isReasoningEndStreaming h.currentTokenIds h.deltaTokenIds
  if ended then
    let _ ← R.extractContentIds h.deltaTokenIds
    pure (delta, true)
  else pure (delta, false)

/-- The phase of a delta that is read in this state. -/
def Parser.phaseOf (P : Parser ρ τ) (s : ParserState ρ τ) (h : Handed) : Phase :=
  match P.reasoningParser, s.stream.reasoningEnded with
  | _, true => .ended
  | none, false => .reasoning
  | some R, false =>
    match ((R.read h).run s.reasoning).1 with
    | .error _ => .raised
    | .ok (_, false) => .reasoning
    | .ok (delta, true) => .boundary ((delta.bind DeltaMessage.content).getD "")

/-- The phase of a delta, after the prompt was looked at. -/
def Parser.phase (P : Parser ρ τ) (s : ParserState ρ τ) (promptTokenIds : Option (List Int))
    (deltaText : String) (deltaTokenIds : List Int) : Phase :=
  match (P.checkPrompt promptTokenIds).run s with
  | (.error _, _) => .raised
  | (.ok _, s') => P.phaseOf s' (s'.stream.hand deltaText deltaTokenIds)

/-- What of a delta comes after the end of the reasoning. -/
def Phase.text (deltaText : String) : Phase → String
  | .reasoning | .raised => ""
  | .boundary content => content
  | .ended => deltaText

/-- The text after the end of the reasoning: the content of the boundary delta and
every later delta, up to a call that raises. -/
def Parser.textAfterReasoning (P : Parser ρ τ) :
    ParserState ρ τ → Option (List Int) → List (String × List Int) → String
  | _, _, [] => ""
  | s, promptTokenIds, (deltaText, deltaTokenIds) :: rest =>
    (P.phase s promptTokenIds deltaText deltaTokenIds).text deltaText ++
      match (P.parseDelta deltaText deltaTokenIds promptTokenIds).run s with
      | (.error _, _) => ""
      | (.ok _, s') => Parser.textAfterReasoning P s' none rest

/-- Everything but the sub-parser and the end of the reasoning is the same. -/
structure SameHandOff (s s' : ParserState ρ τ) : Prop where
  handed : s'.handed = s.handed
  started : s'.stream.toolCallTextStarted = s.stream.toolCallTextStarted
  text : s'.stream.previousText = s.stream.previousText
  tokenIds : s'.stream.previousTokenIds = s.stream.previousTokenIds

theorem SameHandOff.refl (s : ParserState ρ τ) : SameHandOff s s := ⟨rfl, rfl, rfl, rfl⟩

theorem SameHandOff.trans {s₁ s₂ s₃ : ParserState ρ τ} (first : SameHandOff s₁ s₂)
    (second : SameHandOff s₂ s₃) : SameHandOff s₁ s₃ where
  handed := second.handed.trans first.handed
  started := second.started.trans first.started
  text := second.text.trans first.text
  tokenIds := second.tokenIds.trans first.tokenIds

theorem keeps_onReasoning {α : Type} (m : Py ρ α) :
    Py.Keeps (SameHandOff s) (onReasoning m) :=
  Py.keeps_focus m fun _ _ same => ⟨same.handed, same.started, same.text, same.tokenIds⟩

theorem keeps_endReasoning : Py.Keeps (SameHandOff s) (modifyStream endReasoning) :=
  Py.keeps_modify fun _ same => ⟨same.handed, same.started, same.text, same.tokenIds⟩

theorem keeps_checkPrompt (promptTokenIds : Option (List Int)) :
    Py.Keeps (SameHandOff s) (P.checkPrompt promptTokenIds) := by
  refine Py.keeps_read.bind fun s' => ?_
  split
  · refine Py.Keeps.bind (Py.keeps_modify fun _ same => ?_) fun _ => ?_
    · exact ⟨same.handed, same.started, same.text, same.tokenIds⟩
    · split
      · exact keeps_endReasoning
      · refine (keeps_onReasoning _).bind fun ended => ?_
        split_ifs
        · exact keeps_endReasoning
        · exact Py.keeps_pure ()
  · exact Py.keeps_pure ()

theorem keeps_reasoningPhase (h : Handed) : Py.Keeps (SameHandOff s) (P.reasoningPhase h) := by
  refine Py.keeps_read.bind fun s' => ?_
  split
  · refine (keeps_onReasoning _).bind fun delta => (keeps_onReasoning _).bind fun ended => ?_
    split_ifs
    · exact keeps_endReasoning.bind fun _ => (keeps_onReasoning _).bind fun _ => Py.keeps_pure _
    · exact Py.keeps_pure _
  · exact Py.keeps_pure _

theorem SameHandOff.hand {s' : ParserState ρ τ} (same : SameHandOff s s') (deltaText : String)
    (deltaTokenIds : List Int) :
    s'.stream.hand deltaText deltaTokenIds = s.stream.hand deltaText deltaTokenIds := by
  rw [StreamState.hand, StreamState.hand, same.text, same.tokenIds]

/-- Where a delta leaves the state before the tool parser, by its phase. -/
def ReadAs (h h' : Handed) (s' : ParserState ρ τ) : Phase → Prop
  | .raised => False
  | .reasoning => s'.stream.reasoningEnded = false ∧ h' = h
  | .ended => s'.stream.reasoningEnded = true ∧ h' = h
  | .boundary content => s'.stream.reasoningEnded = true ∧
      ∃ contentIds, h' = h.atBoundary content contentIds

theorem reasoningPhase_reads (h : Handed) :
    (P.reasoningPhase h).Ends s (fun read s' => ReadAs h read.2 s' (P.phaseOf s h))
      fun _ _ => P.phaseOf s h = .raised := by
  unfold Parser.reasoningPhase Parser.phaseOf
  rw [Py.ends_bind, Py.ends_read]
  cases P.reasoningParser with
  | none => cases hended : s.stream.reasoningEnded <;> exact ⟨hended, rfl⟩
  | some R =>
    cases hended : s.stream.reasoningEnded with
    | true => exact ⟨hended, rfl⟩
    | false =>
      dsimp only
      unfold ReasoningParser.read onReasoning Py.Ends
      cases hdelta : (R.extractReasoningStreaming h).run s.reasoning with
      | mk result r =>
        cases result with
        | error e =>
          rw [Py.run_bind, Py.run_bind, Py.run_focus, hdelta]
        | ok delta =>
          rw [Py.run_bind_ok hdelta, Py.run_bind, Py.run_focus, hdelta]
          dsimp only
          cases hend : (R.isReasoningEndStreaming h.currentTokenIds h.deltaTokenIds).run r with
          | mk result r' =>
            cases result with
            | error e =>
              rw [Py.run_bind, Py.run_bind, Py.run_focus, hend]
            | ok ended =>
              rw [Py.run_bind_ok hend, Py.run_bind, Py.run_focus, hend]
              cases ended with
              | false => exact ⟨hended, rfl⟩
              | true =>
                dsimp only
                rw [if_pos rfl, if_pos rfl]
                cases hids : (R.extractContentIds h.deltaTokenIds).run r' with
                | mk result r'' =>
                  cases result with
                  | error e =>
                    rw [Py.run_bind_error hids, Py.run_bind, modifyStream, Py.run_modify]
                    dsimp only
                    rw [Py.run_bind, Py.run_focus, hids]
                  | ok contentIds =>
                    rw [Py.run_bind_ok hids, Py.run_bind, modifyStream, Py.run_modify]
                    dsimp only
                    rw [Py.run_bind, Py.run_focus, hids]
                    exact ⟨rfl, contentIds, rfl⟩

/-- A delta up to the tool parser, by its phase. -/
theorem readDelta_reads (deltaText : String) (deltaTokenIds : List Int)
    (promptTokenIds : Option (List Int)) :
    (P.readDelta deltaText deltaTokenIds promptTokenIds).Ends s
      (fun read s' => SameHandOff s s' ∧ ReadAs (s.stream.hand deltaText deltaTokenIds) read.2 s'
        (P.phase s promptTokenIds deltaText deltaTokenIds))
      fun _ s' => SameHandOff s s' ∧
        P.phase s promptTokenIds deltaText deltaTokenIds = .raised := by
  unfold Parser.readDelta Parser.phase
  have kept := keeps_checkPrompt (P := P) promptTokenIds s (.refl s)
  cases hcheck : (P.checkPrompt promptTokenIds).run s with
  | mk result mid =>
    rw [hcheck] at kept
    cases result with
    | error e =>
      rw [Py.ends_of_error (Py.run_bind_error hcheck)]
      exact ⟨kept, rfl⟩
    | ok _ =>
      unfold Py.Ends
      rw [Py.run_bind_ok hcheck]
      change ((P.reasoningPhase (mid.stream.hand deltaText deltaTokenIds)).Ends mid _ _)
      have same : SameHandOff s mid := kept
      have reads := reasoningPhase_reads (P := P) (s := mid)
        (mid.stream.hand deltaText deltaTokenIds)
      have frame := Py.ends_state.mpr (keeps_reasoningPhase (P := P) (s := mid)
        (mid.stream.hand deltaText deltaTokenIds) mid (.refl mid))
      dsimp only
      rw [same.hand] at reads frame ⊢
      refine (reads.and frame).mono ?_ ?_
      · exact fun _ _ ⟨read, there⟩ => ⟨same.trans there, read⟩
      · exact fun _ _ ⟨raised, there⟩ => ⟨same.trans there, raised⟩

end Phases

section HandingOver

variable {T : ToolParser τ} {delta : Option DeltaMessage} {h : Handed}

/-- What the tool parser is called with: the first call starts over. -/
def Handed.passed (h : Handed) (started : Bool) : Handed := if started then h else h.startOver

theorem toolPhase_idle (idle : P.toolParser = none ∨ s.stream.reasoningEnded = false) :
    (P.toolPhase delta h).run s = (.ok delta, s) := by
  unfold Parser.toolPhase
  rw [Py.run_bind, Py.run_read]
  dsimp only
  rcases idle with none | running
  · rw [none]
    rfl
  · rw [running]
    cases P.toolParser <;> rfl

theorem extractToolCallsStreaming_hands (h : Handed) (toolCallIdx : Nat)
    (functionNameReturned : Bool) :
    (P.extractToolCallsStreaming T h toolCallIdx functionNameReturned).Ends s
      (fun _ s' => s'.handed = s.handed ++ [h] ∧ s'.stream = s.stream)
      fun _ s' => s'.handed = s.handed ++ [h] ∨
        s'.handed = s.handed ∧ ∃ e, P.request = .error e := by
  unfold Parser.extractToolCallsStreaming
  rw [Py.ends_bind, Py.ends_ofExcept]
  cases hrequest : P.request with
  | error e => exact Or.inr ⟨rfl, e, rfl⟩
  | ok choice =>
    dsimp only
    rw [Py.ends_bind, Py.ends_modify]
    have called : ∀ {α : Type} (m : Py τ α) (s₁ : ParserState ρ τ), s₁.handed = s.handed ++ [h] →
        s₁.stream = s.stream →
        (onTool m).Ends s₁ (fun _ s' => s'.handed = s.handed ++ [h] ∧ s'.stream = s.stream)
          fun _ s' => s'.handed = s.handed ++ [h] ∨
            s'.handed = s.handed ∧ ∃ e, P.request = .error e := by
      intro α m s₁ handed stream
      unfold Py.Ends onTool
      rw [Py.run_focus]
      cases (m.run s₁.tool).1 with
      | error e => exact Or.inl handed
      | ok a => exact ⟨handed, stream⟩
    rw [hrequest] at called
    split
    · exact called _ _ rfl rfl
    · exact called _ _ rfl rfl
    · rw [Py.ends_bind]
      exact called _ _ rfl rfl

theorem toolPhase_hands (hT : P.toolParser = some T) (ended : s.stream.reasoningEnded = true) :
    (P.toolPhase delta h).Ends s
      (fun _ s' => s'.handed = s.handed ++ [h.passed s.stream.toolCallTextStarted] ∧
        s'.stream.toolCallTextStarted = true ∧ s'.stream.reasoningEnded = true)
      fun _ s' => s'.handed = s.handed ++ [h.passed s.stream.toolCallTextStarted] ∨
        s'.handed = s.handed ∧ ∃ e, P.request = .error e := by
  unfold Parser.toolPhase
  rw [Py.ends_bind, Py.ends_read, hT, ended]
  dsimp only
  rw [Py.ends_bind, modifyStream, Py.ends_modify, Py.ends_bind]
  refine (extractToolCallsStreaming_hands _ _ _).mono ?_ fun _ _ raised => raised
  intro result s' ⟨handed, stream⟩
  rw [Py.ends_bind, modifyStream, Py.ends_modify, Py.ends_pure]
  refine ⟨handed, ?_, ?_⟩
  · change s'.stream.toolCallTextStarted = true
    rw [stream]
    dsimp only
    split_ifs with started
    · exact started
    · rfl
  · change s'.stream.reasoningEnded = true
    rw [stream]
    dsimp only
    split_ifs
    · exact ended
    · exact ended

/-- There is a tool parser, and the request can be read for it. -/
def Parser.HandsOver (P : Parser ρ τ) : Prop :=
  P.toolParser ≠ none ∧ ∀ e, P.request ≠ .error e

/-- A state between two calls. -/
structure Parser.Ready (P : Parser ρ τ) (s : ParserState ρ τ) (promptTokenIds : Option (List Int)) :
    Prop where
  linked : Linked s.handed
  started : s.stream.toolCallTextStarted = true → P.toolParser ≠ none ∧
    s.stream.reasoningEnded = true ∧ ∃ last, s.handed.getLast? = some last ∧
      s.stream.previousText = last.currentText ∧ s.stream.previousTokenIds = last.currentTokenIds
  waiting : s.stream.toolCallTextStarted = false → s.handed = [] ∧
    (P.toolParser ≠ none → s.stream.reasoningEnded = false)
  first : promptTokenIds ≠ none → s.stream.toolCallTextStarted = false ∧
    s.stream.previousText = "" ∧ s.stream.previousTokenIds = []

theorem ready_initial (P : Parser ρ τ) (reasoning : ρ) (tool : τ)
    (promptTokenIds : Option (List Int)) : P.Ready (.initial reasoning tool) promptTokenIds where
  linked := linked_nil
  started h := nomatch h
  waiting _ := ⟨rfl, fun _ => rfl⟩
  first _ := ⟨rfl, rfl, rfl⟩

theorem hand_adds (state : StreamState) (deltaText : String) (deltaTokenIds : List Int) :
    (state.hand deltaText deltaTokenIds).Adds := ⟨rfl, rfl⟩

theorem startOver_adds (h : Handed) : h.startOver.Adds := ⟨String.empty_append, rfl⟩

theorem startOver_starts (h : Handed) : h.startOver.Starts := ⟨rfl, rfl⟩

theorem Parser.Ready.phase_started {promptTokenIds : Option (List Int)}
    (ready : P.Ready s promptTokenIds) (started : s.stream.toolCallTextStarted = true)
    (deltaText : String) (deltaTokenIds : List Int) :
    P.phase s promptTokenIds deltaText deltaTokenIds = .ended := by
  have noPrompt : promptTokenIds = none := by
    by_contra there
    rw [(ready.first there).1] at started
    nomatch started
  subst noPrompt
  change P.phaseOf s _ = _
  rw [Parser.phaseOf, (ready.started started).2.1]

/-- What the tool parser is handed links up with what it was handed before, and its
text is what comes after the end of the reasoning. -/
structure Passes (s : ParserState ρ τ) (h : Handed) (phase : Phase) (deltaText : String) :
    Prop where
  linked : Linked (s.handed ++ [h.passed s.stream.toolCallTextStarted])
  text : (h.passed s.stream.toolCallTextStarted).deltaText = phase.text deltaText

theorem Parser.Ready.passes {promptTokenIds : Option (List Int)} {deltaText : String}
    {deltaTokenIds : List Int} {s' : ParserState ρ τ} (ready : P.Ready s promptTokenIds)
    (tool : P.toolParser ≠ none) (same : SameHandOff s s')
    (ended : s'.stream.reasoningEnded = true)
    (reads : ReadAs (s.stream.hand deltaText deltaTokenIds) h s'
      (P.phase s promptTokenIds deltaText deltaTokenIds)) :
    Passes s' h (P.phase s promptTokenIds deltaText deltaTokenIds) deltaText := by
  cases hstarted : s.stream.toolCallTextStarted with
  | true =>
    obtain ⟨_, _, last, hlast, text, ids⟩ := ready.started hstarted
    have phase := ready.phase_started hstarted deltaText deltaTokenIds
    rw [phase] at reads ⊢
    obtain ⟨_, rfl⟩ := reads
    refine ⟨?_, ?_⟩
    · rw [same.started, hstarted, same.handed]
      exact ready.linked.snoc hlast (hand_adds _ _ _) ⟨text, ids⟩
    · rw [same.started, hstarted]
      rfl
  | false =>
    obtain ⟨nothing, notEnded⟩ := ready.waiting hstarted
    refine ⟨?_, ?_⟩
    · rw [same.started, hstarted, same.handed, nothing]
      exact linked_single (startOver_adds h) (startOver_starts h)
    · rw [same.started, hstarted]
      change h.currentText = _
      cases hphase : P.phase s promptTokenIds deltaText deltaTokenIds with
      | raised =>
        rw [hphase] at reads
        exact absurd reads id
      | reasoning =>
        rw [hphase] at reads
        rw [reads.1] at ended
        nomatch ended
      | boundary content =>
        rw [hphase] at reads
        obtain ⟨_, contentIds, rfl⟩ := reads
        rfl
      | ended =>
        rw [hphase] at reads
        obtain ⟨_, rfl⟩ := reads
        have there : promptTokenIds ≠ none := by
          intro none
          subst none
          have running : P.phase s Option.none deltaText deltaTokenIds =
              P.phaseOf s (s.stream.hand deltaText deltaTokenIds) := rfl
          rw [running, Parser.phaseOf, notEnded tool] at hphase
          cases hR : P.reasoningParser with
          | none =>
            rw [hR] at hphase
            nomatch hphase
          | some R =>
            rw [hR] at hphase
            dsimp only at hphase
            split at hphase <;> nomatch hphase
        change s.stream.previousText ++ deltaText = deltaText
        rw [(ready.first there).2.1, String.empty_append]

/-- What a call adds to the text that was handed over. -/
def Parser.Passed (P : Parser ρ τ) (s s' : ParserState ρ τ) (text : String) : Prop :=
  P.HandsOver → handedText s'.handed = handedText s.handed ++ text

theorem passed_snoc {s' : ParserState ρ τ} {phase : Phase} {deltaText : String}
    (same : SameHandOff s s') (passes : Passes s' h phase deltaText) {s'' : ParserState ρ τ}
    (handed : s''.handed = s'.handed ++ [h.passed s'.stream.toolCallTextStarted]) :
    P.Passed s s'' (phase.text deltaText) := by
  intro _
  rw [handed, handedText_snoc, passes.text, same.handed]

section Call

variable {promptTokenIds : Option (List Int)} {deltaText : String} {deltaTokenIds : List Int}
  {mid s' : ParserState ρ τ}

theorem text_eq_empty
    (reads : ReadAs (s.stream.hand deltaText deltaTokenIds) h mid
      (P.phase s promptTokenIds deltaText deltaTokenIds))
    (running : mid.stream.reasoningEnded = false) :
    (P.phase s promptTokenIds deltaText deltaTokenIds).text deltaText = "" := by
  cases hphase : P.phase s promptTokenIds deltaText deltaTokenIds with
  | raised => rfl
  | reasoning => rfl
  | boundary content =>
    rw [hphase] at reads
    rw [reads.1] at running
    nomatch running
  | ended =>
    rw [hphase] at reads
    rw [reads.1] at running
    nomatch running

/-- A call that does not reach the tool parser. -/
theorem Parser.Ready.idle (ready : P.Ready s promptTokenIds) (same : SameHandOff s mid)
    (reads : ReadAs (s.stream.hand deltaText deltaTokenIds) h mid
      (P.phase s promptTokenIds deltaText deltaTokenIds))
    (idle : P.toolParser = none ∨ mid.stream.reasoningEnded = false)
    (handed : s'.handed = mid.handed)
    (started : s'.stream.toolCallTextStarted = mid.stream.toolCallTextStarted)
    (ended : s'.stream.reasoningEnded = mid.stream.reasoningEnded) :
    P.Ready s' none ∧
      P.Passed s s' ((P.phase s promptTokenIds deltaText deltaTokenIds).text deltaText) := by
  have kept : s'.handed = s.handed := handed.trans same.handed
  refine ⟨⟨?_, ?_, ?_, fun never => absurd rfl never⟩, ?_⟩
  · rw [kept]
    exact ready.linked
  · intro now
    have before : s.stream.toolCallTextStarted = true :=
      same.started.symm.trans (started.symm.trans now)
    rw [ready.phase_started before] at reads
    rcases idle with noTool | running
    · exact absurd noTool (ready.started before).1
    · rw [reads.1] at running
      nomatch running
  · intro waiting
    have before : s.stream.toolCallTextStarted = false :=
      same.started.symm.trans (started.symm.trans waiting)
    refine ⟨kept.trans (ready.waiting before).1, fun tool => ?_⟩
    exact ended.trans (idle.resolve_left tool)
  · intro hands
    rw [text_eq_empty reads (idle.resolve_left hands.1), String.append_empty]
    exact congrArg handedText kept

/-- A call of the tool parser that returns. -/
theorem Passes.ready {phase : Phase} (passes : Passes mid h phase deltaText)
    (tool : P.toolParser ≠ none)
    (handed : s'.handed = mid.handed ++ [h.passed mid.stream.toolCallTextStarted])
    (started : s'.stream.toolCallTextStarted = true) (ended : s'.stream.reasoningEnded = true)
    (text : s'.stream.previousText = h.currentText)
    (tokenIds : s'.stream.previousTokenIds = h.currentTokenIds) : P.Ready s' none where
  linked := by
    rw [handed]
    exact passes.linked
  started _ := by
    refine ⟨tool, ended, h.passed mid.stream.toolCallTextStarted, ?_, ?_, ?_⟩
    · rw [handed, List.getLast?_append, List.getLast?_singleton]
      rfl
    · rw [text]
      unfold Handed.passed
      split_ifs <;> rfl
    · rw [tokenIds]
      unfold Handed.passed
      split_ifs <;> rfl
  waiting waiting := by
    rw [started] at waiting
    nomatch waiting
  first never := absurd rfl never

end Call

/-- One call of `parse_delta`, whether it returns or raises. -/
theorem parseDelta_step {promptTokenIds : Option (List Int)} (ready : P.Ready s promptTokenIds)
    (deltaText : String) (deltaTokenIds : List Int) :
    (P.parseDelta deltaText deltaTokenIds promptTokenIds).Ends s
      (fun _ s' => P.Ready s' none ∧
        P.Passed s s' ((P.phase s promptTokenIds deltaText deltaTokenIds).text deltaText))
      fun _ s' => Linked s'.handed ∧
        P.Passed s s' ((P.phase s promptTokenIds deltaText deltaTokenIds).text deltaText) := by
  unfold Parser.parseDelta
  rw [Py.ends_bind]
  refine (readDelta_reads deltaText deltaTokenIds promptTokenIds).mono ?_ ?_
  · intro (delta, h) mid ⟨same, reads⟩
    rw [Py.ends_bind]
    by_cases idle : P.toolParser = none ∨ mid.stream.reasoningEnded = false
    · rw [Py.ends_of_ok (toolPhase_idle idle), Py.ends_bind, Py.ends_read, Py.ends_bind,
        modifyStream, Py.ends_modify, Py.ends_pure]
      exact ready.idle same reads idle rfl rfl rfl
    · obtain ⟨tool, running⟩ := not_or.mp idle
      have ended : mid.stream.reasoningEnded = true := Bool.not_eq_false _ ▸ running
      have passes := ready.passes tool same ended reads
      obtain ⟨T, hT⟩ := Option.ne_none_iff_exists'.mp tool
      refine (toolPhase_hands hT ended).mono ?_ ?_
      · intro delta' s' ⟨handed, started, stillEnded⟩
        rw [Py.ends_bind, Py.ends_read, Py.ends_bind, modifyStream, Py.ends_modify, Py.ends_pure]
        exact ⟨passes.ready tool handed started stillEnded rfl rfl,
          passed_snoc same passes handed⟩
      · intro e s' outcome
        rcases outcome with handed | ⟨handed, raised⟩
        · refine ⟨?_, passed_snoc same passes handed⟩
          rw [handed]
          exact passes.linked
        · refine ⟨?_, fun hands => ?_⟩
          · rw [handed, same.handed]
            exact ready.linked
          · obtain ⟨e, request⟩ := raised
            exact absurd request (hands.2 e)
  · intro e s' ⟨same, raised⟩
    refine ⟨?_, fun _ => ?_⟩
    · rw [same.handed]
      exact ready.linked
    · rw [raised, same.handed]
      exact String.append_empty.symm

/-- The calls of a stream, up to one that raises. -/
theorem parseDeltas_step {promptTokenIds : Option (List Int)} (ready : P.Ready s promptTokenIds)
    (calls : List (String × List Int)) :
    (P.parseDeltas promptTokenIds calls).Ends s
      (fun _ s' => Linked s'.handed ∧
        P.Passed s s' (P.textAfterReasoning s promptTokenIds calls))
      fun _ s' => Linked s'.handed ∧
        P.Passed s s' (P.textAfterReasoning s promptTokenIds calls) := by
  induction calls generalizing s promptTokenIds with
  | nil => exact ⟨ready.linked, fun _ => String.append_empty.symm⟩
  | cons call rest ih =>
    obtain ⟨deltaText, deltaTokenIds⟩ := call
    have step := parseDelta_step ready deltaText deltaTokenIds
    unfold Parser.parseDeltas Parser.textAfterReasoning
    cases hrun : (P.parseDelta deltaText deltaTokenIds promptTokenIds).run s with
    | mk result mid =>
      cases result with
      | error e =>
        obtain ⟨linked, passed⟩ := (Py.ends_of_error hrun).mp step
        rw [Py.ends_of_error (Py.run_bind_error hrun)]
        refine ⟨linked, ?_⟩
        dsimp only
        rw [String.append_empty]
        exact passed
      | ok delta =>
        obtain ⟨next, passed⟩ := (Py.ends_of_ok hrun).mp step
        unfold Py.Ends
        rw [Py.run_bind_ok hrun]
        change (P.parseDeltas none rest >>= _).Ends mid _ _
        rw [Py.ends_bind]
        have all : ∀ s', P.Passed mid s' (P.textAfterReasoning mid none rest) →
            P.Passed s s' ((P.phase s promptTokenIds deltaText deltaTokenIds).text deltaText ++
              P.textAfterReasoning mid none rest) := by
          intro s' more hands
          rw [more hands, passed hands, String.append_assoc]
        refine (ih next).mono ?_ ?_
        · exact fun _ s' ⟨linked, more⟩ => ⟨linked, all s' more⟩
        · exact fun _ s' ⟨linked, more⟩ => ⟨linked, all s' more⟩

end HandingOver

section Ended

/-- The end of the reasoning is kept. -/
def Ended (s : ParserState ρ τ) : Prop := s.stream.reasoningEnded = true

theorem keeps_ended_onReasoning {α : Type} (m : Py ρ α) :
    Py.Keeps (Ended (τ := τ)) (onReasoning m) :=
  Py.keeps_focus m fun _ _ ended => ended

theorem keeps_ended_onTool {α : Type} (m : Py τ α) : Py.Keeps (Ended (ρ := ρ)) (onTool m) :=
  Py.keeps_focus m fun _ _ ended => ended

theorem keeps_ended_checkPrompt (promptTokenIds : Option (List Int)) :
    Py.Keeps Ended (P.checkPrompt promptTokenIds) := by
  refine Py.keeps_read.bind fun s => ?_
  split
  · refine Py.Keeps.bind (Py.keeps_modify fun _ ended => ended) fun _ => ?_
    split
    · exact Py.keeps_modify fun _ _ => rfl
    · refine (keeps_ended_onReasoning _).bind fun ended => ?_
      split_ifs
      · exact Py.keeps_modify fun _ _ => rfl
      · exact Py.keeps_pure ()
  · exact Py.keeps_pure ()

theorem keeps_ended_reasoningPhase (h : Handed) : Py.Keeps Ended (P.reasoningPhase h) := by
  refine Py.keeps_read.bind fun s => ?_
  split
  · refine (keeps_ended_onReasoning _).bind fun delta =>
      (keeps_ended_onReasoning _).bind fun ended => ?_
    split_ifs
    · exact Py.Keeps.bind (Py.keeps_modify fun _ _ => rfl) fun _ =>
        (keeps_ended_onReasoning _).bind fun _ => Py.keeps_pure _
    · exact Py.keeps_pure _
  · exact Py.keeps_pure _

theorem keeps_ended_toolPhase (delta : Option DeltaMessage) (h : Handed) :
    Py.Keeps Ended (P.toolPhase delta h) := by
  refine Py.keeps_read.bind fun s => ?_
  split
  · refine Py.Keeps.bind (Py.keeps_modify fun s ended => ?_) fun _ => Py.Keeps.bind ?_ fun _ => ?_
    · change (if s.stream.toolCallTextStarted then s.stream else _).reasoningEnded = true
      split_ifs
      · exact ended
      · exact ended
    · refine (Py.keeps_ofExcept _).bind fun choice => ?_
      refine Py.Keeps.bind (Py.keeps_modify fun _ ended => ended) fun _ => ?_
      split
      · exact keeps_ended_onTool _
      · exact keeps_ended_onTool _
      · exact (keeps_ended_onTool _).bind fun _ => Py.keeps_pure _
    · exact Py.Keeps.bind (Py.keeps_modify fun _ ended => ended) fun _ => Py.keeps_pure _
  · exact Py.keeps_pure _

theorem keeps_ended_parseDelta (deltaText : String) (deltaTokenIds : List Int)
    (promptTokenIds : Option (List Int)) :
    Py.Keeps Ended (P.parseDelta deltaText deltaTokenIds promptTokenIds) := by
  refine Py.Keeps.bind ?_ fun read => (keeps_ended_toolPhase _ _).bind fun delta => ?_
  · exact (keeps_ended_checkPrompt _).bind fun _ => Py.keeps_read.bind fun _ =>
      keeps_ended_reasoningPhase _
  · exact Py.keeps_read.bind fun _ => Py.Keeps.bind (Py.keeps_modify fun _ ended => ended)
      fun _ => Py.keeps_pure _

theorem keeps_ended_parseDeltas (promptTokenIds : Option (List Int))
    (calls : List (String × List Int)) : Py.Keeps Ended (P.parseDeltas promptTokenIds calls) := by
  induction calls generalizing promptTokenIds with
  | nil => exact Py.keeps_pure _
  | cons call rest ih =>
    exact (keeps_ended_parseDelta _ _ _).bind fun _ => (ih none).bind fun _ => Py.keeps_pure _

/-- The state that these calls reach. -/
def Parser.reached (P : Parser ρ τ) (s : ParserState ρ τ) (promptTokenIds : Option (List Int))
    (calls : List (String × List Int)) : ParserState ρ τ :=
  ((P.parseDeltas promptTokenIds calls).run s).2

theorem reached_cons (promptTokenIds : Option (List Int)) (deltaText : String)
    (deltaTokenIds : List Int) (rest : List (String × List Int)) :
    P.reached s promptTokenIds ((deltaText, deltaTokenIds) :: rest) =
      match (P.parseDelta deltaText deltaTokenIds promptTokenIds).run s with
      | (.error _, s') => s'
      | (.ok _, s') => P.reached s' none rest := by
  unfold Parser.reached
  rw [Parser.parseDeltas, Py.run_bind]
  cases (P.parseDelta deltaText deltaTokenIds promptTokenIds).run s with
  | mk result mid =>
    cases result with
    | error e => rfl
    | ok delta =>
      dsimp only
      rw [Py.run_bind]
      cases (P.parseDeltas none rest).run mid with
      | mk result s' => cases result <;> rfl

theorem reached_ended (promptTokenIds : Option (List Int)) (before after : List (String × List Int))
    (ended : Ended (P.reached s promptTokenIds before)) :
    Ended (P.reached s promptTokenIds (before ++ after)) := by
  induction before generalizing s promptTokenIds with
  | nil => exact keeps_ended_parseDeltas promptTokenIds after s ended
  | cons call rest ih =>
    obtain ⟨deltaText, deltaTokenIds⟩ := call
    rw [reached_cons] at ended
    rw [List.cons_append, reached_cons]
    cases hrun : (P.parseDelta deltaText deltaTokenIds promptTokenIds).run s with
    | mk result mid =>
      rw [hrun] at ended
      cases result with
      | error e => exact ended
      | ok delta => exact ih none ended

end Ended

section Stream

/-- Nothing was handed to the tool parser. -/
def Unhanded (s : ParserState ρ τ) : Prop := s.handed = []

theorem keeps_unhanded_toolPhase (never : ¬P.HandsOver) (delta : Option DeltaMessage)
    (h : Handed) : Py.Keeps Unhanded (P.toolPhase delta h) := by
  refine Py.keeps_read.bind fun s => ?_
  split
  · next T hT _ =>
    refine Py.Keeps.bind (Py.keeps_modify fun _ unhanded => unhanded) fun _ => Py.Keeps.bind ?_
      fun _ => Py.Keeps.bind (Py.keeps_modify fun _ unhanded => unhanded) fun _ => Py.keeps_pure _
    intro s unhanded
    unfold Parser.extractToolCallsStreaming
    cases hrequest : P.request with
    | error e => exact unhanded
    | ok choice =>
      refine absurd ⟨?_, ?_⟩ never
      · rw [hT]
        exact Option.some_ne_none T
      · intro e raised
        rw [hrequest] at raised
        nomatch raised
  · exact Py.keeps_pure _

theorem keeps_unhanded_parseDeltas (never : ¬P.HandsOver) (promptTokenIds : Option (List Int))
    (calls : List (String × List Int)) :
    Py.Keeps Unhanded (P.parseDeltas promptTokenIds calls) := by
  have frame : ∀ {α : Type} (m : Py (ParserState ρ τ) α),
      (∀ s, Py.Keeps (SameHandOff s) m) → Py.Keeps Unhanded m := by
    intro α m same s unhanded
    have kept : SameHandOff s (m.run s).2 := same s s (.refl s)
    exact kept.handed.trans unhanded
  have one : ∀ deltaText deltaTokenIds promptTokenIds,
      Py.Keeps Unhanded (P.parseDelta deltaText deltaTokenIds promptTokenIds) := by
    intro deltaText deltaTokenIds promptTokenIds
    refine Py.Keeps.bind ?_ fun read => (keeps_unhanded_toolPhase never _ _).bind fun delta => ?_
    · exact (frame _ fun _ => keeps_checkPrompt _).bind fun _ => Py.keeps_read.bind fun _ =>
        frame _ fun _ => keeps_reasoningPhase _
    · exact Py.keeps_read.bind fun _ => Py.Keeps.bind (Py.keeps_modify fun _ unhanded => unhanded)
        fun _ => Py.keeps_pure _
  induction calls generalizing promptTokenIds with
  | nil => exact Py.keeps_pure _
  | cons call rest ih =>
    exact (one _ _ _).bind fun _ => (ih none).bind fun _ => Py.keeps_pure _

/-- What `parse_delta` hands to the tool parser over a stream, and that the end of
the reasoning is never taken back. -/
theorem handOff (P : Parser ρ τ) (reasoning : ρ) (tool : τ) (promptTokenIds : Option (List Int))
    (calls : List (String × List Int)) :
    let start : ParserState ρ τ := .initial reasoning tool
    let handed := (P.reached start promptTokenIds calls).handed
    Linked handed ∧
      (P.HandsOver → handedText handed = P.textAfterReasoning start promptTokenIds calls) ∧
      (¬P.HandsOver → handed = []) ∧
      ∀ before after, calls = before ++ after → Ended (P.reached start promptTokenIds before) →
        Ended (P.reached start promptTokenIds calls) := by
  intro start handed
  have steps := parseDeltas_step (ready_initial P reasoning tool promptTokenIds) calls
  let all (s : ParserState ρ τ) : Prop := Linked s.handed ∧
    P.Passed start s (P.textAfterReasoning start promptTokenIds calls)
  have reached : all (P.reached start promptTokenIds calls) :=
    (Py.ends_state (P := all)).mp steps
  obtain ⟨linked, passed⟩ := reached
  refine ⟨linked, fun hands => ?_, fun never => ?_, ?_⟩
  · exact (passed hands).trans String.empty_append
  · exact keeps_unhanded_parseDeltas never promptTokenIds calls start rfl
  · rintro before after rfl ended
    exact reached_ended promptTokenIds before after ended

/-- The parser as `TokenPipeline` uses it. -/
def Parser.requestParser (P : Parser ρ τ) (errorText : Raised → String) (reasoning : ρ)
    (tool : τ) : Pipeline.RequestParser (ParserState ρ τ) where
  start := .initial reasoning tool
  parseDelta s deltaText deltaTokenIds promptTokenIds :=
    match (P.parseDelta deltaText deltaTokenIds promptTokenIds).run s with
    | (.ok delta, s') => .ok (delta, s')
    | (.error e, _) => .error (errorText e)
  toolCallsSeen s :=
    match P.toolParser with
    | none => false
    | some T => T.toolCallsSeen s.tool

/-- The deltas of a stream of `TokenPipeline` are those of the calls of the parser. -/
theorem requestParser_parseDeltas (errorText : Raised → String) (reasoning : ρ) (tool : τ)
    (s : ParserState ρ τ) (promptTokenIds : Option (List Int)) (calls : List (String × List Int)) :
    Pipeline.parseDeltas (P.requestParser errorText reasoning tool) s promptTokenIds calls =
      match (P.parseDeltas promptTokenIds calls).run s with
      | (.ok deltas, s') => .ok (deltas, s')
      | (.error e, _) => .error (errorText e) := by
  induction calls generalizing s promptTokenIds with
  | nil => rfl
  | cons call rest ih =>
    obtain ⟨deltaText, deltaTokenIds⟩ := call
    unfold Pipeline.parseDeltas Parser.parseDeltas
    have first : (P.requestParser errorText reasoning tool).parseDelta s deltaText deltaTokenIds
        promptTokenIds = match (P.parseDelta deltaText deltaTokenIds promptTokenIds).run s with
          | (.ok delta, s') => .ok (delta, s')
          | (.error e, _) => .error (errorText e) := rfl
    rw [first, Py.run_bind]
    cases hrun : (P.parseDelta deltaText deltaTokenIds promptTokenIds).run s with
    | mk result mid =>
      cases result with
      | error e => rfl
      | ok delta =>
        rw [bind_of_ok (m := Except.ok (delta, mid)) rfl]
        dsimp only
        rw [ih mid none, Py.run_bind]
        cases (P.parseDeltas none rest).run mid with
        | mk result s' => cases result <;> rfl

end Stream

end TrajProxy.Parsers
