import TrajProxy.Pipeline.TokenRecord

/-! What the three branches of the builder make of the text that is left after
the reasoning, and when they raise. -/

namespace TrajProxy.Pipeline

variable {env : BuildEnv} {parser : MessageParser} {parts parts' : MessageParts}

/-- The parts are as they were, or there are tool calls, and the finish reason is
the old one or `tool_calls`. -/
inductive Extracted (parts : MessageParts) : MessageParts → Prop
  | unchanged : Extracted parts parts
  | called (toolCalls : List Json) (content finishReason : Option String)
      (nonempty : toolCalls ≠ [])
      (reason : finishReason = parts.finishReason ∨ finishReason = some "tool_calls") :
      Extracted parts { parts with
        content := content
        toolCalls := toolCalls
        finishReason := finishReason }

/-- What branch B makes of an empty list: no call, no text, and a finish reason of
its own. -/
def MessageParts.emptied (parts : MessageParts) : MessageParts :=
  { parts with content := none, toolCalls := [], finishReason := some "tool_calls" }

theorem Extracted.finishReason (h : Extracted parts parts') (reason : parts.finishReason.isSome) :
    parts'.finishReason.isSome := by
  cases h with
  | unchanged => exact reason
  | called _ _ _ _ choice =>
    rcases choice with rfl | rfl
    · exact reason
    · rfl

section Named

variable {name : Json} {content : String}

def ToolCall.isNamed (tc : ToolCall) (name : Json) : Bool :=
  match tc.function with
  | none => false
  | some function => function.isNamed name

/-- The calls looked at before the first of that name have a function. -/
theorem findNamed_ok_iff (name : Json) (toolCalls : List ToolCall) :
    (∃ found, findNamed name toolCalls = .ok found) ↔
      ∀ tc ∈ toolCalls.takeWhile (fun tc => !tc.isNamed name), tc.function ≠ none := by
  induction toolCalls with
  | nil => simp [findNamed]
  | cons tc rest ih =>
    unfold findNamed
    rw [List.takeWhile_cons, ToolCall.isNamed]
    cases hfunction : tc.function with
    | none => simp [hfunction]
    | some function =>
      dsimp only
      by_cases hname : function.isNamed name = true
      · simp [hname]
      · rw [if_neg hname, ih]
        simp [hname, hfunction]

theorem namedToolCall_extracted (h : namedToolCall env parser name content parts = .ok parts') :
    Extracted parts parts' ∧ parts'.toolCalls ≠ [] := by
  have standard : Extracted parts (standardToolCall env name content parts) ∧
      (standardToolCall env name content parts).toolCalls ≠ [] :=
    ⟨.called _ none parts.finishReason (List.cons_ne_nil _ _) (Or.inl rfl), List.cons_ne_nil _ _⟩
  unfold namedToolCall at h
  split at h
  · obtain rfl := Except.ok.inj h
    exact standard
  · split_ifs at h
    · obtain ⟨found, _, h⟩ := bind_eq_ok h
      cases found with
      | none =>
        obtain rfl := Except.ok.inj h
        exact standard
      | some found =>
        obtain rfl := Except.ok.inj h
        exact ⟨.called _ _ parts.finishReason (List.cons_ne_nil _ _) (Or.inl rfl),
          List.cons_ne_nil _ _⟩
    · obtain rfl := Except.ok.inj h
      exact standard

/-- Whether branch A can look through the calls the tool parser finds in a text. -/
def FindsNamed (parser : MessageParser) (name : Json) (content : String) : Prop :=
  ∀ result, parser.extractToolCalls content = .ok result → result.toolsCalled = true →
    ∀ tc ∈ result.toolCalls.takeWhile (fun tc => !tc.isNamed name), tc.function ≠ none

theorem namedToolCall_ok_iff :
    (∃ parts', namedToolCall env parser name content parts = .ok parts') ↔
      FindsNamed parser name content := by
  unfold namedToolCall FindsNamed
  cases hcalls : parser.extractToolCalls content with
  | error e => exact ⟨fun _ _ h => (nomatch h), fun _ => ⟨_, rfl⟩⟩
  | ok result =>
    by_cases called : result.toolsCalled = true
    · dsimp only
      rw [if_pos called]
      refine ⟨?_, ?_⟩
      · intro ⟨parts', h⟩ other hother _
        obtain rfl := Except.ok.inj hother
        obtain ⟨found, hfound, _⟩ := bind_eq_ok h
        exact (findNamed_ok_iff name result.toolCalls).mp ⟨found, hfound⟩
      · intro h
        obtain ⟨found, hfound⟩ := (findNamed_ok_iff name result.toolCalls).mpr (h result rfl called)
        rw [bind_of_ok hfound]
        cases found <;> exact ⟨_, rfl⟩
    · dsimp only
      rw [if_neg called]
      refine ⟨fun _ other hother hcalled => ?_, fun _ => ⟨_, rfl⟩⟩
      obtain rfl := Except.ok.inj hother
      exact absurd hcalled called

end Named

section Required

theorem requiredToolCall_ok_iff (i : Nat) (item : Json) :
    (∃ call, requiredToolCall env i item = .ok call) ↔ ∃ d, item = .obj d := by
  unfold requiredToolCall itemGet
  cases item with
  | obj d => exact ⟨fun _ => ⟨d, rfl⟩, fun _ => ⟨_, rfl⟩⟩
  | _ => exact ⟨fun ⟨_, h⟩ => (nomatch h), fun ⟨_, h⟩ => (nomatch h)⟩

theorem requiredToolCalls_extracted (h : requiredToolCalls env parts = .ok parts') :
    (env.loads (listText parts.content) = .ok (.arr []) ∧ parts' = parts.emptied) ∨
      env.loads (listText parts.content) ≠ .ok (.arr []) ∧ Extracted parts parts' := by
  unfold requiredToolCalls at h
  split at h
  · next items hloads =>
    obtain ⟨toolCalls, hcalls, h⟩ := bind_eq_ok h
    obtain rfl := Except.ok.inj h
    have hlength := length_of_mapM_ok hcalls
    rw [List.length_zipIdx] at hlength
    rw [hloads]
    cases items with
    | nil =>
      obtain rfl := List.length_eq_zero_iff.mp hlength
      exact Or.inl ⟨rfl, rfl⟩
    | cons item items =>
      have nonempty : toolCalls ≠ [] := by
        rintro rfl
        nomatch hlength
      exact Or.inr ⟨by simp, .called toolCalls none _ nonempty (Or.inr rfl)⟩
  · next value other hloads =>
    obtain rfl := Except.ok.inj h
    refine Or.inr ⟨?_, .unchanged⟩
    rw [hloads]
    intro h
    exact other [] (Except.ok.inj h)
  · next hloads =>
    obtain rfl := Except.ok.inj h
    rw [hloads]
    exact Or.inr ⟨fun h => (nomatch h), .unchanged⟩
  · nomatch h

/-- Whether branch B can read a text: `json.loads` ends, and a list has objects
only. -/
def ReadsList (env : BuildEnv) (text : String) : Prop :=
  env.loads text ≠ .error .recursionError ∧
    ∀ items, env.loads text = .ok (.arr items) → ∀ item ∈ items, ∃ d, item = .obj d

theorem requiredToolCalls_ok_iff :
    (∃ parts', requiredToolCalls env parts = .ok parts') ↔
      ReadsList env (listText parts.content) := by
  unfold requiredToolCalls ReadsList
  split
  · next items hloads =>
    rw [bind_pure_ok_iff, mapM_ok_iff, hloads]
    refine ⟨?_, ?_⟩
    · intro calls
      refine ⟨fun h => (nomatch h), ?_⟩
      intro items' hitems item mem
      obtain rfl := Json.arr.inj (Except.ok.inj hitems)
      obtain ⟨i, hi⟩ := List.mem_iff_getElem?.mp mem
      exact (requiredToolCall_ok_iff i item).mp (calls _ (List.mk_mem_zipIdx_iff_getElem?.mpr hi))
    · intro ⟨_, objects⟩ item mem
      exact (requiredToolCall_ok_iff item.2 item.1).mpr
        (objects items rfl item.1 (List.fst_mem_of_mem_zipIdx mem))
  · next value other hloads =>
    rw [hloads]
    refine ⟨fun _ => ⟨fun h => (nomatch h), ?_⟩, fun _ => ⟨_, rfl⟩⟩
    intro items hitems
    exact absurd (Except.ok.inj hitems) (other items)
  · next hloads =>
    rw [hloads]
    exact ⟨fun _ => ⟨fun h => (nomatch h), fun _ h => (nomatch h)⟩, fun _ => ⟨_, rfl⟩⟩
  · next hloads => exact ⟨fun ⟨_, h⟩ => (nomatch h), fun h => absurd hloads h.1⟩

end Required

section Auto

/-- The tool parser finds calls in a text, each with a function. -/
def FindsCalls (parser : MessageParser) (text : String) : Prop :=
  ∃ result, parser.extractToolCalls text = .ok result ∧ result.toolsCalled = true ∧
    result.toolCalls ≠ [] ∧ ∀ tc ∈ result.toolCalls, tc.function ≠ none

theorem mapM_toJson? {toolCalls : List ToolCall} (h : ∀ tc ∈ toolCalls, tc.function ≠ none) :
    ∃ calls, toolCalls.mapM ToolCall.toJson? = some calls ∧ calls.length = toolCalls.length := by
  induction toolCalls with
  | nil => exact ⟨[], rfl, rfl⟩
  | cons tc rest ih =>
    obtain ⟨function, hfunction⟩ := Option.ne_none_iff_exists'.mp (h tc List.mem_cons_self)
    obtain ⟨calls, hcalls, hlength⟩ := ih fun other mem => h other (List.mem_cons_of_mem _ mem)
    obtain ⟨call, here⟩ : ∃ call, tc.toJson? = some call := by
      rw [ToolCall.toJson?, hfunction]
      exact ⟨_, rfl⟩
    refine ⟨call :: calls, ?_, congrArg Nat.succ hlength⟩
    rw [List.mapM_cons, here, hcalls]
    rfl

theorem mapM_toJson?_of_none {toolCalls : List ToolCall} {tc : ToolCall} (mem : tc ∈ toolCalls)
    (h : tc.function = none) : toolCalls.mapM ToolCall.toJson? = none := by
  induction toolCalls with
  | nil => nomatch mem
  | cons first rest ih =>
    rw [List.mapM_cons]
    rcases List.mem_cons.mp mem with rfl | later
    · rw [ToolCall.toJson?, h]
      rfl
    · rw [ih later]
      cases first.toJson? <;> rfl

theorem autoToolCalls_called (h : FindsCalls parser (parts.content.getD "")) :
    Extracted parts (autoToolCalls env parser parts) ∧
      (autoToolCalls env parser parts).toolCalls ≠ [] := by
  obtain ⟨result, hcalls, called, nonempty, functions⟩ := h
  obtain ⟨calls, hjson, hlength⟩ := mapM_toJson? functions
  have some : calls ≠ [] := by
    rintro rfl
    exact nonempty (List.length_eq_zero_iff.mp hlength.symm)
  unfold autoToolCalls
  rw [hcalls]
  dsimp only
  rw [if_pos ⟨called, nonempty⟩, hjson]
  refine ⟨.called calls result.content _ some ?_, some⟩
  cases env.toolChoice with
  | named function => exact Or.inl rfl
  | required => exact Or.inr rfl
  | auto => exact Or.inr rfl

theorem autoToolCalls_unchanged (h : ¬FindsCalls parser (parts.content.getD "")) :
    autoToolCalls env parser parts = parts := by
  unfold autoToolCalls
  cases hcalls : parser.extractToolCalls (parts.content.getD "") with
  | error e => rfl
  | ok result =>
    dsimp only
    split_ifs with found
    · by_cases functions : ∀ tc ∈ result.toolCalls, tc.function ≠ none
      · exact absurd ⟨result, hcalls, found.1, found.2, functions⟩ h
      · push Not at functions
        obtain ⟨tc, mem, hnone⟩ := functions
        rw [mapM_toJson?_of_none mem hnone]
    · rfl

end Auto

section Choice

/-- Branch B takes the text for an empty list. -/
structure RequiredEmpty (env : BuildEnv) (parser : MessageParser) (content : Option String) :
    Prop where
  required : env.toolChoice = .required
  supported : parser.supportsRequiredAndNamed = true
  loads : env.loads (listText content) = .ok (.arr [])

theorem choiceToolCalls_cases (h : choiceToolCalls env parser parts = .ok parts') :
    (RequiredEmpty env parser parts.content ∧ parts' = parts.emptied) ∨
      ¬RequiredEmpty env parser parts.content ∧ Extracted parts parts' := by
  unfold choiceToolCalls at h
  split at h
  · next function hchoice hsupported =>
    have other : ¬RequiredEmpty env parser parts.content := by
      intro empty
      have choice := empty.required
      rw [hchoice] at choice
      nomatch choice
    obtain ⟨name, _, h⟩ := bind_eq_ok h
    refine Or.inr ⟨other, ?_⟩
    cases hcontent : parts.content.filter (· ≠ "") with
    | none =>
      rw [hcontent] at h
      obtain rfl := Except.ok.inj h
      exact .unchanged
    | some content =>
      rw [hcontent] at h
      dsimp only at h
      split_ifs at h
      · exact (namedToolCall_extracted h).1
      · obtain rfl := Except.ok.inj h
        exact .unchanged
  · next hchoice hsupported =>
    rcases requiredToolCalls_extracted h with ⟨hloads, rfl⟩ | ⟨hloads, extracted⟩
    · exact Or.inl ⟨⟨hchoice, hsupported, hloads⟩, rfl⟩
    · exact Or.inr ⟨fun empty => hloads empty.loads, extracted⟩
  · next hother =>
    obtain rfl := Except.ok.inj h
    exact Or.inr ⟨fun empty => hother empty.required empty.supported, .unchanged⟩

/-- Whether branches A and B return on a text. -/
def ReadsChoice (env : BuildEnv) (parser : MessageParser) (content : Option String) : Prop :=
  match env.toolChoice, parser.supportsRequiredAndNamed with
  | .named function, true =>
    ∃ d, function = .obj d ∧ ∀ text, content = some text → text ≠ "" →
      (Json.getD d "name").truthy = true → FindsNamed parser (Json.getD d "name") text
  | .required, true => ReadsList env (listText content)
  | _, _ => True

theorem choiceToolCalls_ok_iff :
    (∃ parts', choiceToolCalls env parser parts = .ok parts') ↔
      ReadsChoice env parser parts.content := by
  unfold choiceToolCalls ReadsChoice
  cases parser.supportsRequiredAndNamed with
  | false => cases env.toolChoice <;> exact ⟨fun _ => trivial, fun _ => ⟨_, rfl⟩⟩
  | true =>
    cases env.toolChoice with
    | auto => exact ⟨fun _ => trivial, fun _ => ⟨_, rfl⟩⟩
    | required => exact requiredToolCalls_ok_iff
    | named function =>
      cases function with
      | obj d =>
        have name : itemGet (.obj d) "name" .null = .ok (Json.getD d "name") := rfl
        dsimp only
        rw [bind_of_ok name]
        cases hcontent : parts.content.filter (· ≠ "") with
        | none =>
          refine ⟨fun _ => ⟨d, rfl, ?_⟩, fun _ => ⟨_, rfl⟩⟩
          intro text htext nonempty
          rw [htext, Option.filter_some, if_pos (by simpa using nonempty)] at hcontent
          nomatch hcontent
        | some content =>
          obtain ⟨held, nonempty⟩ := Option.filter_eq_some_iff.mp hcontent
          dsimp only
          split_ifs with named
          · rw [namedToolCall_ok_iff]
            refine ⟨fun finds => ⟨d, rfl, ?_⟩, ?_⟩
            · intro text htext _ _
              obtain rfl := Option.some.inj (held.symm.trans htext)
              exact finds
            · intro ⟨d', hd', finds⟩
              obtain rfl := Json.obj.inj hd'
              exact finds content held (by simpa using nonempty) named
          · exact ⟨fun _ => ⟨d, rfl, fun _ _ _ h => absurd h named⟩, fun _ => ⟨_, rfl⟩⟩
      | _ => exact ⟨fun ⟨_, h⟩ => (nomatch h), fun ⟨_, h, _⟩ => (nomatch h)⟩

theorem autoToolCalls_extracted (env : BuildEnv) (parser : MessageParser)
    (parts : MessageParts) : Extracted parts (autoToolCalls env parser parts) := by
  by_cases found : FindsCalls parser (parts.content.getD "")
  · exact (autoToolCalls_called found).1
  · rw [autoToolCalls_unchanged found]
    exact .unchanged

/-- Calls found after branch B emptied the parts are calls found in the parts. -/
theorem Extracted.of_emptied (h : Extracted parts.emptied parts') (some : parts'.toolCalls ≠ []) :
    Extracted parts parts' := by
  cases h with
  | unchanged => exact absurd rfl some
  | called toolCalls content finishReason nonempty reason =>
    exact .called toolCalls content finishReason nonempty (Or.inr (or_self_iff.mp reason))

/-- The builder loses the text: it takes it for an empty list of required calls,
and the tool parser finds none in the empty text that is left. -/
structure Emptied (env : BuildEnv) (parser : MessageParser) (parts : MessageParts) : Prop where
  noCalls : parts.toolCalls = []
  required : RequiredEmpty env parser parts.content
  noneFound : ¬FindsCalls parser ""

/-- What the builder can make of the parts. -/
theorem extractToolCalls_cases (h : extractToolCalls env parser parts = .ok parts') :
    (Emptied env parser parts ∧ parts' = parts.emptied) ∨
      ¬Emptied env parser parts ∧ Extracted parts parts' := by
  unfold extractToolCalls at h
  split_ifs at h with hempty
  · have none : parts.toolCalls = [] := List.isEmpty_iff.mp hempty
    obtain ⟨mid, hmid, h⟩ := bind_eq_ok h
    obtain rfl := Except.ok.inj h
    rcases choiceToolCalls_cases hmid with ⟨required, rfl⟩ | ⟨other, extracted⟩
    · have left : parts.emptied.toolCalls.isEmpty = true := rfl
      rw [if_pos left]
      by_cases found : FindsCalls parser ""
      · refine Or.inr ⟨fun emptied => emptied.noneFound found, ?_⟩
        have auto : Extracted parts.emptied (autoToolCalls env parser parts.emptied) ∧
            (autoToolCalls env parser parts.emptied).toolCalls ≠ [] := autoToolCalls_called found
        exact auto.1.of_emptied auto.2
      · have auto : autoToolCalls env parser parts.emptied = parts.emptied :=
          autoToolCalls_unchanged found
        exact Or.inl ⟨⟨none, required, found⟩, auto⟩
    · refine Or.inr ⟨fun emptied => other emptied.required, ?_⟩
      split_ifs with more
      · cases extracted with
        | unchanged => exact autoToolCalls_extracted env parser parts
        | called toolCalls _ _ nonempty _ => exact absurd (List.isEmpty_iff.mp more) nonempty
      · exact extracted
  · obtain rfl := Except.ok.inj h
    refine Or.inr ⟨fun emptied => hempty ?_, .unchanged⟩
    rw [emptied.noCalls]
    rfl

theorem extractToolCalls_ok_iff :
    (∃ parts', extractToolCalls env parser parts = .ok parts') ↔
      (parts.toolCalls = [] → ReadsChoice env parser parts.content) := by
  unfold extractToolCalls
  split_ifs with hempty
  · rw [bind_pure_ok_iff, choiceToolCalls_ok_iff]
    exact ⟨fun reads _ => reads, fun h => h (List.isEmpty_iff.mp hempty)⟩
  · exact ⟨fun _ none => absurd (List.isEmpty_iff.mpr none) hempty, fun _ => ⟨_, rfl⟩⟩

end Choice

section Reason

/-- The parts with another finish reason. -/
def MessageParts.withReason (parts : MessageParts) (reason : Option String) : MessageParts :=
  { parts with finishReason := reason }

/-- The same parts but for the finish reason. -/
def MessageParts.Alike (parts parts' : MessageParts) : Prop :=
  parts.withReason none = parts'.withReason none

theorem MessageParts.Alike.eq (h : parts.Alike parts') :
    parts' = parts.withReason parts'.finishReason := by
  obtain ⟨content, reasoning, toolCalls, reason⟩ := parts
  obtain ⟨content', reasoning', toolCalls', reason'⟩ := parts'
  obtain ⟨rfl, rfl, rfl, _⟩ := MessageParts.mk.inj h
  rfl

/-- Two calls that raise alike, or return the same but for the finish reason. -/
def AlikeResults (result result' : Except String MessageParts) : Prop :=
  match result, result' with
  | .ok parts, .ok parts' => parts.Alike parts'
  | .error e, .error e' => e = e'
  | _, _ => False

variable (env : BuildEnv) (parser : MessageParser) (parts : MessageParts) (reason : Option String)

theorem namedToolCall_reason (name : Json) (content : String) :
    AlikeResults (namedToolCall env parser name content parts)
      (namedToolCall env parser name content (parts.withReason reason)) := by
  unfold namedToolCall
  cases parser.extractToolCalls content with
  | error e => rfl
  | ok result =>
    dsimp only
    split_ifs
    · cases findNamed name result.toolCalls with
      | error e => rfl
      | ok found => cases found <;> rfl
    · rfl

theorem requiredToolCalls_reason :
    AlikeResults (requiredToolCalls env parts)
      (requiredToolCalls env (parts.withReason reason)) := by
  have same : (parts.withReason reason).content = parts.content := rfl
  unfold requiredToolCalls
  rw [same]
  cases env.loads (listText parts.content) with
  | error e => cases e <;> rfl
  | ok value =>
    cases value with
    | arr items =>
      dsimp only
      cases items.zipIdx.mapM fun item => requiredToolCall env item.2 item.1 <;> rfl
    | _ => rfl

theorem autoToolCalls_reason :
    (autoToolCalls env parser parts).Alike
      (autoToolCalls env parser (parts.withReason reason)) := by
  have same : (parts.withReason reason).content = parts.content := rfl
  unfold autoToolCalls
  rw [same]
  cases parser.extractToolCalls (parts.content.getD "") with
  | error e => rfl
  | ok result =>
    dsimp only
    split_ifs
    · cases result.toolCalls.mapM ToolCall.toJson? <;> rfl
    · rfl

theorem choiceToolCalls_reason :
    AlikeResults (choiceToolCalls env parser parts)
      (choiceToolCalls env parser (parts.withReason reason)) := by
  have same : (parts.withReason reason).content = parts.content := rfl
  unfold choiceToolCalls
  rw [same]
  cases parser.supportsRequiredAndNamed with
  | false => cases env.toolChoice <;> rfl
  | true =>
    cases env.toolChoice with
    | auto => rfl
    | required => exact requiredToolCalls_reason env parts reason
    | named function =>
      dsimp only
      cases itemGet function "name" .null with
      | error e => rfl
      | ok name =>
        cases parts.content.filter (· ≠ "") with
        | none => rfl
        | some content =>
          dsimp only [bind, Except.bind]
          split_ifs
          · exact namedToolCall_reason env parser parts reason name content
          · rfl

/-- The finish reason decides nothing. -/
theorem extractToolCalls_reason :
    AlikeResults (extractToolCalls env parser parts)
      (extractToolCalls env parser (parts.withReason reason)) := by
  have same : (parts.withReason reason).toolCalls = parts.toolCalls := rfl
  unfold extractToolCalls
  rw [same]
  split_ifs
  · have alike := choiceToolCalls_reason env parser parts reason
    cases hleft : choiceToolCalls env parser parts with
    | error e =>
      cases hright : choiceToolCalls env parser (parts.withReason reason) with
      | error e' =>
        rw [hleft, hright] at alike
        exact alike
      | ok mid' =>
        rw [hleft, hright] at alike
        exact alike
    | ok mid =>
      cases hright : choiceToolCalls env parser (parts.withReason reason) with
      | error e' =>
        rw [hleft, hright] at alike
        exact alike
      | ok mid' =>
        rw [hleft, hright] at alike
        have renamed : mid' = mid.withReason mid'.finishReason := MessageParts.Alike.eq alike
        rw [renamed]
        dsimp only [bind, Except.bind, pure, Except.pure]
        have empty : (mid.withReason mid'.finishReason).toolCalls = mid.toolCalls := rfl
        rw [empty]
        split_ifs
        · exact autoToolCalls_reason env parser mid _
        · rfl
  · rfl

end Reason

end TrajProxy.Pipeline
