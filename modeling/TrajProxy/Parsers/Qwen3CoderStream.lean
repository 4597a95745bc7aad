import TrajProxy.Parsers.Qwen3Coder
import TrajProxy.Parsers.ToolHandOff

/-! What a client gets of the calls of `Qwen3CoderToolParser`. Whatever the model writes
and however its text is cut, the arguments of a call are the opening brace, parameters and,
when the next call has started, the closing brace. -/

namespace TrajProxy.Parsers.Qwen3Coder
open TrajProxy.Substring (cut find behind)
open Pipeline (DeltaMessage DeltaToolCall)

/-- A parameter as it was streamed. -/
abbrev Parameter := List Char × Json

/-- The fragments of the parameters from `param_count` on. -/
def fragmentsFrom (env : Env) : Nat → List Parameter → List (List Char)
  | _, [] => []
  | paramCount, (name, value) :: rest =>
    jsonFragment env paramCount name value :: fragmentsFrom env (paramCount + 1) rest

theorem fragmentsFrom_append (env : Env) (paramCount : Nat) (params more : List Parameter) :
    fragmentsFrom env paramCount (params ++ more) =
      fragmentsFrom env paramCount params ++
        fragmentsFrom env (paramCount + params.length) more := by
  induction params generalizing paramCount with
  | nil => rfl
  | cons param params ih =>
    obtain ⟨name, value⟩ := param
    rw [List.cons_append, fragmentsFrom, ih, fragmentsFrom, List.cons_append, List.length_cons,
      Nat.add_assoc, Nat.add_comm 1]

theorem fragmentsFrom_length (env : Env) (paramCount : Nat) (params : List Parameter) :
    (fragmentsFrom env paramCount params).length = params.length := by
  induction params generalizing paramCount with
  | nil => rfl
  | cons param params ih => rw [fragmentsFrom, List.length_cons, ih, List.length_cons]

/-- The arguments of a call that has not ended. -/
def openArguments (env : Env) (params : List Parameter) : List Char :=
  '{' :: (fragmentsFrom env 0 params).flatten

def closedArguments (env : Env) (params : List Parameter) : List Char :=
  openArguments env params ++ ['}']

theorem openArguments_append (env : Env) (params more : List Parameter) :
    openArguments env (params ++ more) =
      openArguments env params ++ (fragmentsFrom env params.length more).flatten := by
  rw [openArguments, fragmentsFrom_append, List.flatten_append, Nat.zero_add]
  rfl

section Json

variable (env : Env)

/-- A name that `json.dumps` writes as it is. -/
def Plain (name : List Char) : Prop :=
  ∀ c ∈ name, JsonText.escapeControl c = [c]

instance (name : List Char) : Decidable (Plain name) :=
  decidable_of_iff (name.all fun c => JsonText.escapeControl c = [c]) (by simp [Plain])

/-- The dictionary of parameters. -/
def toItems (params : List Parameter) : List (String × Json) :=
  params.map fun param => (String.ofList param.1, param.2)

theorem quoteBy_plain {name : List Char} (plain : Plain name) :
    JsonText.quoteBy .control (String.ofList name) = '"' :: (name ++ ['"']) := by
  have same : name.flatMap JsonText.escapeControl = name := by
    rw [List.flatMap_congr plain]
    exact List.flatMap_singleton' name
  rw [JsonText.quoteBy, String.toList_ofList]
  exact congrArg (fun text => '"' :: (text ++ ['"'])) same

/-- The fragments of plain names are the entries that `json.dumps` writes. -/
theorem flatten_fragmentsFrom {params : List Parameter} (plain : ∀ param ∈ params, Plain param.1)
    (some : params ≠ []) (paramCount : Nat) :
    (fragmentsFrom env paramCount params).flatten =
      (if paramCount = 0 then [] else [',', ' ']) ++
        JsonText.commaSeparated (JsonText.dumpsEntriesBy env.floats .control (toItems params)) := by
  induction params generalizing paramCount with
  | nil => exact absurd rfl some
  | cons param params ih =>
    obtain ⟨name, value⟩ := param
    obtain ⟨here, later⟩ := List.forall_mem_cons.mp plain
    have entry : jsonFragment env paramCount name value =
        (if paramCount = 0 then [] else [',', ' ']) ++
          (JsonText.quoteBy .control (String.ofList name) ++ ([':', ' '] ++ env.dumps value)) := by
      rw [quoteBy_plain here]
      simp [jsonFragment]
    rw [fragmentsFrom, List.flatten_cons, entry, List.append_assoc]
    refine congrArg _ ?_
    cases params with
    | nil =>
      rw [fragmentsFrom, List.flatten_nil, List.append_nil]
      rfl
    | cons next params =>
      rw [ih later (List.cons_ne_nil next params), if_neg (Nat.succ_ne_zero paramCount)]
      exact (JsonText.commaSeparated_cons _
        (JsonText.dumpsEntriesBy_ne_nil (String.ofList next.1, next.2) (toItems params))).symm

/-- With plain names the arguments of a call that ended are a JSON object. -/
theorem closedArguments_eq_dumps {params : List Parameter}
    (plain : ∀ param ∈ params, Plain param.1) :
    closedArguments env params = env.dumps (.obj (toItems params)) := by
  rw [closedArguments, openArguments, Env.dumps, JsonText.dumpsBy, List.cons_append]
  refine congrArg (fun text => '{' :: (text ++ ['}'])) ?_
  cases params with
  | nil => rfl
  | cons param params => rw [flatten_fragmentsFrom env plain (List.cons_ne_nil _ _), if_pos rfl,
      List.nil_append]

end Json

section Steps

variable {env : Env} {s s' : State} {currentText deltaText : List Char}
  {deltaTokenIds : List Int} {message : Option DeltaMessage}

/-- The fields that say what was streamed are the same. -/
structure State.SameCalls (s s' : State) : Prop where
  prevToolCallArr : s'.prevToolCallArr = s.prevToolCallArr
  streamedArgsForTool : s'.streamedArgsForTool = s.streamedArgsForTool
  currentToolIndex : s'.currentToolIndex = s.currentToolIndex
  headerSent : s'.headerSent = s.headerSent
  currentFunctionName : s'.currentFunctionName = s.currentFunctionName
  paramCount : s'.paramCount = s.paramCount
  inFunction : s'.inFunction = s.inFunction
  jsonStarted : s'.jsonStarted = s.jsonStarted
  jsonClosed : s'.jsonClosed = s.jsonClosed

theorem State.SameCalls.refl (s : State) : s.SameCalls s :=
  ⟨rfl, rfl, rfl, rfl, rfl, rfl, rfl, rfl, rfl⟩

/-- The value of a parameter was read from the text behind its mark. -/
structure ReadFrom (env : Env) (functionName remaining : List Char) (param : Parameter) :
    Prop where
  value : ∃ paramValue, readParameter remaining = some (param.1, paramValue) ∧
    env.converted functionName param.1 paramValue = .ok param.2

/-- The loop streams the parameters up to one that is not complete. -/
theorem streamParameters_spec {functionName : List Char} {paramCount paramCount' : Nat}
    {starts fragments : List (List Char)}
    (read : streamParameters env functionName paramCount starts = (fragments, paramCount', none)) :
    ∃ params, fragments = fragmentsFrom env paramCount params ∧
      paramCount' = paramCount + params.length ∧
      List.Forall₂ (ReadFrom env functionName) (starts.take params.length) params ∧
      ∀ next, starts[params.length]? = some next → readParameter next = none := by
  induction starts generalizing paramCount fragments with
  | nil =>
    rw [streamParameters, Prod.mk.injEq, Prod.mk.injEq] at read
    obtain ⟨rfl, rfl, -⟩ := read
    exact ⟨[], rfl, rfl, .nil, nofun⟩
  | cons remaining rest ih =>
    rw [streamParameters] at read
    cases complete : readParameter remaining with
    | none =>
      simp only [complete, Prod.mk.injEq] at read
      obtain ⟨rfl, rfl, -⟩ := read
      refine ⟨[], rfl, rfl, .nil, fun next first => ?_⟩
      obtain rfl := Option.some_inj.mp first
      exact complete
    | some found =>
      obtain ⟨name, paramValue⟩ := found
      rw [complete] at read
      dsimp only at read
      cases converts : env.converted functionName name paramValue with
      | error e =>
        rw [converts] at read
        cases read
      | ok value =>
        rw [converts] at read
        obtain ⟨more, count, raised, later⟩ : ∃ more count raised,
            streamParameters env functionName (paramCount + 1) rest = (more, count, raised) :=
          ⟨_, _, _, rfl⟩
        simp only [later, Prod.mk.injEq] at read
        obtain ⟨rfl, rfl, rfl⟩ := read
        obtain ⟨params, rfl, rfl, all, stops⟩ := ih later
        refine ⟨(name, value) :: params, rfl, ?_, ?_, ?_⟩
        · rw [List.length_cons]
          omega
        · rw [List.length_cons, List.take_succ_cons]
          exact .cons ⟨paramValue, complete, converts⟩ all
        · rw [List.length_cons]
          exact stops

/-- What a call of the streaming parser that does not raise does. -/
inductive Does (env : Env) (s : State) (currentText : List Char) :
    Option DeltaMessage → State → Prop
  | quiet {message : Option DeltaMessage} {s' : State} (same : s.SameCalls s')
      (silent : sentToolCalls [message] = []) : Does env s currentText message s'
  | advances (closed : s.jsonClosed = true) : Does env s currentText none (s.advance currentText)
  | names {toolText name : List Char}
      (there : Qwen3Coder.toolText currentText s.currentToolIndex = some toolText)
      (unsent : s.headerSent = false) (named : functionName toolText = some name) :
      Does env s currentText (some (headerDelta env s name)) (s.named name)
  | opens (inFunction : s.inFunction = true) (unopened : s.jsonStarted = false)
      (inside : s.currentToolIndex < s.streamedArgsForTool.length) :
      Does env s currentText (some (argumentsDelta s ['{']))
        ({ s with jsonStarted := true }.addStreamed ['{'])
  | adds {toolText : List Char} {fragments : List (List Char)} {paramCount : Nat}
      (there : Qwen3Coder.toolText currentText s.currentToolIndex = some toolText)
      (inFunction : s.inFunction = true) (opened : s.jsonStarted = true)
      (read : streamParameters env (s.currentFunctionName.getD []) s.paramCount
        ((behind parameterPrefix toolText).drop s.paramCount) = (fragments, paramCount, none)) :
      Does env s currentText (some (argumentsDelta s fragments.flatten))
        ({ s with paramCount }.addStreamed fragments.flatten)
  | closes {toolText : List Char}
      (there : Qwen3Coder.toolText currentText s.currentToolIndex = some toolText)
      (inFunction : s.inFunction = true) (opened : s.jsonStarted = true)
      (read : streamParameters env (s.currentFunctionName.getD []) s.paramCount
        ((behind parameterPrefix toolText).drop s.paramCount) = ([], s.paramCount, none))
      (ended : find functionEndToken toolText ≠ none) :
      Does env s currentText (some (argumentsDelta s ['}']))
        { (s.recorded env toolText).addStreamed ['}'] with inFunction := false, jsonClosed := true }

theorem silent_withoutText (env : Env) (s : State) (currentText : List Char)
    (deltaTokenIds : List Int) :
    sentToolCalls [withoutText env s currentText deltaTokenIds] = [] := by
  unfold withoutText
  split_ifs <;> rfl

theorem does_contentPhase (env : Env) (s : State) (currentText deltaText : List Char)
    (deltaTokenIds : List Int) :
    Does env s currentText (contentPhase env s currentText deltaText deltaTokenIds).1
      (contentPhase env s currentText deltaText deltaTokenIds).2 := by
  have starts : s.SameCalls { s with isToolCallStarted := true } :=
    ⟨rfl, rfl, rfl, rfl, rfl, rfl, rfl, rfl, rfl⟩
  unfold contentPhase
  cases cut toolCallStartToken deltaText with
  | some found =>
    refine .quiet starts ?_
    dsimp only
    split_ifs <;> rfl
  | none =>
    dsimp only
    split_ifs
    · exact .quiet starts rfl
    · exact .quiet (.refl s) rfl
    · exact .quiet (.refl s) rfl

theorem does_bodyPhase {toolText : List Char}
    (there : Qwen3Coder.toolText currentText s.currentToolIndex = some toolText)
    (inFunction : s.inFunction = true)
    (taken : bodyPhase env s toolText = (.ok message, s')) :
    Does env s currentText message s' := by
  unfold bodyPhase at taken
  by_cases unopened : s.jsonStarted = false
  · rw [if_pos unopened] at taken
    dsimp only at taken
    split_ifs at taken with inside
    · obtain ⟨sent, rfl⟩ := Prod.mk.inj taken
      obtain rfl := Except.ok.inj sent
      exact .opens inFunction unopened inside
    · cases taken
  · rw [if_neg unopened] at taken
    have opened : s.jsonStarted = true := by simpa using unopened
    obtain ⟨fragments, paramCount, raised, read⟩ : ∃ fragments paramCount raised,
        streamParameters env (s.currentFunctionName.getD []) s.paramCount
          ((behind parameterPrefix toolText).drop s.paramCount) =
            (fragments, paramCount, raised) := ⟨_, _, _, rfl⟩
    rw [read] at taken
    cases raised with
    | some e => cases taken
    | none =>
      dsimp only at taken
      split_ifs at taken with nothing
      · subst nothing
        have same : paramCount = s.paramCount := by
          obtain ⟨params, none, count, -⟩ := streamParameters_spec read
          have empty := congrArg List.length none
          rw [fragmentsFrom_length, List.length_nil] at empty
          omega
        subst same
        obtain ⟨sent, rfl⟩ := Prod.mk.inj taken
        obtain rfl := Except.ok.inj sent
        unfold closePhase
        split_ifs with ends
        · exact .closes there inFunction opened read ends.2
        · exact .quiet (.refl s) rfl
      · obtain ⟨sent, rfl⟩ := Prod.mk.inj taken
        obtain rfl := Except.ok.inj sent
        exact .adds there inFunction opened read

theorem does_callPhase {toolText : List Char}
    (there : Qwen3Coder.toolText currentText s.currentToolIndex = some toolText)
    (taken : callPhase env s toolText = (.ok message, s')) :
    Does env s currentText message s' := by
  unfold callPhase headerPhase at taken
  split_ifs at taken with unsent inFunction
  · cases named : functionName toolText with
    | none =>
      rw [named] at taken
      obtain ⟨sent, rfl⟩ := Prod.mk.inj taken
      obtain rfl := Except.ok.inj sent
      exact .quiet (.refl s) rfl
    | some name =>
      rw [named] at taken
      obtain ⟨sent, rfl⟩ := Prod.mk.inj taken
      obtain rfl := Except.ok.inj sent
      exact .names there unsent named
  · exact does_bodyPhase there inFunction taken
  · obtain ⟨sent, rfl⟩ := Prod.mk.inj taken
    obtain rfl := Except.ok.inj sent
    exact .quiet (.refl s) rfl

theorem does_stream
    (taken : stream env s currentText deltaText deltaTokenIds = (.ok message, s')) :
    Does env s currentText message s' := by
  unfold stream at taken
  split_ifs at taken with empty ended waiting
  · obtain ⟨sent, rfl⟩ := Prod.mk.inj taken
    obtain rfl := Except.ok.inj sent
    exact .quiet (.refl s) (silent_withoutText env s currentText deltaTokenIds)
  · obtain ⟨sent, rfl⟩ := Prod.mk.inj taken
    obtain rfl := Except.ok.inj sent
    exact .advances ended.1
  · obtain ⟨sent, rfl⟩ := Prod.mk.inj taken
    obtain rfl := Except.ok.inj sent
    exact does_contentPhase env s currentText deltaText deltaTokenIds
  · cases there : toolText currentText s.currentToolIndex with
    | none =>
      rw [there] at taken
      obtain ⟨sent, rfl⟩ := Prod.mk.inj taken
      obtain rfl := Except.ok.inj sent
      exact .quiet (.refl s) rfl
    | some text =>
      rw [there] at taken
      exact does_callPhase there taken

end Steps

/-- A call that was started, with what was streamed of it. -/
structure Called where
  name : List Char
  params : List Parameter
  arguments : List Char

/-- The calls as the client has them. -/
def clientFrom (env : Env) : Nat → List Called → List StreamedCall
  | _, [] => []
  | index, call :: rest =>
    ⟨env.generateToolCallId index, String.ofList call.name, String.ofList call.arguments⟩ ::
      clientFrom env (index + 1) rest

theorem clientFrom_append (env : Env) (index : Nat) (calls more : List Called) :
    clientFrom env index (calls ++ more) =
      clientFrom env index calls ++ clientFrom env (index + calls.length) more := by
  induction calls generalizing index with
  | nil => rfl
  | cons call calls ih =>
    rw [List.cons_append, clientFrom, ih, clientFrom, List.cons_append, List.length_cons,
      Nat.add_assoc, Nat.add_comm 1]

@[simp] theorem length_clientFrom (env : Env) (index : Nat) (calls : List Called) :
    (clientFrom env index calls).length = calls.length := by
  induction calls generalizing index with
  | nil => rfl
  | cons call calls ih => rw [clientFrom, List.length_cons, ih, List.length_cons]

theorem getElem?_clientFrom {env : Env} {start index : Nat} {calls : List Called}
    {call : StreamedCall} (there : (clientFrom env start calls)[index]? = some call) :
    ∃ called, calls[index]? = some called ∧
      call = ⟨env.generateToolCallId (start + index), String.ofList called.name,
        String.ofList called.arguments⟩ := by
  induction calls generalizing start index with
  | nil => cases there
  | cons called calls ih =>
    cases index with
    | zero => exact ⟨called, rfl, (Option.some_inj.mp there).symm⟩
    | succ index =>
      obtain ⟨other, member, same⟩ := ih there
      exact ⟨other, member, by rw [same, Nat.add_assoc, Nat.add_comm 1]⟩

/-- How far the call at `current_tool_index` is. -/
inductive Stage (env : Env) (s : State) : Option Called → Prop
  | waiting (headerSent : s.headerSent = false) (inFunction : s.inFunction = false)
      (jsonStarted : s.jsonStarted = false) (jsonClosed : s.jsonClosed = false)
      (paramCount : s.paramCount = 0) : Stage env s none
  | named {call : Called} (headerSent : s.headerSent = true) (inFunction : s.inFunction = true)
      (jsonStarted : s.jsonStarted = false) (jsonClosed : s.jsonClosed = false)
      (paramCount : s.paramCount = 0) (name : s.currentFunctionName = some call.name)
      (params : call.params = []) (arguments : call.arguments = []) : Stage env s (some call)
  | opened {call : Called} (headerSent : s.headerSent = true) (inFunction : s.inFunction = true)
      (jsonStarted : s.jsonStarted = true) (jsonClosed : s.jsonClosed = false)
      (paramCount : s.paramCount = call.params.length)
      (name : s.currentFunctionName = some call.name)
      (arguments : call.arguments = openArguments env call.params) : Stage env s (some call)
  | closed {call : Called} (headerSent : s.headerSent = true) (inFunction : s.inFunction = false)
      (jsonStarted : s.jsonStarted = true) (jsonClosed : s.jsonClosed = true)
      (arguments : call.arguments = closedArguments env call.params) : Stage env s (some call)

/-- The calls that were ended and left, and the one at `current_tool_index`. -/
structure Tracks (env : Env) (s : State) (done : List Called) (current : Option Called) :
    Prop where
  index : s.currentToolIndex = done.length
  names : s.prevToolCallArr.map ToolCall.name = (done ++ current.toList).map Called.name
  streamed : s.streamedArgsForTool = (done ++ current.toList).map Called.arguments
  closed : ∀ call ∈ done, call.arguments = closedArguments env call.params
  stage : Stage env s current

/-- What a step does to the calls. -/
inductive Moves (env : Env) (currentText : List Char) (done : List Called) :
    Option Called → List Called → Option Called → Prop
  | same {current : Option Called} : Moves env currentText done current done current
  | advances {call : Called} (closed : call.arguments = closedArguments env call.params) :
      Moves env currentText done (some call) (done ++ [call]) none
  | names {toolText name : List Char}
      (there : Qwen3Coder.toolText currentText done.length = some toolText)
      (named : functionName toolText = some name) :
      Moves env currentText done none done (some ⟨name, [], []⟩)
  | opens {call : Called} (params : call.params = []) :
      Moves env currentText done (some call) done (some { call with arguments := ['{'] })
  | adds {toolText : List Char} {call : Called} {more : List Parameter} {arguments : List Char}
      (there : Qwen3Coder.toolText currentText done.length = some toolText)
      (read : List.Forall₂ (ReadFrom env call.name)
        (((behind parameterPrefix toolText).drop call.params.length).take more.length) more)
      (opened : arguments = openArguments env (call.params ++ more)) :
      Moves env currentText done (some call) done
        (some { call with params := call.params ++ more, arguments })
  | closes {toolText : List Char} {call : Called} {arguments : List Char}
      (there : Qwen3Coder.toolText currentText done.length = some toolText)
      (ended : find functionEndToken toolText ≠ none)
      (stops : ∀ next, (behind parameterPrefix toolText)[call.params.length]? = some next →
        readParameter next = none)
      (closed : arguments = closedArguments env call.params) :
      Moves env currentText done (some call) done (some { call with arguments })

section Tracking

variable {env : Env} {s s' : State} {currentText : List Char} {message : Option DeltaMessage}
  {done : List Called} {current : Option Called}

theorem stage_sameCalls (stage : Stage env s current) (same : s.SameCalls s') :
    Stage env s' current := by
  obtain ⟨-, -, -, headerSent, name, paramCount, inFunction, jsonStarted, jsonClosed⟩ := same
  cases stage with
  | waiting h₁ h₂ h₃ h₄ h₅ =>
    exact .waiting (headerSent.trans h₁) (inFunction.trans h₂) (jsonStarted.trans h₃)
      (jsonClosed.trans h₄) (paramCount.trans h₅)
  | named h₁ h₂ h₃ h₄ h₅ h₆ h₇ h₈ =>
    exact .named (headerSent.trans h₁) (inFunction.trans h₂) (jsonStarted.trans h₃)
      (jsonClosed.trans h₄) (paramCount.trans h₅) (name.trans h₆) h₇ h₈
  | opened h₁ h₂ h₃ h₄ h₅ h₆ h₇ =>
    exact .opened (headerSent.trans h₁) (inFunction.trans h₂) (jsonStarted.trans h₃)
      (jsonClosed.trans h₄) (paramCount.trans h₅) (name.trans h₆) h₇
  | closed h₁ h₂ h₃ h₄ h₅ =>
    exact .closed (headerSent.trans h₁) (inFunction.trans h₂) (jsonStarted.trans h₃)
      (jsonClosed.trans h₄) h₅

/-- The arguments of the last call are lengthened, for the client as in the state. -/
theorem takeDeltas_arguments (env : Env) (done : List Called) (call : Called)
    (more : List Char) (params : List Parameter) :
    takeDeltas (clientFrom env 0 (done ++ [call]))
        [⟨done.length, none, none, none, some (String.ofList more)⟩] =
      some (clientFrom env 0 (done ++ [⟨call.name, params, call.arguments ++ more⟩])) := by
  have size : (clientFrom env 0 done).length = done.length := length_clientFrom env 0 done
  rw [takeDeltas_singleton, clientFrom_append, clientFrom_append]
  conv_lhs => rw [← size]
  rw [clientFrom, clientFrom, takeDelta_arguments, clientFrom, clientFrom]
  simp [StreamedCall.extend, String.ofList_append]

theorem modify_last {α : Type} (done : List α) (last : α) (f : α → α) :
    (done ++ [last]).modify done.length f = done ++ [f last] := modify_middle done [] last f

theorem Tracks.addStreamed {call : Called} (h : Tracks env s done (some call)) (more : List Char)
    (params : List Parameter) :
    (s.addStreamed more).streamedArgsForTool =
      (done ++ [Called.mk call.name params (call.arguments ++ more)]).map Called.arguments := by
  unfold State.addStreamed
  dsimp only
  rw [h.streamed, h.index, Option.toList_some, List.map_append, List.map_append]
  have size : (done.map Called.arguments).length = done.length := List.length_map _
  rw [← size]
  exact modify_last (done.map Called.arguments) call.arguments (· ++ more)

theorem map_modify_of_eq {α β : Type} {f : α → α} {g : α → β} (same : ∀ a, g (f a) = g a)
    (l : List α) (i : Nat) : (l.modify i f).map g = l.map g := by
  refine List.ext_getElem? fun j => ?_
  rw [List.getElem?_map, List.getElem?_map, List.getElem?_modify]
  cases l[j]? with
  | none => rfl
  | some a =>
    split_ifs
    · exact congrArg some (same a)
    · rfl

theorem recorded_fields (env : Env) (s : State) (toolText : List Char) :
    ∃ entries, s.recorded env toolText = { s with prevToolCallArr := entries } ∧
      entries.map ToolCall.name = s.prevToolCallArr.map ToolCall.name := by
  unfold State.recorded
  split
  · next call _ =>
    refine ⟨_, rfl, map_modify_of_eq ?_ s.prevToolCallArr s.currentToolIndex⟩
    exact fun _ => rfl
  · exact ⟨s.prevToolCallArr, rfl, rfl⟩

/-- The calls move on, and the client can follow. -/
def Follows (env : Env) (currentText : List Char) (done : List Called) (current : Option Called)
    (message : Option DeltaMessage) (s' : State) : Prop :=
  ∃ done' current', Tracks env s' done' current' ∧
    Moves env currentText done current done' current' ∧
    takeDeltas (clientFrom env 0 (done ++ current.toList)) (sentToolCalls [message]) =
      some (clientFrom env 0 (done' ++ current'.toList))

theorem follows_same (h : Tracks env s done current) (same : s.SameCalls s')
    (silent : sentToolCalls [message] = []) : Follows env currentText done current message s' := by
  refine ⟨done, current, ⟨?_, ?_, ?_, h.closed, stage_sameCalls h.stage same⟩, .same, ?_⟩
  · rw [same.currentToolIndex, h.index]
  · rw [same.prevToolCallArr, h.names]
  · rw [same.streamedArgsForTool, h.streamed]
  · rw [silent]
    rfl

theorem follows_advances (h : Tracks env s done current) (closed : s.jsonClosed = true) :
    Follows env currentText done current none (s.advance currentText) := by
  cases h.stage with
  | waiting _ _ _ unclosed _ => exact absurd closed (by rw [unclosed]; exact nofun)
  | named _ _ _ unclosed _ _ _ _ => exact absurd closed (by rw [unclosed]; exact nofun)
  | opened _ _ _ unclosed _ _ _ => exact absurd closed (by rw [unclosed]; exact nofun)
  | @closed call headerSent inFunction _ _ arguments =>
    refine ⟨done ++ [call], none, ⟨?_, ?_, ?_, ?_, .waiting rfl inFunction rfl rfl rfl⟩,
      .advances arguments, ?_⟩
    · rw [List.length_append, List.length_singleton, ← h.index]
      rfl
    · rw [Option.toList_none, List.append_nil]
      exact h.names
    · rw [Option.toList_none, List.append_nil]
      exact h.streamed
    · intro other mem
      rcases List.mem_append.mp mem with old | new
      · exact h.closed other old
      · rw [List.mem_singleton.mp new]
        exact arguments
    · rw [Option.toList_none, List.append_nil]
      rfl

/-- The client starts a call under the index of the header. -/
theorem takeDeltas_header (h : Tracks env s done none) (name : List Char) :
    takeDeltas (clientFrom env 0 done) (sentToolCalls [some (headerDelta env s name)]) =
      some (clientFrom env 0 (done ++ [⟨name, [], []⟩])) := by
  have size : (clientFrom env 0 done).length = done.length := length_clientFrom env 0 done
  have count : s.streamedArgsForTool.length = done.length := by
    rw [h.streamed, Option.toList_none, List.append_nil, List.length_map]
  have sent : sentToolCalls [some (headerDelta env s name)] =
      [⟨(clientFrom env 0 done).length, some (env.generateToolCallId done.length),
        some "function", some (String.ofList name), some ""⟩] := by
    rw [size]
    change [DeltaToolCall.mk s.currentToolIndex
      (some (env.generateToolCallId s.streamedArgsForTool.length)) _ _ _] = _
    rw [h.index, count]
  rw [sent, takeDeltas_singleton, takeDelta_start, clientFrom_append, Nat.zero_add]
  rfl

theorem follows_names (h : Tracks env s done current) {toolText name : List Char}
    (there : Qwen3Coder.toolText currentText s.currentToolIndex = some toolText)
    (unsent : s.headerSent = false) (named : functionName toolText = some name) :
    Follows env currentText done current (some (headerDelta env s name)) (s.named name) := by
  cases h.stage with
  | named headerSent => rw [headerSent] at unsent; cases unsent
  | opened headerSent => rw [headerSent] at unsent; cases unsent
  | closed headerSent => rw [headerSent] at unsent; cases unsent
  | waiting _ _ jsonStarted jsonClosed paramCount =>
    have streamed := h.streamed
    have names := h.names
    rw [Option.toList_none, List.append_nil] at streamed names
    refine ⟨done, some ⟨name, [], []⟩, ⟨h.index, ?_, ?_, h.closed,
      .named rfl rfl jsonStarted jsonClosed paramCount rfl rfl rfl⟩,
      .names (h.index ▸ there) named, ?_⟩
    · rw [State.named, List.map_append, names, Option.toList_some, List.map_append]
      rfl
    · rw [State.named, streamed, Option.toList_some, List.map_append]
      rfl
    · rw [Option.toList_none, List.append_nil, Option.toList_some]
      exact takeDeltas_header h name

/-- The arguments of the current call are lengthened, and it stays the current one. -/
theorem follows_arguments {call : Called} (h : Tracks env s done (some call)) {more : List Char}
    (params : List Parameter) (index : s'.currentToolIndex = s.currentToolIndex)
    (names : s'.prevToolCallArr.map ToolCall.name = s.prevToolCallArr.map ToolCall.name)
    (streamed : s'.streamedArgsForTool = (s.addStreamed more).streamedArgsForTool)
    (stage : Stage env s' (some ⟨call.name, params, call.arguments ++ more⟩))
    (moves : Moves env currentText done (some call) done
      (some ⟨call.name, params, call.arguments ++ more⟩)) :
    Follows env currentText done (some call) (some (argumentsDelta s more)) s' := by
  have taken := takeDeltas_arguments env done call more params
  rw [← h.index] at taken
  refine ⟨done, some ⟨call.name, params, call.arguments ++ more⟩,
    ⟨index.trans h.index, ?_, streamed.trans (h.addStreamed more params), h.closed, stage⟩,
    moves, taken⟩
  rw [names, h.names, Option.toList_some, Option.toList_some, List.map_append, List.map_append]
  rfl

theorem follows_opens (h : Tracks env s done current) (inFunction : s.inFunction = true)
    (unopened : s.jsonStarted = false) :
    Follows env currentText done current (some (argumentsDelta s ['{']))
      ({ s with jsonStarted := true }.addStreamed ['{']) := by
  cases h.stage with
  | waiting _ outside => rw [outside] at inFunction; cases inFunction
  | opened _ _ opened => rw [opened] at unopened; cases unopened
  | closed _ outside => rw [outside] at inFunction; cases inFunction
  | @named call headerSent _ _ jsonClosed paramCount name params arguments =>
    have start : call.arguments ++ ['{'] = ['{'] := by
      rw [arguments, List.nil_append]
    refine follows_arguments h call.params rfl rfl rfl ?_ ?_
    · rw [start]
      refine .opened headerSent inFunction rfl jsonClosed ?_ name ?_
      · rw [params]
        exact paramCount
      · rw [params]
        rfl
    · rw [start]
      exact .opens params

/-- The call whose parameters are being read. -/
theorem Stage.reading (stage : Stage env s current) (inFunction : s.inFunction = true)
    (opened : s.jsonStarted = true) :
    ∃ call, current = some call ∧ s.headerSent = true ∧ s.jsonClosed = false ∧
      s.paramCount = call.params.length ∧ s.currentFunctionName = some call.name ∧
      call.arguments = openArguments env call.params := by
  cases stage with
  | waiting _ outside => rw [outside] at inFunction; cases inFunction
  | named _ _ unopened => rw [unopened] at opened; cases opened
  | closed _ outside => rw [outside] at inFunction; cases inFunction
  | @opened call headerSent _ _ jsonClosed paramCount name arguments =>
    exact ⟨call, rfl, headerSent, jsonClosed, paramCount, name, arguments⟩

theorem follows_adds (h : Tracks env s done current) {toolText : List Char}
    {fragments : List (List Char)} {paramCount : Nat}
    (there : Qwen3Coder.toolText currentText s.currentToolIndex = some toolText)
    (inFunction : s.inFunction = true) (opened : s.jsonStarted = true)
    (read : streamParameters env (s.currentFunctionName.getD []) s.paramCount
      ((behind parameterPrefix toolText).drop s.paramCount) = (fragments, paramCount, none)) :
    Follows env currentText done current (some (argumentsDelta s fragments.flatten))
      ({ s with paramCount }.addStreamed fragments.flatten) := by
  obtain ⟨call, rfl, headerSent, jsonClosed, before, name, arguments⟩ :=
    h.stage.reading inFunction opened
  obtain ⟨more, rfl, rfl, all, -⟩ := streamParameters_spec read
  rw [name, Option.getD_some, before] at all
  have lengthened : call.arguments ++ (fragmentsFrom env s.paramCount more).flatten =
      openArguments env (call.params ++ more) := by
    rw [openArguments_append, ← arguments, before]
  have count : s.paramCount + more.length = (call.params ++ more).length := by
    rw [List.length_append, before]
  exact follows_arguments h (call.params ++ more) rfl rfl rfl
    (.opened headerSent inFunction opened jsonClosed count name lengthened)
    (.adds (h.index ▸ there) all lengthened)

theorem follows_closes (h : Tracks env s done current) {toolText : List Char}
    (there : Qwen3Coder.toolText currentText s.currentToolIndex = some toolText)
    (inFunction : s.inFunction = true) (opened : s.jsonStarted = true)
    (read : streamParameters env (s.currentFunctionName.getD []) s.paramCount
      ((behind parameterPrefix toolText).drop s.paramCount) = ([], s.paramCount, none))
    (ended : find functionEndToken toolText ≠ none) :
    Follows env currentText done current (some (argumentsDelta s ['}']))
      { (s.recorded env toolText).addStreamed ['}'] with
        inFunction := false, jsonClosed := true } := by
  obtain ⟨call, rfl, headerSent, -, paramCount, -, arguments⟩ := h.stage.reading inFunction opened
  obtain ⟨entries, recorded, same⟩ := recorded_fields env s toolText
  obtain ⟨params, -, count, -, stops⟩ := streamParameters_spec read
  have nothing : params.length = 0 := by omega
  have whole : call.arguments ++ ['}'] = closedArguments env call.params := by
    rw [closedArguments, ← arguments]
  have stops' : ∀ next, (behind parameterPrefix toolText)[call.params.length]? = some next →
      readParameter next = none := by
    intro next first
    refine stops next ?_
    rw [nothing, List.getElem?_drop, paramCount]
    exact first
  rw [recorded]
  exact follows_arguments h call.params rfl same rfl
    (.closed headerSent rfl opened rfl whole) (.closes (h.index ▸ there) ended stops' whole)

/-- A call of the parser moves the calls on, and the client can follow. -/
theorem Tracks.step (h : Tracks env s done current) (does : Does env s currentText message s') :
    Follows env currentText done current message s' := by
  cases does with
  | quiet same silent => exact follows_same h same silent
  | advances closed => exact follows_advances h closed
  | names there unsent named => exact follows_names h there unsent named
  | opens inFunction unopened _ => exact follows_opens h inFunction unopened
  | adds there inFunction opened read => exact follows_adds h there inFunction opened read
  | closes there inFunction opened read ended =>
    exact follows_closes h there inFunction opened read ended

theorem tracks_initial (env : Env) : Tracks env .initial [] none :=
  ⟨rfl, rfl, rfl, nofun, .waiting rfl rfl rfl rfl rfl⟩

/-- Whatever the moves of the calls keep, while the text goes on, holds of a run of the
parser; and the client can put the calls together. -/
theorem tracks_ran {choice : StreamToolChoice}
    (Q : List Char → List Called → Option Called → Prop) (start : Q [] [] none)
    (moves : ∀ text more done current done' current', Q text done current →
      Moves env (text ++ more) done current done' current' → Q (text ++ more) done' current')
    {handed : List Handed} {messages : List (Option DeltaMessage)}
    (ran : (toolParser env).Ran choice .initial handed messages s) (linked : Linked handed) :
    (handedText handed = "" → s = .initial) ∧
      ∃ done current, Tracks env s done current ∧
        takeDeltas [] (sentToolCalls messages) =
          some (clientFrom env 0 (done ++ current.toList)) ∧
        Q (handedText handed).toList done current := by
  induction ran with
  | nil => exact ⟨fun _ => rfl, [], none, tracks_initial env, rfl, start⟩
  | @snoc handed messages t t' h message earlier last ih =>
    obtain ⟨untouched, done, current, tracks, taken, holds⟩ := ih linked.init
    have text := linked.currentText
    have adds := (linked.adds h (List.mem_append_right _ List.mem_cons_self)).text
    rw [handedText_snoc] at text
    have previous : h.previousText = handedText handed := by
      have same := congrArg String.toList (adds.trans text)
      rw [String.toList_append, String.toList_append] at same
      exact String.toList_injective (List.append_cancel_right same)
    have resets : (if h.previousText = "" then t.reset else t) = t := by
      split_ifs with nothing
      · rw [untouched (previous.symm.trans nothing)]
        rfl
      · rfl
    have taken' : stream env t h.currentText.toList h.deltaText.toList h.deltaTokenIds =
        (.ok message, t') := by
      have called : extractToolCallsStreaming env t h = (.ok message, t') := last
      rw [extractToolCallsStreaming, resets] at called
      exact called
    obtain ⟨done', current', tracks', moved, sent⟩ := tracks.step (does_stream taken')
    refine ⟨fun nothing => ?_, done', current', tracks', ?_, ?_⟩
    · rw [handedText_snoc] at nothing
      obtain ⟨before, delta⟩ := String.append_eq_empty_iff.mp nothing
      rw [delta] at taken'
      obtain ⟨-, rfl⟩ := Prod.mk.inj taken'
      exact untouched before
    · have split : sentToolCalls (messages ++ [message]) =
          sentToolCalls messages ++ sentToolCalls [message] := List.flatMap_append
      rw [split]
      exact takeDeltas_trans taken sent
    · rw [text, String.toList_append] at moved
      rw [handedText_snoc, String.toList_append]
      exact moves _ _ _ _ _ _ holds moved

end Tracking

section Raising

variable {env : Env} {s s' : State} {e : Raised}

theorem afterNewline_suffix (value : List Char) : afterNewline value <:+ value := by
  unfold afterNewline
  split
  · exact List.suffix_cons _ _
  · exact List.suffix_rfl

/-- A call that is past its name has its entry in `streamed_args_for_tool`. -/
theorem Tracks.inside {done : List Called} {current : Option Called}
    (h : Tracks env s done current) (inFunction : s.inFunction = true) :
    s.currentToolIndex < s.streamedArgsForTool.length := by
  rw [h.index, h.streamed, List.length_map, List.length_append]
  cases h.stage with
  | waiting _ outside => rw [outside] at inFunction; cases inFunction
  | named => exact Nat.lt_succ_self _
  | opened => exact Nat.lt_succ_self _
  | closed => exact Nat.lt_succ_self _

end Raising

end TrajProxy.Parsers.Qwen3Coder
