import TrajProxy.Parsers.Qwen3CoderStream

/-! The format that `Qwen3CoderToolParser` reads: the text of a list of calls, and what
`extract_tool_calls` makes of it. -/

namespace TrajProxy.Parsers.Qwen3Coder
open TrajProxy.Substring

/-- A parameter of a call, with the text before it. -/
structure WrittenParameter where
  gap : List Char
  name : List Char
  value : List Char

def WrittenParameter.text (param : WrittenParameter) : List Char :=
  (param.gap ++ parameterPrefix) ++ ((param.name ++ ['>']) ++ (param.value ++ parameterEndToken))

/-- The value without the newline at its beginning and the one at its end. -/
def WrittenParameter.content (param : WrittenParameter) : List Char :=
  beforeNewline (afterNewline param.value)

/-- A call, with the texts before the function, before its end, and after it, and the text
that follows the call. -/
structure WrittenCall where
  gap : List Char
  name : List Char
  params : List WrittenParameter
  ending : List Char
  closing : List Char
  after : List Char

def WrittenCall.paramsText (call : WrittenCall) : List Char :=
  call.params.flatMap WrittenParameter.text

/-- What is between the tokens of the call, up to the end of the function. -/
def WrittenCall.functionText (call : WrittenCall) : List Char :=
  (call.gap ++ toolCallPrefix) ++
    ((call.name ++ ['>']) ++ (call.paramsText ++ (call.ending ++ functionEndToken)))

def WrittenCall.text (call : WrittenCall) : List Char :=
  toolCallStartToken ++
    ((call.functionText ++ (call.closing ++ toolCallEndToken)) ++ call.after)

def writtenText (content : List Char) (calls : List WrittenCall) : List Char :=
  content ++ calls.flatMap WrittenCall.text

def tags : List (List Char) :=
  [toolCallStartToken, toolCallEndToken, toolCallPrefix, functionEndToken, parameterPrefix,
    parameterEndToken]

/-- A text without the tags of the format. -/
def Clear (piece : List Char) : Prop := ∀ tag ∈ tags, ¬tag <:+: piece

instance (piece : List Char) : Decidable (Clear piece) :=
  decidable_of_iff (tags.all fun tag => find tag piece = none)
    (by simp [Clear, find_eq_none_iff])

/-- A name between `=` and `>`. -/
structure Name (name : List Char) : Prop where
  noOpening : '<' ∉ name
  noClosing : '>' ∉ name

structure WrittenParameter.WellFormed (param : WrittenParameter) : Prop where
  gap : Clear param.gap
  name : Name param.name
  plain : Plain param.name
  value : Clear param.value

structure WrittenCall.WellFormed (call : WrittenCall) : Prop where
  gap : Clear call.gap
  name : Name call.name
  params : ∀ param ∈ call.params, param.WellFormed
  distinct : (call.params.map WrittenParameter.name).Nodup
  ending : Clear call.ending
  closing : Clear call.closing
  after : Clear call.after

section Tags

variable {tag other piece name : List Char}

theorem tag_eq : ∀ tag ∈ tags, tag = '<' :: tag.tail ∧ '<' ∉ tag.tail := by decide

theorem tag_not_begin : ∀ tag ∈ tags, ∀ other ∈ tags, tag ≠ other → ¬tag <+: other := by decide

theorem tag_ne_nil (mem : tag ∈ tags) : tag ≠ [] := by
  rw [(tag_eq tag mem).1]
  exact List.cons_ne_nil _ _

theorem tag_of_mem (mem : tag ∈ tags) : Tag tag := ⟨'<', tag.tail, tag_eq tag mem⟩

theorem skips_piece (mem : tag ∈ tags) (mem' : other ∈ tags) (ne : tag ≠ other)
    (clear : Clear piece) : Skips tag (piece ++ other) := by
  have unlike : Unlike tag other :=
    ⟨⟨'<', tag.tail, other.tail, (tag_eq tag mem).1, (tag_eq other mem').1, (tag_eq tag mem).2,
      (tag_eq other mem').2⟩, tag_not_begin tag mem other mem' ne,
      tag_not_begin other mem' tag mem ne.symm⟩
  exact unlike.skips (clear tag mem)

theorem skips_tag (mem : tag ∈ tags) (mem' : other ∈ tags) (ne : tag ≠ other) :
    Skips tag other := by
  have nothing : Clear [] := fun tag mem occurs => tag_ne_nil mem (List.infix_nil.mp occurs)
  exact skips_piece mem mem' ne nothing

theorem skips_name (mem : tag ∈ tags) (plain : Name name) : Skips tag (name ++ ['>']) := by
  rw [(tag_eq tag mem).1]
  refine skips_of_fresh fun there => ?_
  rcases List.mem_append.mp there with inside | closing
  · exact plain.noOpening inside
  · exact absurd (List.mem_singleton.mp closing) (by decide)

theorem WrittenParameter.WellFormed.skips {param : WrittenParameter} (well : param.WellFormed)
    (mem : tag ∈ tags) (ne : tag ≠ parameterPrefix) (ne' : tag ≠ parameterEndToken) :
    Skips tag param.text :=
  (skips_piece mem (by decide) ne well.gap).append
    ((skips_name mem well.name).append (skips_piece mem (by decide) ne' well.value))

theorem WrittenCall.WellFormed.skips_params {call : WrittenCall} (well : call.WellFormed)
    (mem : tag ∈ tags) (ne : tag ≠ parameterPrefix) (ne' : tag ≠ parameterEndToken) :
    Skips tag call.paramsText := by
  have all := well.params
  unfold WrittenCall.paramsText
  generalize call.params = params at all ⊢
  induction params with
  | nil => exact Skips.nil tag
  | cons param params ih =>
    obtain ⟨here, later⟩ := List.forall_mem_cons.mp all
    rw [List.flatMap_cons]
    exact (here.skips mem ne ne').append (ih later)

theorem cut_tag {head rest : List Char} (skips : Skips tag head) (mem : tag ∈ tags)
    (clear : Clear piece) :
    cut tag (head ++ (piece ++ (tag ++ rest))) = some (head ++ piece, rest) :=
  skips.cut_tag (tag_of_mem mem) (clear tag mem)

theorem cut_closing (plain : Name name) (rest : List Char) :
    cut ['>'] (name ++ (['>'] ++ rest)) = some (name, rest) := by
  have closing : Tag ['>'] := ⟨'>', [], rfl, List.not_mem_nil⟩
  refine closing.cut fun occurs => plain.noClosing ?_
  exact occurs.subset List.mem_cons_self

end Tags

section Extract

variable {env : Env}

/-- The value that a parameter is converted to. -/
def WrittenParameter.json (env : Env) (functionName : List Char) (param : WrittenParameter) :
    Json :=
  ((env.converted functionName param.name param.content).toOption).getD .null

/-- What the call is meant to pass. -/
def WrittenCall.parameters (env : Env) (call : WrittenCall) : List Parameter :=
  call.params.map fun param => (param.name, param.json env call.name)

/-- All values can be converted. -/
def WrittenCall.Converts (env : Env) (call : WrittenCall) : Prop :=
  ∀ param ∈ call.params, ∃ value, env.converted call.name param.name param.content = .ok value

theorem WrittenParameter.converted {param : WrittenParameter} {functionName : List Char}
    (converts : ∃ value, env.converted functionName param.name param.content = .ok value) :
    env.converted functionName param.name param.content = .ok (param.json env functionName) := by
  obtain ⟨value, converted⟩ := converts
  rw [WrittenParameter.json, converted]
  rfl

/-- What is between `<parameter=` and `</parameter>`. -/
def WrittenParameter.group (param : WrittenParameter) : List Char :=
  param.name ++ (['>'] ++ param.value)

theorem WrittenParameter.WellFormed.clear_group {param : WrittenParameter}
    (well : param.WellFormed) : Clear param.group := by
  intro tag mem
  have found := skips_name mem well.name param.value
  rw [find_eq_none_iff.mpr (well.value tag mem), Option.map_none, List.append_assoc] at found
  exact find_eq_none_iff.mp found

theorem not_tag_here {tag piece : List Char} {c : Char} (mem : tag ∈ tags)
    (clear : Clear (c :: piece)) (rest : List Char) :
    ¬tag <+: c :: (piece ++ (parameterEndToken ++ rest)) := by
  have same := (tag_eq tag mem).1
  have inside : ¬ '<' :: tag.tail <:+: c :: piece := by
    rw [← same]
    exact clear tag mem
  have outside :=
    not_prefix_of_clear (tag_eq tag mem).2 inside (parameterEndToken.tail ++ rest)
  rw [← same] at outside
  exact outside

theorem parameterGroup_append {group : List Char} (clear : Clear group) (rest : List Char) :
    parameterGroup (group ++ (parameterEndToken ++ rest)) = (group, rest) := by
  induction group with
  | nil =>
    have ends : parameterEndToken <+: '<' :: (parameterEndToken.tail ++ rest) :=
      List.prefix_append parameterEndToken rest
    change parameterGroup ('<' :: (parameterEndToken.tail ++ rest)) = _
    rw [parameterGroup, if_pos ends]
    rfl
  | cons c group ih =>
    have later : Clear group := fun tag mem occurs => clear tag mem (List.infix_cons occurs)
    have more : c :: (group ++ (parameterEndToken ++ rest)) ≠ ['\n'] := by
      intro same
      have size := congrArg List.length same
      rw [List.length_cons, List.length_append, List.length_append] at size
      change group.length + (12 + rest.length) + 1 = 1 at size
      omega
    have inside : ¬(parameterPrefix <+: c :: (group ++ (parameterEndToken ++ rest)) ∨
        functionEndToken <+: c :: (group ++ (parameterEndToken ++ rest)) ∨
        c :: (group ++ (parameterEndToken ++ rest)) = ['\n']) := by
      rintro (starts | ends | blank)
      · exact not_tag_here (by decide) clear rest starts
      · exact not_tag_here (by decide) clear rest ends
      · exact more blank
    rw [List.cons_append, parameterGroup, if_neg (not_tag_here (by decide) clear rest),
      if_neg inside, ih later]

theorem parameterTextsFrom_written {params : List WrittenParameter}
    (well : ∀ param ∈ params, param.WellFormed) {ending : List Char} (clear : Clear ending)
    {fuel : Nat} (enough : params.length ≤ fuel) :
    parameterTextsFrom fuel (params.flatMap WrittenParameter.text ++ ending) =
      params.map WrittenParameter.group := by
  induction params generalizing fuel with
  | nil =>
    have nothing : cut parameterPrefix ending = none :=
      cut_eq_none_iff.mpr (clear _ (by decide))
    cases fuel with
    | zero => rfl
    | succ fuel =>
      rw [List.flatMap_nil, List.nil_append, parameterTextsFrom, nothing]
      rfl
  | cons param params ih =>
    obtain ⟨here, later⟩ := List.forall_mem_cons.mp well
    obtain ⟨fuel, rfl⟩ : ∃ n, fuel = n + 1 :=
      ⟨fuel - 1, by rw [List.length_cons] at enough; omega⟩
    have text : (param :: params).flatMap WrittenParameter.text ++ ending =
        param.gap ++ (parameterPrefix ++ (param.group ++ (parameterEndToken ++
          (params.flatMap WrittenParameter.text ++ ending)))) := by
      rw [List.flatMap_cons, WrittenParameter.text, WrittenParameter.group]
      simp only [List.append_assoc]
    have found : cut parameterPrefix (param.gap ++ (parameterPrefix ++ (param.group ++
        (parameterEndToken ++ (params.flatMap WrittenParameter.text ++ ending))))) =
          some (param.gap, param.group ++ (parameterEndToken ++
            (params.flatMap WrittenParameter.text ++ ending))) :=
      (tag_of_mem (by decide)).cut (here.gap _ (by decide))
    rw [text, parameterTextsFrom, found]
    dsimp only
    rw [parameterGroup_append here.clear_group,
      ih later (Nat.le_of_succ_le_succ enough), List.map_cons]

theorem length_le_flatMap {α β : Type} {f : α → List β} {l : List α}
    (nonempty : ∀ a ∈ l, f a ≠ []) : l.length ≤ (l.flatMap f).length := by
  induction l with
  | nil => exact Nat.le_refl 0
  | cons a l ih =>
    obtain ⟨here, later⟩ := List.forall_mem_cons.mp nonempty
    have positive := List.length_pos_iff.mpr here
    have rest := ih later
    rw [List.flatMap_cons, List.length_append, List.length_cons]
    omega

theorem addParameter_group {param : WrittenParameter} (well : param.WellFormed)
    {functionName : List Char}
    (converts : ∃ value, env.converted functionName param.name param.content = .ok value)
    (paramDict : Items Json) :
    addParameter env functionName paramDict param.group =
      .ok (paramDict.set (String.ofList param.name) (param.json env functionName)) := by
  have converted := WrittenParameter.converted converts
  rw [WrittenParameter.content] at converted
  rw [addParameter, WrittenParameter.group, cut_closing well.name]
  dsimp only
  rw [converted]
  rfl

/-- The dictionary of the parameters, as their names differ. -/
theorem foldlM_addParameter {params : List WrittenParameter}
    (well : ∀ param ∈ params, param.WellFormed)
    (distinct : (params.map WrittenParameter.name).Nodup) {functionName : List Char}
    (converts : ∀ param ∈ params,
      ∃ value, env.converted functionName param.name param.content = .ok value)
    {paramDict : Items Json}
    (fresh : ∀ param ∈ params, String.ofList param.name ∉ paramDict.map Prod.fst) :
    (params.map WrittenParameter.group).foldlM (addParameter env functionName) paramDict =
      .ok (paramDict ++
        toItems (params.map fun param => (param.name, param.json env functionName))) := by
  induction params generalizing paramDict with
  | nil => 
    rw [List.map_nil, List.map_nil, List.foldlM_nil, toItems, List.map_nil, List.append_nil]
    rfl
  | cons param params ih =>
    obtain ⟨here, later⟩ := List.forall_mem_cons.mp well
    obtain ⟨hereConverts, laterConverts⟩ := List.forall_mem_cons.mp converts
    obtain ⟨hereFresh, laterFresh⟩ := List.forall_mem_cons.mp fresh
    rw [List.map_cons, List.nodup_cons] at distinct
    rw [List.map_cons, List.foldlM_cons,
      bind_of_ok (addParameter_group here hereConverts paramDict),
      Items.set_of_notMem hereFresh, ih later distinct.2 laterConverts ?_]
    · rw [List.append_assoc]
      rfl
    · intro other mem there
      rw [List.map_append, List.mem_append] at there
      rcases there with old | new
      · exact laterFresh other mem old
      · have same : other.name = param.name :=
          String.ofList_injective (List.mem_singleton.mp new)
        exact distinct.1 (List.mem_map.mpr ⟨other, mem, same⟩)

/-- What is between `<function=` and `</function>`. -/
def WrittenCall.function (call : WrittenCall) : List Char :=
  (call.name ++ ['>']) ++ (call.paramsText ++ call.ending)

/-- The call that is extracted. -/
def WrittenCall.toolCall (env : Env) (call : WrittenCall) : ToolCall :=
  ⟨call.name, env.dumps (.obj (toItems (call.parameters env)))⟩

theorem parseXmlFunctionCall_function (sound : ∀ tool ∈ env.tools, tool.Sound)
    {call : WrittenCall} (well : call.WellFormed) (converts : call.Converts env) :
    parseXmlFunctionCall env call.function = .ok (some (call.toolCall env)) := by
  obtain ⟨items, found⟩ := findToolProperties_ok sound call.name
  have split : cut ['>'] call.function = some (call.name, call.paramsText ++ call.ending) := by
    rw [WrittenCall.function, List.append_assoc]
    exact cut_closing well.name _
  have enough : call.params.length ≤ (call.paramsText ++ call.ending).length := by
    rw [List.length_append]
    refine Nat.le_trans (length_le_flatMap fun param _ => ?_) (Nat.le_add_right _ _)
    exact List.append_ne_nil_of_left_ne_nil (List.append_ne_nil_of_right_ne_nil _
      (tag_ne_nil (by decide))) _
  have texts : parameterTexts (call.paramsText ++ call.ending) =
      call.params.map WrittenParameter.group :=
    parameterTextsFrom_written well.params well.ending enough
  rw [parseXmlFunctionCall, split]
  dsimp only
  rw [bind_of_ok found, texts, bind_of_ok
    (foldlM_addParameter well.params well.distinct converts fun _ _ => List.not_mem_nil)]
  rfl

section Functions

variable {call : WrittenCall}

theorem WrittenCall.WellFormed.skips_function (well : call.WellFormed) {tag : List Char}
    (mem : tag ∈ tags)
    (other : tag ∉ [toolCallPrefix, functionEndToken, parameterPrefix, parameterEndToken]) :
    Skips tag call.functionText := by
  simp only [List.mem_cons, List.not_mem_nil, or_false, not_or] at other
  obtain ⟨notFunction, notEnd, notParameter, notParameterEnd⟩ := other
  refine (skips_piece mem (by decide) notFunction well.gap).append ?_
  refine (skips_name mem well.name).append ?_
  refine (well.skips_params mem notParameter notParameterEnd).append ?_
  exact skips_piece mem (by decide) notEnd well.ending

theorem cut_functionEnd (well : call.WellFormed) (rest : List Char) :
    cut functionEndToken ((call.name ++ ['>']) ++
      (call.paramsText ++ (call.ending ++ (functionEndToken ++ rest)))) =
        some (call.function, rest) := by
  have skips : Skips functionEndToken ((call.name ++ ['>']) ++ call.paramsText) :=
    (skips_name (by decide) well.name).append
      (well.skips_params (by decide) (by decide) (by decide))
  have found : cut functionEndToken (((call.name ++ ['>']) ++ call.paramsText) ++
      (call.ending ++ (functionEndToken ++ rest))) =
        some (((call.name ++ ['>']) ++ call.paramsText) ++ call.ending, rest) :=
    cut_tag skips (by decide) well.ending
  rw [List.append_assoc, List.append_assoc (call.name ++ ['>'])] at found
  exact found

theorem functionTexts_written (well : call.WellFormed) :
    functionTexts (call.functionText ++ call.closing) = [call.function] := by
  have text : call.functionText ++ call.closing = call.gap ++ (toolCallPrefix ++
      ((call.name ++ ['>']) ++
        (call.paramsText ++ (call.ending ++ (functionEndToken ++ call.closing))))) := by
    rw [WrittenCall.functionText]
    simp only [List.append_assoc]
  obtain ⟨n, size⟩ : ∃ n, (call.functionText ++ call.closing).length = n + 1 := by
    refine ⟨(call.functionText ++ call.closing).length - 1, ?_⟩
    have long : (call.functionText ++ call.closing).length =
        call.gap.length + (10 + ((call.name ++ ['>']) ++
          (call.paramsText ++ (call.ending ++ (functionEndToken ++ call.closing)))).length) := by
      rw [text, List.length_append, List.length_append]
      rfl
    omega
  have opened : cut toolCallPrefix (call.functionText ++ call.closing) = some (call.gap,
      (call.name ++ ['>']) ++
        (call.paramsText ++ (call.ending ++ (functionEndToken ++ call.closing)))) := by
    rw [text]
    exact (tag_of_mem (by decide)).cut (well.gap _ (by decide))
  have nothing : cut toolCallPrefix call.closing = none :=
    cut_eq_none_iff.mpr (well.closing _ (by decide))
  have last : functionTextsFrom n call.closing = [] := by
    cases n with
    | zero => rfl
    | succ n => rw [functionTextsFrom, nothing]
  rw [functionTexts, size, functionTextsFrom, opened]
  dsimp only
  rw [cut_functionEnd well]
  dsimp only
  rw [last]

theorem toolCallTextsFrom_written {calls : List WrittenCall}
    (well : ∀ call ∈ calls, call.WellFormed) {content : List Char} (clear : Clear content)
    {fuel : Nat} (enough : calls.length ≤ fuel) :
    toolCallTextsFrom fuel (writtenText content calls) =
      calls.map fun call => call.functionText ++ call.closing := by
  induction calls generalizing fuel content with
  | nil =>
    have nothing : cut toolCallStartToken (writtenText content []) = none := by
      rw [writtenText, List.flatMap_nil, List.append_nil]
      exact cut_eq_none_iff.mpr (clear _ (by decide))
    cases fuel with
    | zero => rfl
    | succ fuel =>
      rw [toolCallTextsFrom, nothing]
      rfl
  | cons call calls ih =>
    obtain ⟨here, later⟩ := List.forall_mem_cons.mp well
    obtain ⟨fuel, rfl⟩ : ∃ n, fuel = n + 1 :=
      ⟨fuel - 1, by rw [List.length_cons] at enough; omega⟩
    have text : writtenText content (call :: calls) = content ++ (toolCallStartToken ++
        (call.functionText ++ (call.closing ++ (toolCallEndToken ++
          writtenText call.after calls)))) := by
      rw [writtenText, List.flatMap_cons, WrittenCall.text, writtenText]
      simp only [List.append_assoc]
    have opened : cut toolCallStartToken (writtenText content (call :: calls)) =
        some (content, call.functionText ++ (call.closing ++ (toolCallEndToken ++
          writtenText call.after calls))) := by
      rw [text]
      exact (tag_of_mem (by decide)).cut (clear _ (by decide))
    have ended : cut toolCallEndToken (call.functionText ++ (call.closing ++ (toolCallEndToken ++
        writtenText call.after calls))) =
          some (call.functionText ++ call.closing, writtenText call.after calls) :=
      cut_tag (here.skips_function (by decide) (by decide)) (by decide) here.closing
    rw [toolCallTextsFrom, opened]
    dsimp only
    rw [ended]
    dsimp only
    rw [ih later here.after (Nat.le_of_succ_le_succ enough), List.map_cons]

end Functions

theorem getFunctionCalls_written {call : WrittenCall} {calls : List WrittenCall}
    (well : ∀ other ∈ call :: calls, other.WellFormed) {content : List Char}
    (clear : Clear content) :
    getFunctionCalls (writtenText content (call :: calls)) =
      (call :: calls).map WrittenCall.function := by
  have enough : (call :: calls).length ≤ (writtenText content (call :: calls)).length := by
    rw [writtenText, List.length_append]
    refine Nat.le_trans (length_le_flatMap fun other _ => ?_) (Nat.le_add_left _ _)
    exact List.append_ne_nil_of_left_ne_nil (tag_ne_nil (by decide)) _
  have raw := toolCallTextsFrom_written well clear enough
  have each : ∀ other ∈ call :: calls, functionTexts (other.functionText ++ other.closing) =
      [other.function] := fun other mem => functionTexts_written (well other mem)
  have nonempty : toolCallTextsFrom (writtenText content (call :: calls)).length
      (writtenText content (call :: calls)) ≠ [] := by
    rw [raw]
    exact List.cons_ne_nil _ _
  rw [getFunctionCalls, if_neg nonempty, raw, List.flatMap_map, List.flatMap_congr each,
    List.map_eq_flatMap]

/-- The calls of a text in the format, each with the dictionary of its parameters. -/
theorem extractToolCalls_written (sound : ∀ tool ∈ env.tools, tool.Sound)
    {calls : List WrittenCall} (well : ∀ call ∈ calls, call.WellFormed)
    (converts : ∀ call ∈ calls, call.Converts env) {content : List Char} (clear : Clear content) :
    (extractToolCalls env (writtenText content calls)).toolCalls =
      calls.map (WrittenCall.toolCall env) := by
  cases calls with
  | nil =>
    have nothing : cut toolCallPrefix (writtenText content []) = none := by
      rw [writtenText, List.flatMap_nil, List.append_nil]
      exact cut_eq_none_iff.mpr (clear _ (by decide))
    rw [extractToolCalls, if_pos nothing]
    rfl
  | cons call calls =>
    have there : cut toolCallPrefix (writtenText content (call :: calls)) ≠ none := by
      intro nothing
      refine cut_eq_none_iff.mp nothing ⟨content ++ (toolCallStartToken ++ call.gap),
        (call.name ++ ['>']) ++ (call.paramsText ++ (call.ending ++ (functionEndToken ++
          (call.closing ++ (toolCallEndToken ++ writtenText call.after calls))))), ?_⟩
      simp only [writtenText, List.flatMap_cons, WrittenCall.text, WrittenCall.functionText,
        List.append_assoc]
    have functions := getFunctionCalls_written well clear
    have parsed : ((call :: calls).map WrittenCall.function).mapM (parseXmlFunctionCall env) =
        .ok ((call :: calls).map fun other => some (other.toolCall env)) := by
      rw [List.mapM_map]
      exact mapM_eq_pure fun other mem =>
        parseXmlFunctionCall_function sound (well other mem) (converts other mem)
    have nonempty : getFunctionCalls (writtenText content (call :: calls)) ≠ [] := by
      rw [functions]
      exact List.cons_ne_nil _ _
    rw [extractToolCalls, if_neg there, if_neg nonempty, functions, parsed]
    dsimp only
    change List.filterMap id _ = _
    rw [List.filterMap_map]
    have all : List.filterMap (some ∘ WrittenCall.toolCall env) =
        List.map (WrittenCall.toolCall env) := List.filterMap_eq_map
    exact congrFun all (call :: calls)

end Extract

end TrajProxy.Parsers.Qwen3Coder
