import TrajProxy.Parsers.Qwen3CoderArguments
import TrajProxy.Parsers.Qwen3CoderText

/-! The streaming parser of `Qwen3CoderToolParser` against `extract_tool_calls`, on text in
the format: whatever a stream has of the text, its calls are those that are extracted from
the whole, and its arguments begin theirs. -/

namespace TrajProxy.Parsers.Qwen3Coder
open TrajProxy.Substring
open Pipeline (DeltaMessage)

/-- The call with its tokens. -/
def WrittenCall.whole (call : WrittenCall) : List Char :=
  toolCallStartToken ++ (call.functionText ++ (call.closing ++ toolCallEndToken))

section ToolText

variable {calls : List WrittenCall} {call : WrittenCall} {content : List Char}

theorem behind_start_written (well : ∀ call ∈ calls, call.WellFormed) (clear : Clear content)
    {index : Nat} {found : List Char}
    (there : (behind toolCallStartToken (writtenText content calls))[index]? = some found) :
    ∃ call rest, calls[index]? = some call ∧
      found = call.functionText ++ (call.closing ++ (toolCallEndToken ++ rest)) := by
  induction calls generalizing content index with
  | nil =>
    have nothing : cut toolCallStartToken (writtenText content []) = none := by
      rw [writtenText, List.flatMap_nil, List.append_nil]
      exact cut_eq_none_iff.mpr (clear _ (by decide))
    rw [behind_of_none nothing] at there
    cases there
  | cons call calls ih =>
    obtain ⟨here, later⟩ := List.forall_mem_cons.mp well
    have text : writtenText content (call :: calls) = content ++ (toolCallStartToken ++
        (call.functionText ++ (call.closing ++ (toolCallEndToken ++
          writtenText call.after calls)))) := by
      simp only [writtenText, List.flatMap_cons, WrittenCall.text, List.append_assoc]
    have opened : cut toolCallStartToken (content ++ (toolCallStartToken ++
        (call.functionText ++ (call.closing ++ (toolCallEndToken ++
          writtenText call.after calls))))) =
            some (content, call.functionText ++ (call.closing ++ (toolCallEndToken ++
              writtenText call.after calls))) :=
      (tag_of_mem (by decide)).cut (clear _ (by decide))
    rw [text, behind_of_cut (tag_ne_nil (by decide)) opened] at there
    cases index with
    | zero =>
      obtain rfl := Option.some_inj.mp there
      exact ⟨call, _, rfl, rfl⟩
    | succ index =>
      have skips : Skips toolCallStartToken call.functionText :=
        here.skips_function (by decide) (by decide)
      have skips' : Skips toolCallStartToken (call.closing ++ toolCallEndToken) :=
        skips_piece (by decide) (by decide) (by decide) here.closing
      rw [List.getElem?_cons_succ, skips.behind (tag_ne_nil (by decide)), ← List.append_assoc,
        skips'.behind (tag_ne_nil (by decide))] at there
      exact ih later here.after there

/-- What the streaming parser reads of a call is the beginning of the call. -/
theorem toolText_written (well : ∀ call ∈ calls, call.WellFormed) (clear : Clear content)
    {text toolText : List Char} (within : text <+: writtenText content calls) {index : Nat}
    (there : Qwen3Coder.toolText text index = some toolText) :
    ∃ call, calls[index]? = some call ∧ toolText <+: call.whole := by
  obtain ⟨after, found, rfl⟩ := Option.map_eq_some_iff.mp there
  obtain ⟨all, place, grows⟩ := behind_prefix (tag_ne_nil (by decide)) within found
  obtain ⟨call, rest, member, rfl⟩ := behind_start_written well clear place
  refine ⟨call, member, ?_⟩
  have here := well call (List.mem_of_getElem? member)
  have skips : Skips toolCallEndToken (toolCallStartToken ++ call.functionText) :=
    (skips_tag (by decide) (by decide) (by decide)).append
      (here.skips_function (by decide) (by decide))
  have ended : cut toolCallEndToken (toolCallStartToken ++
      (call.functionText ++ (call.closing ++ (toolCallEndToken ++ rest)))) =
        some ((toolCallStartToken ++ call.functionText) ++ call.closing, rest) := by
    rw [← List.append_assoc]
    exact cut_tag skips (by decide) here.closing
  have upTo := through_of_cut ended (tag_ne_nil (by decide))
  have starts : toolCallStartToken ++ after <+: toolCallStartToken ++
      (call.functionText ++ (call.closing ++ (toolCallEndToken ++ rest))) :=
    (List.prefix_append_right_inj _).mpr grows
  have reads : through toolCallEndToken _ <+: through toolCallEndToken _ :=
    through_prefix (tag_ne_nil (by decide)) starts
  rw [upTo, List.append_assoc, List.append_assoc] at reads
  exact reads

/-- The name is read once it is there. -/
theorem functionName_written (well : call.WellFormed) {toolText name : List Char}
    (within : toolText <+: call.whole) (named : functionName toolText = some name) :
    name = call.name := by
  obtain ⟨more, whole⟩ := within
  unfold functionName at named
  obtain ⟨⟨before, after⟩, opened, named⟩ := Option.bind_eq_some_iff.mp named
  obtain ⟨⟨found, rest⟩, closed, named⟩ := Option.bind_eq_some_iff.mp named
  obtain rfl := Option.some_inj.mp named
  have opened' := cut_append opened more
  have closed' := cut_append closed more
  have skips : Skips toolCallPrefix toolCallStartToken :=
    skips_tag (by decide) (by decide) (by decide)
  have text : call.whole = toolCallStartToken ++ (call.gap ++ (toolCallPrefix ++
      (call.name ++ (['>'] ++ (call.paramsText ++ (call.ending ++ (functionEndToken ++
        (call.closing ++ toolCallEndToken)))))))) := by
    simp only [WrittenCall.whole, WrittenCall.functionText, List.append_assoc]
  rw [whole, text, cut_tag skips (by decide) well.gap] at opened'
  obtain ⟨-, same⟩ := Prod.mk.inj (Option.some_inj.mp opened')
  rw [← same, cut_closing well.name] at closed'
  exact (Prod.mk.inj (Option.some_inj.mp closed')).1.symm

end ToolText

section Parameters

variable {call : WrittenCall} {param : WrittenParameter}

/-- What follows the marks of the parameters. -/
def tailsFrom : List WrittenParameter → List Char → List (List Char)
  | [], _ => []
  | param :: params, rest =>
    (param.name ++ (['>'] ++ (param.value ++ (parameterEndToken ++
      (params.flatMap WrittenParameter.text ++ rest))))) :: tailsFrom params rest

theorem behind_params {params : List WrittenParameter}
    (well : ∀ param ∈ params, param.WellFormed) (rest : List Char) :
    behind parameterPrefix (params.flatMap WrittenParameter.text ++ rest) =
      tailsFrom params rest ++ behind parameterPrefix rest := by
  induction params with
  | nil => rfl
  | cons param params ih =>
    obtain ⟨here, later⟩ := List.forall_mem_cons.mp well
    have text : (param :: params).flatMap WrittenParameter.text ++ rest =
        param.gap ++ (parameterPrefix ++ (param.name ++ (['>'] ++ (param.value ++
          (parameterEndToken ++ (params.flatMap WrittenParameter.text ++ rest)))))) := by
      simp only [List.flatMap_cons, WrittenParameter.text, List.append_assoc]
    have opened : cut parameterPrefix (param.gap ++ (parameterPrefix ++ (param.name ++ (['>'] ++
        (param.value ++ (parameterEndToken ++
          (params.flatMap WrittenParameter.text ++ rest))))))) = some (param.gap, _) :=
      (tag_of_mem (by decide)).cut (here.gap _ (by decide))
    have skips : Skips parameterPrefix
        ((param.name ++ ['>']) ++ (param.value ++ parameterEndToken)) :=
      (skips_name (by decide) here.name).append
        (skips_piece (by decide) (by decide) (by decide) here.value)
    have behindValue := skips.behind (tag_ne_nil (by decide))
      (params.flatMap WrittenParameter.text ++ rest)
    simp only [List.append_assoc] at behindValue
    rw [text, behind_of_cut (tag_ne_nil (by decide)) opened, behindValue, ih later]
    rfl

theorem getElem?_tailsFrom {params : List WrittenParameter} {rest found : List Char}
    {index : Nat} (there : (tailsFrom params rest)[index]? = some found) :
    ∃ param more, params[index]? = some param ∧
      found = param.name ++ (['>'] ++ (param.value ++ (parameterEndToken ++ more))) := by
  induction params generalizing index with
  | nil => cases there
  | cons param params ih =>
    cases index with
    | zero =>
      obtain rfl := Option.some_inj.mp there
      exact ⟨param, _, rfl, rfl⟩
    | succ index => exact ih there

theorem length_tailsFrom (params : List WrittenParameter) (rest : List Char) :
    (tailsFrom params rest).length = params.length := by
  induction params with
  | nil => rfl
  | cons param params ih => rw [tailsFrom, List.length_cons, ih, List.length_cons]

/-- The text of a call up to its parameters. -/
def WrittenCall.heading (call : WrittenCall) : List Char :=
  toolCallStartToken ++ ((call.gap ++ toolCallPrefix) ++ (call.name ++ ['>']))

theorem WrittenCall.WellFormed.skips_heading (well : call.WellFormed) {tag : List Char}
    (mem : tag ∈ tags) (ne : tag ≠ toolCallStartToken) (ne' : tag ≠ toolCallPrefix) :
    Skips tag call.heading :=
  (skips_tag mem (by decide) ne).append
    ((skips_piece mem (by decide) ne' well.gap).append (skips_name mem well.name))

theorem WrittenCall.whole_eq (call : WrittenCall) :
    call.whole = call.heading ++ (call.paramsText ++ (call.ending ++
      (functionEndToken ++ (call.closing ++ toolCallEndToken)))) := by
  simp only [WrittenCall.whole, WrittenCall.heading, WrittenCall.functionText, List.append_assoc]

/-- A parameter that is looked for in a part of a call is one that was written. -/
theorem behind_parameter_written (well : call.WellFormed) {toolText : List Char}
    (within : toolText <+: call.whole) {index : Nat} {remaining : List Char}
    (there : (behind parameterPrefix toolText)[index]? = some remaining) :
    ∃ param more, call.params[index]? = some param ∧
      remaining <+: param.name ++ (['>'] ++ (param.value ++ (parameterEndToken ++ more))) := by
  obtain ⟨all, place, grows⟩ := behind_prefix (tag_ne_nil (by decide)) within there
  have skips : Skips parameterPrefix call.heading :=
    well.skips_heading (by decide) (by decide) (by decide)
  have ending : Skips parameterPrefix
      ((call.ending ++ functionEndToken) ++ (call.closing ++ toolCallEndToken)) :=
    (skips_piece (by decide) (by decide) (by decide) well.ending).append
      (skips_piece (by decide) (by decide) (by decide) well.closing)
  have nothing := ending.behind (tag_ne_nil (by decide)) []
  rw [List.append_nil, List.append_assoc] at nothing
  rw [call.whole_eq, skips.behind (tag_ne_nil (by decide)), WrittenCall.paramsText,
    behind_params well.params, nothing] at place
  have last : behind parameterPrefix [] = [] := rfl
  rw [last, List.append_nil] at place
  obtain ⟨param, more, member, rfl⟩ := getElem?_tailsFrom place
  exact ⟨param, more, member, grows⟩

theorem afterNewline_cons {c : Char} (other : c ≠ '\n') (value : List Char) :
    afterNewline (c :: value) = c :: value := by
  unfold afterNewline
  split
  · next same => exact absurd (List.cons.inj same).1 other
  · rfl

theorem afterNewline_append (value rest : List Char) :
    afterNewline (value ++ (parameterEndToken ++ rest)) =
      afterNewline value ++ (parameterEndToken ++ rest) := by
  cases value with
  | nil => rfl
  | cons c value =>
    by_cases newline : c = '\n'
    · subst newline
      rfl
    · rw [List.cons_append, afterNewline_cons newline, afterNewline_cons newline,
        List.cons_append]

theorem afterNewline_grows {value longer : List Char} (grows : value <+: longer) :
    afterNewline value <+: afterNewline longer := by
  obtain ⟨rest, rfl⟩ := grows
  cases value with
  | nil => exact List.nil_prefix
  | cons c value =>
    by_cases newline : c = '\n'
    · subst newline
      exact List.prefix_append value rest
    · rw [List.cons_append, afterNewline_cons newline, afterNewline_cons newline,
        ← List.cons_append]
      exact List.prefix_append (c :: value) rest

/-- The end of a value is the tag behind it, and not found before that has come. -/
theorem paramEndIdx_written {value valueText rest : List Char} (clear : Clear value)
    (within : valueText <+: value ++ (parameterEndToken ++ rest)) {stop : Nat}
    (ends : paramEndIdx valueText = some stop) : valueText.take stop = value := by
  have behindValue : cut parameterEndToken (value ++ (parameterEndToken ++ rest)) =
      some (value, rest) := (tag_of_mem (by decide)).cut (clear _ (by decide))
  unfold paramEndIdx at ends
  cases found : find parameterEndToken valueText with
  | some index =>
    simp only [found, Option.some_inj] at ends
    subst ends
    obtain ⟨more, whole⟩ := within
    have here : cut parameterEndToken valueText =
        some (valueText.take index, valueText.drop (index + parameterEndToken.length)) := by
      rw [cut, found]
      rfl
    have there := cut_append here more
    rw [whole, behindValue] at there
    exact (Prod.mk.inj (Option.some_inj.mp there)).1.symm
  | none =>
    -- the tag has not come, so there is no other one either
    have unfinished : valueText <+: value ++ parameterEndToken := by
      have whole : value ++ parameterEndToken <+: value ++ (parameterEndToken ++ rest) := by
        rw [← List.append_assoc]
        exact List.prefix_append _ rest
      rcases List.prefix_or_prefix_of_prefix within whole with short | long
      · exact short
      · have occurs := (List.suffix_append value parameterEndToken).isInfix.trans long.isInfix
        exact absurd occurs (find_eq_none_iff.mp found)
    have nowhere : ∀ tag ∈ tags, tag ≠ parameterEndToken → find tag valueText = none := by
      intro tag mem ne
      have skips := skips_piece mem (by decide) ne clear []
      rw [List.append_nil, find, if_neg (tag_ne_nil mem), Option.map_none] at skips
      refine find_eq_none_iff.mpr fun occurs => ?_
      exact find_eq_none_iff.mp skips (occurs.trans unfinished.isInfix)
    rw [found, nowhere parameterPrefix (by decide) (by decide),
      nowhere functionEndToken (by decide) (by decide)] at ends
    dsimp only at ends
    rw [nowhere toolCallEndToken (by decide) (by decide)] at ends
    cases ends

theorem Clear.afterNewline {value : List Char} (clear : Clear value) :
    Clear (afterNewline value) := fun tag mem occurs =>
  clear tag mem (occurs.trans (afterNewline_suffix value).isInfix)

/-- A parameter is read once it is complete, as it was written. -/
theorem readParameter_written (well : param.WellFormed) {remaining more : List Char}
    (within : remaining <+:
      param.name ++ (['>'] ++ (param.value ++ (parameterEndToken ++ more))))
    {paramName paramValue : List Char}
    (read : readParameter remaining = some (paramName, paramValue)) :
    paramName = param.name ∧ paramValue = param.content := by
  unfold readParameter at read
  obtain ⟨⟨name, valueText⟩, split, read⟩ := Option.bind_eq_some_iff.mp read
  obtain ⟨stop, ends, read⟩ := Option.bind_eq_some_iff.mp read
  obtain ⟨rfl, rfl⟩ := Prod.mk.inj (Option.some_inj.mp read)
  obtain ⟨rest, whole⟩ := within
  have split' := cut_append split rest
  rw [whole, cut_closing well.name] at split'
  obtain ⟨rfl, same⟩ := Prod.mk.inj (Option.some_inj.mp split')
  have grows := afterNewline_grows (List.prefix_append valueText rest)
  rw [← same, afterNewline_append] at grows
  have value := paramEndIdx_written well.value.afterNewline grows ends
  refine ⟨rfl, ?_⟩
  rw [value, WrittenParameter.content]

theorem readParameter_complete (well : param.WellFormed) (more : List Char) :
    readParameter (param.name ++ (['>'] ++ (param.value ++ (parameterEndToken ++ more)))) ≠
      none := by
  have found : find parameterEndToken (afterNewline param.value ++ (parameterEndToken ++ more)) =
      some (afterNewline param.value).length :=
    (tag_of_mem (by decide)).find (well.value.afterNewline _ (by decide))
  unfold readParameter
  rw [cut_closing well.name]
  dsimp only [Option.bind_eq_bind, Option.bind_some]
  rw [afterNewline_append, paramEndIdx, found]
  exact Option.some_ne_none _

/-- Where the function has ended, all its parameters are complete. -/
theorem parameters_complete (well : call.WellFormed) {toolText : List Char}
    (within : toolText <+: call.whole) (ended : find functionEndToken toolText ≠ none) {index : Nat}
    (inside : index < call.params.length) :
    ∃ next, (behind parameterPrefix toolText)[index]? = some next ∧ readParameter next ≠ none := by
  obtain ⟨more, whole⟩ := within
  obtain ⟨⟨before, after⟩, split⟩ : ∃ parts, cut functionEndToken toolText = some parts := by
    refine Option.ne_none_iff_exists'.mp fun nothing => ended ?_
    exact find_eq_none_iff.mpr (cut_eq_none_iff.mp nothing)
  have headingSkips : Skips functionEndToken (call.heading ++ call.paramsText) :=
    (well.skips_heading (by decide) (by decide) (by decide)).append
      (well.skips_params (by decide) (by decide) (by decide))
  have written : cut functionEndToken call.whole = some
      ((call.heading ++ call.paramsText) ++ call.ending, call.closing ++ toolCallEndToken) := by
    rw [call.whole_eq, ← List.append_assoc]
    exact cut_tag headingSkips (by decide) well.ending
  have split' := cut_append split more
  rw [whole, written] at split'
  obtain ⟨rfl, -⟩ := Prod.mk.inj (Option.some_inj.mp split')
  have text := append_of_cut (tag_ne_nil (by decide)) split
  have skips : Skips parameterPrefix call.heading :=
    well.skips_heading (by decide) (by decide) (by decide)
  rw [text, List.append_assoc, List.append_assoc, skips.behind (tag_ne_nil (by decide)),
    WrittenCall.paramsText, behind_params well.params]
  have there : index <
      (tailsFrom call.params (call.ending ++ (functionEndToken ++ after))).length := by
    rw [length_tailsFrom]
    exact inside
  obtain ⟨param, rest, member, tail⟩ := getElem?_tailsFrom (List.getElem?_eq_getElem there)
  refine ⟨_, (List.getElem?_append_left there).trans (List.getElem?_eq_getElem there), ?_⟩
  rw [tail]
  exact readParameter_complete (well.params param (List.mem_of_getElem? member)) rest

end Parameters

section Agreement

variable {env : Env} {calls : List WrittenCall} {content : List Char}

/-- A streamed call has the name of a written one and its first parameters, and all of them
when its arguments are complete. -/
structure Called.Begins (env : Env) (call : Called) (written : WrittenCall) : Prop where
  name : call.name = written.name
  params : call.params <+: written.parameters env
  complete : call.arguments = closedArguments env call.params →
    call.params = written.parameters env

/-- The streamed calls are the first of those that were written. -/
def Agree (env : Env) (calls : List WrittenCall) (streamed : List Called) : Prop :=
  ∀ (index : Nat) (call : Called), streamed[index]? = some call →
    ∃ written, calls[index]? = some written ∧ call.Begins env written

theorem agree_snoc {done : List Called} {call : Called} (agree : Agree env calls done)
    (last : ∃ written, calls[done.length]? = some written ∧ call.Begins env written) :
    Agree env calls (done ++ [call]) := by
  intro index other there
  rcases Nat.lt_trichotomy index done.length with before | here | beyond
  · rw [List.getElem?_append_left before] at there
    exact agree index other there
  · subst here
    rw [List.getElem?_concat_length] at there
    obtain rfl := Option.some_inj.mp there
    exact last
  · have outside : (done ++ [call]).length ≤ index := by
      rw [List.length_append, List.length_singleton]
      omega
    rw [List.getElem?_eq_none outside] at there
    cases there

theorem Agree.init {done : List Called} {call : Called} (agree : Agree env calls (done ++ [call])) :
    Agree env calls done := by
  intro index other there
  have inside := (List.getElem?_eq_some_iff.mp there).1
  exact agree index other ((List.getElem?_append_left inside).trans there)

theorem Agree.last {done : List Called} {call : Called} (agree : Agree env calls (done ++ [call])) :
    ∃ written, calls[done.length]? = some written ∧ call.Begins env written :=
  agree done.length call List.getElem?_concat_length

/-- The parameters that are read next are those that were written next. -/
theorem parameters_written {written : WrittenCall} (well : written.WellFormed)
    {toolText : List Char} (within : toolText <+: written.whole) {params more : List Parameter}
    (known : params <+: written.parameters env)
    (read : List.Forall₂ (ReadFrom env written.name)
      (((behind parameterPrefix toolText).drop params.length).take more.length) more) :
    params ++ more <+: written.parameters env := by
  refine List.prefix_iff_getElem?.mpr fun index inside => ?_
  by_cases before : index < params.length
  · rw [List.getElem_append_left before]
    exact List.prefix_iff_getElem?.mp known index before
  · rw [List.length_append] at inside
    have size := read.length_eq
    have place : index - params.length < more.length := by omega
    have first : params.length + (index - params.length) <
        (behind parameterPrefix toolText).length := by
      rw [List.length_take, List.length_drop] at size
      omega
    obtain ⟨paramValue, complete, converts⟩ := (read.get (by omega) place).value
    rw [List.get_eq_getElem, List.getElem_take, List.getElem_drop] at complete
    rw [List.get_eq_getElem] at complete converts
    obtain ⟨param, rest, member, grows⟩ :=
      behind_parameter_written well within (List.getElem?_eq_getElem first)
    rw [Nat.add_sub_cancel' (Nat.le_of_not_lt before)] at member
    obtain ⟨name, content⟩ :=
      readParameter_written (well.params param (List.mem_of_getElem? member)) grows complete
    rw [name, content] at converts
    rw [List.getElem_append_right (Nat.le_of_not_lt before), WrittenCall.parameters,
      List.getElem?_map, member, Option.map_some, WrittenParameter.json, converts, ← name]
    rfl

theorem agree_moves (well : ∀ call ∈ calls, call.WellFormed) (clear : Clear content)
    {text : List Char} (within : text <+: writtenText content calls)
    {done done' : List Called} {current current' : Option Called}
    (agree : Agree env calls (done ++ current.toList))
    (moved : Moves env text done current done' current') :
    Agree env calls (done' ++ current'.toList) := by
  cases moved with
  | same => exact agree
  | advances closed =>
    rw [Option.toList_none, List.append_nil]
    exact agree
  | names there named =>
    rw [Option.toList_none, List.append_nil] at agree
    obtain ⟨written, member, part⟩ := toolText_written well clear within there
    have here := well written (List.mem_of_getElem? member)
    refine agree_snoc agree ⟨written, member, functionName_written here part named,
      List.nil_prefix, fun closed => ?_⟩
    exact absurd closed (List.cons_ne_nil _ _).symm
  | opens params =>
    obtain ⟨written, member, begins⟩ := agree.last
    refine agree_snoc agree.init ⟨written, member, begins.name, begins.params, fun closed => ?_⟩
    dsimp only at closed
    rw [params] at closed
    cases closed
  | @adds toolText call more arguments there read opened =>
    obtain ⟨written, member, begins⟩ := agree.last
    obtain ⟨written', member', part⟩ := toolText_written well clear within there
    obtain rfl := Option.some_inj.mp (member.symm.trans member')
    have here := well written (List.mem_of_getElem? member)
    rw [begins.name] at read
    refine agree_snoc agree.init ⟨written, member, begins.name,
      parameters_written here part begins.params read, fun closed => ?_⟩
    rw [opened, closedArguments] at closed
    exact absurd closed.symm (by simp)
  | @closes toolText call arguments there ended stops closed =>
    obtain ⟨written, member, begins⟩ := agree.last
    obtain ⟨written', member', part⟩ := toolText_written well clear within there
    obtain rfl := Option.some_inj.mp (member.symm.trans member')
    have here := well written (List.mem_of_getElem? member)
    refine agree_snoc agree.init ⟨written, member, begins.name, begins.params, fun _ => ?_⟩
    refine begins.params.eq_of_length_le (Nat.le_of_not_lt fun missing => ?_)
    rw [WrittenCall.parameters, List.length_map] at missing
    obtain ⟨next, found, complete⟩ := parameters_complete here part ended missing
    exact complete (stops next found)

/-- The arguments that a client has of a call begin those that are extracted. -/
theorem Called.Begins.arguments {call : Called} {written : WrittenCall}
    (begins : call.Begins env written) (well : written.WellFormed)
    (sent : call.arguments = [] ∨ call.arguments = openArguments env call.params ∨
      call.arguments = closedArguments env call.params) :
    call.arguments <+: (written.toolCall env).arguments ∧
      (call.arguments = closedArguments env call.params →
        call.arguments = (written.toolCall env).arguments) := by
  have plain : ∀ param ∈ written.parameters env, Plain param.1 := by
    intro param mem
    obtain ⟨origin, member, rfl⟩ := List.mem_map.mp mem
    exact (well.params origin member).plain
  have whole := closedArguments_eq_dumps env plain
  have complete : call.arguments = closedArguments env call.params →
      call.arguments = (written.toolCall env).arguments := by
    intro closed
    rw [WrittenCall.toolCall, ← whole, closed, begins.complete closed]
  refine ⟨?_, complete⟩
  rcases sent with nothing | opened | closed
  · rw [nothing]
    exact List.nil_prefix
  · obtain ⟨more, same⟩ := begins.params
    rw [opened, WrittenCall.toolCall, ← whole, closedArguments, ← same, openArguments_append,
      List.append_assoc]
    exact List.prefix_append _ _
  · rw [complete closed]

/-- Of a text in the format a client has the calls that are extracted from the whole, with the
arguments of the last one as far as they have come. -/
theorem calls_agree {ρ : Type} {P : Parser ρ State} {choice : StreamToolChoice}
    (delegates : P.Delegates (toolParser env) choice) (sound : ∀ tool ∈ env.tools, tool.Sound)
    (well : ∀ call ∈ calls, call.WellFormed) (converts : ∀ call ∈ calls, call.Converts env)
    (clear : Clear content) (reasoning : ρ) (promptTokenIds : Option (List Int))
    (deltas : List (String × List Int)) {messages : List (Option DeltaMessage)}
    {last : ParserState ρ State}
    (returns : (P.parseDeltas promptTokenIds deltas).run (.initial reasoning .initial) =
      (.ok messages, last))
    (within : (P.textAfterReasoning (.initial reasoning .initial) promptTokenIds deltas).toList <+:
      writtenText content calls) :
    ∃ toolCalls, takeDeltas [] (sentToolCalls messages) = some toolCalls ∧
      ∀ (index : Nat) (call : StreamedCall), toolCalls[index]? = some call →
        ∃ extracted, (extractToolCalls env (writtenText content calls)).toolCalls[index]? =
            some extracted ∧
          call.name.toList = extracted.name ∧ call.arguments.toList <+: extracted.arguments ∧
          (index + 1 < toolCalls.length → call.arguments.toList = extracted.arguments) := by
  have start : [] <+: writtenText content calls →
      Agree env calls (([] : List Called) ++ Option.toList none) := fun _ => nofun
  obtain ⟨done, current, tracks, taken, agree⟩ :=
    tracks_parseDeltas delegates reasoning promptTokenIds deltas returns
      (fun text done current => text <+: writtenText content calls →
        Agree env calls (done ++ current.toList)) start
      fun text more done current done' current' agree moved within =>
        agree_moves well clear within (agree ((List.prefix_append text more).trans within)) moved
  refine ⟨_, taken, fun index call there => ?_⟩
  obtain ⟨called, member, rfl⟩ := getElem?_clientFrom there
  obtain ⟨written, place, begins⟩ := agree within index called member
  have sent := tracks.arguments (List.mem_of_getElem? member)
  obtain ⟨begin, complete⟩ :=
    begins.arguments (well written (List.mem_of_getElem? place)) sent
  refine ⟨written.toolCall env, ?_, ?_, ?_, fun before => ?_⟩
  · rw [extractToolCalls_written sound well converts clear, List.getElem?_map, place,
      Option.map_some]
  · rw [String.toList_ofList]
    exact begins.name
  · rw [String.toList_ofList]
    exact begin
  · rw [length_clientFrom, List.length_append] at before
    have short : current.toList.length ≤ 1 := by cases current <;> simp
    have earlier : index < done.length := by omega
    rw [List.getElem?_append_left earlier] at member
    rw [String.toList_ofList]
    exact complete (tracks.closed called (List.mem_of_getElem? member))

/-- A call with one parameter, a line for each tag. -/
def scaleCall : WrittenCall :=
  ⟨['\n'], "scale".toList, [⟨['\n'], "unit".toList, "km".toList⟩], ['\n'], ['\n'], []⟩

def scaleDeltas : List (String × List Int) :=
  [("<tool_call>", [1]), ("\n<function=scale>", []), ("\n<parameter=unit>", []),
    ("km</parameter>", []), ("\n</function>\n", []), ("</tool_call>", [2])]

theorem scaleCall_wellFormed : scaleCall.WellFormed where
  gap := by decide +kernel
  name := ⟨by decide, by decide⟩
  params := List.forall_mem_singleton.mpr
    { gap := by decide +kernel
      name := ⟨by decide, by decide⟩
      plain := by decide +kernel
      value := by decide +kernel }
  distinct := List.nodup_singleton _
  ending := by decide +kernel
  closing := by decide +kernel
  after := by decide +kernel

theorem calls_agree_scale :
    ∃ messages last,
      ((plainParser scaleEnv).parseDeltas (some []) scaleDeltas).run (.initial () .initial) =
        (.ok messages, last) ∧
      ∃ toolCalls, takeDeltas [] (sentToolCalls messages) = some toolCalls ∧
        ∀ (index : Nat) (call : StreamedCall), toolCalls[index]? = some call →
          ∃ extracted,
            (extractToolCalls scaleEnv (writtenText [] [scaleCall])).toolCalls[index]? =
              some extracted ∧
            call.name.toList = extracted.name ∧ call.arguments.toList <+: extracted.arguments ∧
            (index + 1 < toolCalls.length → call.arguments.toList = extracted.arguments) := by
  have returns : (((plainParser scaleEnv).parseDeltas (some []) scaleDeltas).run
      (.initial () .initial)).1.isOk = true := by decide +kernel
  have sound : ∀ tool ∈ scaleEnv.tools, tool.Sound := by
    intro tool mem
    obtain rfl := List.mem_singleton.mp mem
    intro properties found
    exact ⟨_, (Option.some_inj.mp found).symm⟩
  have converts : scaleCall.Converts scaleEnv :=
    List.forall_mem_singleton.mpr ⟨.str "km", by rfl⟩
  have within : ((plainParser scaleEnv).textAfterReasoning (.initial () .initial) (some [])
      scaleDeltas).toList = writtenText [] [scaleCall] := by decide +kernel
  have nothing : Clear [] := by decide +kernel
  obtain ⟨messages, last, ran⟩ := exists_of_isOk returns
  obtain ⟨toolCalls, taken, agree⟩ := calls_agree (plainParser_delegates scaleEnv) sound
    (List.forall_mem_singleton.mpr scaleCall_wellFormed)
    (List.forall_mem_singleton.mpr converts) nothing () (some []) _ ran
    (within ▸ List.prefix_rfl)
  exact ⟨messages, last, ran, toolCalls, taken, agree⟩

end Agreement

end TrajProxy.Parsers.Qwen3Coder
