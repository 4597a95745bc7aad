import TrajProxy.Parsers.HermesText
import TrajProxy.Parsers.ToolHandOff

/-! `Hermes2ProToolParser` over a stream: in whatever pieces the text comes, the content
is what stands before the first call, and the calls are those of the regions. -/

namespace TrajProxy.Parsers.Hermes
open HeldBack (Grown regions released)
open Pipeline (DeltaMessage DeltaToolCall)
open TrajProxy.Substring (cut find)

/-- The calls of one stream, each with all of the text so far. -/
def streamCalls (env : Env) : State → List Char → List (List Char) →
    List (Option DeltaMessage) × State
  | s, _, [] => ([], s)
  | s, text, delta :: deltas =>
    let (message, s) := extractToolCallsStreaming env s (text ++ delta)
    let (messages, s) := streamCalls env s (text ++ delta) deltas
    (message :: messages, s)

section Content

variable {env : Env} {s : State} {text delta : List Char}

theorem start_ne_nil : toolCallStartToken ≠ [] := by decide

theorem extractContent_eq (sentContentIdx : Nat) (currentText : List Char) :
    extractContent sentContentIdx currentText =
      if sentContentIdx < (released toolCallStartToken currentText).length then
        (some ((released toolCallStartToken currentText).drop sentContentIdx),
          (released toolCallStartToken currentText).length)
      else (none, sentContentIdx) := by
  unfold extractContent
  cases found : find toolCallStartToken currentText with
  | some index =>
    have bound := Substring.find_add_length_le found
    rw [HeldBack.released_of_find found, List.length_take_of_le (by omega)]
  | none =>
    rw [HeldBack.released_of_none found, List.length_take_of_le (Nat.sub_le _ _)]
    rfl

/-- The content of a call goes on where that of the calls before it ended. -/
theorem extractContent_append (text delta : List Char) :
    (extractContent (released toolCallStartToken text).length (text ++ delta)).2 =
        (released toolCallStartToken (text ++ delta)).length ∧
      released toolCallStartToken text ++
          ((extractContent (released toolCallStartToken text).length (text ++ delta)).1).getD [] =
        released toolCallStartToken (text ++ delta) := by
  obtain ⟨more, grown⟩ := HeldBack.released_append start_ne_nil text delta
  rw [extractContent_eq, ← grown, List.length_append]
  split_ifs with longer
  · exact ⟨rfl, by rw [List.drop_left, Option.getD_some]⟩
  · obtain rfl : more = [] := List.length_eq_zero_iff.mp (by omega)
    exact ⟨rfl, rfl⟩

/-- What a call sends that does not raise. -/
theorem extractToolCallsStreaming_of_ok {toolCallJsons : List (List Char × Bool)}
    {currentText : List Char}
    (read : extractToolCallJsons env.json currentText = .ok toolCallJsons) :
    (extractToolCallsStreaming env s currentText).2 =
        ⟨(extractContent s.sentContentIdx currentText).2,
          (streamToolCalls env 0 toolCallJsons s.entries).2⟩ ∧
      sentContent [(extractToolCallsStreaming env s currentText).1] =
        ((extractContent s.sentContentIdx currentText).1).getD [] ∧
      sentToolCalls [(extractToolCallsStreaming env s currentText).1] =
        (streamToolCalls env 0 toolCallJsons s.entries).1 := by
  unfold extractToolCallsStreaming
  rw [read]
  dsimp only
  generalize extractContent s.sentContentIdx currentText = content
  generalize streamToolCalls env 0 toolCallJsons s.entries = sent
  obtain ⟨content, sentContentIdx⟩ := content
  obtain ⟨toolCallDeltas, entries⟩ := sent
  dsimp only at *
  split_ifs with nothing
  · obtain ⟨rfl, rfl⟩ := nothing
    exact ⟨rfl, rfl, rfl⟩
  · refine ⟨rfl, ?_, ?_⟩
    · cases content with
      | none => rfl
      | some text => simp [sentContent]
    · simp [sentToolCalls]

theorem extractToolCallsStreaming_of_error {message : String} {currentText : List Char}
    (raised : extractToolCallJsons env.json currentText = .error message) :
    extractToolCallsStreaming env s currentText =
      (none, { s with sentContentIdx := (extractContent s.sentContentIdx currentText).2 }) := by
  unfold extractToolCallsStreaming
  rw [raised]

/-- Whether it raises or not, a call counts the content as sent. -/
theorem sentContentIdx_step (env : Env) (delta : List Char)
    (sent : s.sentContentIdx = (released toolCallStartToken text).length) :
    (extractToolCallsStreaming env s (text ++ delta)).2.sentContentIdx =
      (released toolCallStartToken (text ++ delta)).length := by
  have counted := (extractContent_append text delta).1
  rw [← sent] at counted
  cases read : extractToolCallJsons env.json (text ++ delta) with
  | ok toolCallJsons => rw [(extractToolCallsStreaming_of_ok read).1, counted]
  | error message => rw [extractToolCallsStreaming_of_error read, counted]

/-- The call that sees the first tag does not raise; no other call has anything to lose. -/
def Quiet (env : Env) (text : List Char) (deltas : List (List Char)) : Prop :=
  ∀ before delta, before ++ [delta] <+: deltas →
    find toolCallStartToken (text ++ before.flatten) = none →
      ∃ toolCallJsons,
        extractToolCallJsons env.json (text ++ before.flatten ++ delta) = .ok toolCallJsons

theorem Quiet.tail {deltas : List (List Char)} (quiet : Quiet env text (delta :: deltas)) :
    Quiet env (text ++ delta) deltas := by
  intro before next inside clear
  have longer : (delta :: before) ++ [next] <+: delta :: deltas :=
    (List.cons_prefix_cons).mpr ⟨rfl, inside⟩
  have flat : text ++ (delta :: before).flatten = text ++ delta ++ before.flatten := by
    rw [List.flatten_cons, List.append_assoc]
  have read := quiet (delta :: before) next longer
  rw [flat] at read
  exact read clear

theorem sentContent_step {deltas : List (List Char)} (quiet : Quiet env text (delta :: deltas))
    (sent : s.sentContentIdx = (released toolCallStartToken text).length) :
    released toolCallStartToken text ++
        sentContent [(extractToolCallsStreaming env s (text ++ delta)).1] =
      released toolCallStartToken (text ++ delta) := by
  have goesOn := (extractContent_append text delta).2
  rw [← sent] at goesOn
  cases read : extractToolCallJsons env.json (text ++ delta) with
  | ok toolCallJsons => rw [(extractToolCallsStreaming_of_ok read).2.1, goesOn]
  | error message =>
    cases found : find toolCallStartToken text with
    | none =>
      obtain ⟨toolCallJsons, other⟩ := quiet [] delta
        ((List.cons_prefix_cons).mpr ⟨rfl, List.nil_prefix⟩)
        (by rw [List.flatten_nil, List.append_nil, found])
      rw [List.flatten_nil, List.append_nil, read] at other
      nomatch other
    | some index =>
      have bound := Substring.find_add_length_le found
      rw [extractToolCallsStreaming_of_error read, HeldBack.released_of_find found,
        HeldBack.released_of_find (Substring.find_append found delta),
        List.take_append_of_le_length (by omega)]
      exact List.append_nil _

theorem sentContent_run (deltas : List (List Char)) (quiet : Quiet env text deltas)
    (sent : s.sentContentIdx = (released toolCallStartToken text).length) :
    released toolCallStartToken text ++ sentContent (streamCalls env s text deltas).1 =
      released toolCallStartToken (text ++ deltas.flatten) := by
  induction deltas generalizing s text with
  | nil => rw [List.flatten_nil, List.append_nil]; exact List.append_nil _
  | cons delta deltas ih =>
    have rest := ih quiet.tail (sentContentIdx_step env delta sent)
    rw [streamCalls, sentContent_cons, ← List.append_assoc, sentContent_step quiet sent, rest,
      List.flatten_cons, List.append_assoc]

/-- Where `json.loads` raises nothing but its own error, no call raises. -/
theorem quiet_of_loads (loads : ∀ text message, env.json.loads text ≠ .error (.other message))
    (text : List Char) (deltas : List (List Char)) : Quiet env text deltas := by
  intro before delta _ _
  rw [extractToolCallJsons, toolCallJsonsFrom_eq]
  refine mapM_ok_iff.mpr fun region _ => ?_
  have complete : ∃ known, isCompleteJson env.json (stripped region.1) = .ok known := by
    unfold isCompleteJson
    cases found : env.json.loads (stripped region.1) with
    | ok value => exact ⟨true, rfl⟩
    | error raised =>
      cases raised with
      | decodeError => exact ⟨false, rfl⟩
      | other message => exact absurd found (loads _ message)
  obtain ⟨known, complete⟩ := complete
  simp only [readRegion]
  split_ifs
  · exact ⟨_, rfl⟩
  · exact ⟨_, rfl⟩
  · exact ⟨_, bind_of_ok complete⟩

theorem sentContent_streamCalls {deltas : List (List Char)} (quiet : Quiet env [] deltas) :
    sentContent (streamCalls env .initial [] deltas).1 =
      released toolCallStartToken deltas.flatten :=
  sentContent_run deltas quiet rfl

/-- The content of a stream is what is before the first tag; as long as there is none, it
is everything but the longest end that may become one. -/
theorem content_streamCalls (env : Env) (deltas : List (List Char)) (quiet : Quiet env [] deltas) :
    (∀ before after, cut toolCallStartToken deltas.flatten = some (before, after) →
      sentContent (streamCalls env .initial [] deltas).1 = before) ∧
    (cut toolCallStartToken deltas.flatten = none →
      ∃ held, deltas.flatten = sentContent (streamCalls env .initial [] deltas).1 ++ held ∧
        held <+: toolCallStartToken ∧ held ≠ toolCallStartToken ∧
        ∀ ending, ending <:+ deltas.flatten → ending <+: toolCallStartToken →
          ending.length ≤ held.length) := by
  rw [sentContent_streamCalls quiet]
  refine ⟨fun before after found => HeldBack.released_of_cut found, fun clear => ?_⟩
  exact HeldBack.exists_held start_ne_nil (Option.map_eq_none_iff.mp clear)

/-- A `json` that knows no complete text, and ids that count. -/
def partialEnv : Env where
  json := ⟨fun _ => .error .decodeError, fun _ => [], fun _ => .error .decodeError⟩
  makeToolCallId index := "call_" ++ toString index

theorem quiet_partialEnv (deltas : List (List Char)) : Quiet partialEnv [] deltas :=
  quiet_of_loads (fun _ _ same => JsonText.LoadsRaised.noConfusion (Except.error.inj same)) []
    deltas

theorem content_streamCalls_cut :
    sentContent (streamCalls partialEnv .initial [] ["Sure.<tool".toList, "_call> ".toList]).1 =
      "Sure.".toList :=
  (content_streamCalls partialEnv _ (quiet_partialEnv _)).1 _ " ".toList (by decide)

end Content

/-- The arguments of an object that is complete end before its last brace. -/
def Conforms (json : JsonModule) (tcJson : List Char) : Prop :=
  isCompleteJson json tcJson = .ok true ∧ ['}'] <:+ tcJson

/-- What was sent of a call belongs to its text. -/
structure EntryFits (json : JsonModule) (tcJson : List Char) (entry : ToolEntry) : Prop where
  named : ∀ name, entry.name = some name → extractToolName tcJson = some name
  within : entry.streamedArgs <+: argumentsText tcJson
  conforms : Conforms json tcJson → entry.streamedArgs <+: completeArguments tcJson

/-- The entries are those of the first calls; only the last one may wait for its name. -/
inductive Fits (json : JsonModule) : List (List Char) → List ToolEntry → Prop
  | nil (tcJsons : List (List Char)) : Fits json tcJsons []
  | unnamed (tcJson : List Char) (rest : List (List Char)) : Fits json (tcJson :: rest) [.empty]
  | named {tcJson : List Char} {rest : List (List Char)} {entry : ToolEntry}
      {entries : List ToolEntry} (fits : EntryFits json tcJson entry) (named : entry.name ≠ none)
      (later : Fits json rest entries) : Fits json (tcJson :: rest) (entry :: entries)

/-- After a call of the parser all that its text has was sent. -/
inductive Delivered (json : JsonModule) : List (List Char × Bool) → List ToolEntry → Prop
  | nil : Delivered json [] []
  | unnamed {tc : List Char × Bool} (unnamed : extractToolName tc.1 = none)
      (rest : List (List Char × Bool)) : Delivered json (tc :: rest) [.empty]
  | named {tc : List Char × Bool} {rest : List (List Char × Bool)} {entry : ToolEntry}
      {entries : List ToolEntry} (fits : EntryFits json tc.1 entry) (named : entry.name ≠ none)
      (sent : (extractToolArgs tc.1 tc.2).getD [] <+: entry.streamedArgs)
      (later : Delivered json rest entries) : Delivered json (tc :: rest) (entry :: entries)

/-- The calls of a client that took what was sent of the entries. -/
def callsFrom (env : Env) : Nat → List ToolEntry → List StreamedCall
  | _, [] => []
  | index, entry :: entries =>
    match entry.name with
    | none => []
    | some name =>
      ⟨env.makeToolCallId index, String.ofList name, String.ofList entry.streamedArgs⟩ ::
        callsFrom env (index + 1) entries

section Calls

variable {env : Env} {json : JsonModule} {tcJson longer : List Char} {entry : ToolEntry}

theorem entryFits_empty (json : JsonModule) (tcJson : List Char) :
    EntryFits json tcJson .empty where
  named _ none := nomatch none
  within := List.nil_prefix
  conforms _ := List.nil_prefix

theorem EntryFits.grow (fits : EntryFits json tcJson entry) (whole : rstripped tcJson = tcJson)
    (grows : tcJson <+: longer) : EntryFits json longer entry where
  named name known := extractToolName_grows (fits.named name known) grows
  within := fits.within.trans (argumentsText_grows grows)
  conforms conforms := by
    by_cases same : tcJson = longer
    · subst same
      exact fits.conforms conforms
    · exact fits.within.trans (argumentsText_prefix_complete grows same whole conforms.2)

theorem Fits.grow {tcJsons tcJsons' : List (List Char)} {entries : List ToolEntry}
    (fits : Fits json tcJsons entries) (whole : ∀ tcJson ∈ tcJsons, rstripped tcJson = tcJson)
    (grown : Grown (· <+: ·) tcJsons tcJsons') : Fits json tcJsons' entries := by
  induction fits generalizing tcJsons' with
  | nil => exact .nil _
  | unnamed =>
    cases grown with
    | cons => exact .unnamed _ _
  | named fits named _ ih =>
    cases grown with
    | cons head tail =>
      have ⟨here, later⟩ := List.forall_mem_cons.mp whole
      exact .named (fits.grow here head) named (ih later tail)

theorem Delivered.fits {toolCallJsons : List (List Char × Bool)} {entries : List ToolEntry}
    (delivered : Delivered json toolCallJsons entries) :
    Fits json (toolCallJsons.map Prod.fst) entries := by
  induction delivered with
  | nil => exact .nil _
  | unnamed => exact .unnamed _ _
  | named fits named _ _ ih => exact .named fits named ih

/-- What `_compute_args_diff` adds to a call. -/
theorem computeArgsDiff_fits {isComplete : Bool} (fits : EntryFits json tcJson entry)
    (complete : isCompleteJson json tcJson = .ok true → tcJson ≠ [] → isComplete = true) :
    EntryFits json tcJson (computeArgsDiff entry tcJson isComplete).2 ∧
      (computeArgsDiff entry tcJson isComplete).2.name = entry.name ∧
      (extractToolArgs tcJson isComplete).getD [] <+:
        (computeArgsDiff entry tcJson isComplete).2.streamedArgs ∧
      (computeArgsDiff entry tcJson isComplete).2.streamedArgs =
        entry.streamedArgs ++ ((computeArgsDiff entry tcJson isComplete).1).getD [] := by
  have inside := extractToolArgs_begins tcJson isComplete
  unfold computeArgsDiff
  cases found : extractToolArgs tcJson isComplete with
  | none => exact ⟨fits, rfl, List.nil_prefix, (List.append_nil _).symm⟩
  | some args =>
    rw [found, Option.getD_some] at inside
    dsimp only
    split_ifs with short
    · refine ⟨fits, rfl, ?_, (List.append_nil _).symm⟩
      exact List.prefix_of_prefix_length_le inside fits.within short
    · obtain ⟨more, rfl⟩ := List.prefix_of_prefix_length_le fits.within inside (by omega)
      refine ⟨⟨fits.named, inside, fun conforms => ?_⟩, rfl, List.prefix_rfl, ?_⟩
      · have nonempty : tcJson ≠ [] := by
          rintro rfl
          exact absurd conforms.2 (by decide)
        obtain rfl := complete conforms.1 nonempty
        rw [completeArguments, found]
        exact List.prefix_rfl
      · rw [Option.getD_some, List.drop_left]

theorem callsFrom_named {index : Nat} {name : List Char} {entries : List ToolEntry}
    (named : entry.name = some name) :
    callsFrom env index (entry :: entries) =
      ⟨env.makeToolCallId index, String.ofList name, String.ofList entry.streamedArgs⟩ ::
        callsFrom env (index + 1) entries := by
  rw [callsFrom, named]

theorem takeDeltas_name (before : List StreamedCall) (name : List Char) :
    takeDeltas before [nameDelta env before.length name] =
      some (before ++ [⟨env.makeToolCallId before.length, String.ofList name, ""⟩]) := by
  rw [takeDeltas_singleton]
  exact takeDelta_start before _ _ none

theorem takeDeltas_arguments (before after : List StreamedCall) (call : StreamedCall)
    (diff : Option (List Char)) :
    takeDeltas (before ++ call :: after) (diff.map (argumentsDelta before.length)).toList =
      some (before ++ call.extend (String.ofList (diff.getD [])) :: after) := by
  cases diff with
  | none =>
    have same : call.extend (String.ofList []) = call := by
      rw [StreamedCall.extend, String.ofList_nil, String.append_empty]
    rw [Option.getD_none, same]
    rfl
  | some text =>
    rw [Option.map_some, Option.toList_some, takeDeltas_singleton]
    exact takeDelta_arguments before after call (some (String.ofList text))

/-- The name of a call is sent once, before its arguments. -/
theorem streamName_fits (env : Env) (index : Nat) {rest : List (List Char)}
    {entries : List ToolEntry} (fits : Fits json (tcJson :: rest) entries) :
    (streamName env index tcJson (entries.headD .empty) = none ∧ extractToolName tcJson = none ∧
        entries.headD .empty = .empty ∧ entries.tail = []) ∨
      ∃ named entry, streamName env index tcJson (entries.headD .empty) = some (named, entry) ∧
        EntryFits json tcJson entry ∧ entry.name ≠ none ∧ Fits json rest entries.tail ∧
        ∀ before : List StreamedCall, index = before.length →
          takeDeltas (before ++ callsFrom env index entries) named =
            some (before ++ callsFrom env index (entry :: entries.tail)) := by
  have first : streamName env index tcJson .empty =
      (extractToolName tcJson).map fun name =>
        ([nameDelta env index name], { ToolEntry.empty with name := some name }) := rfl
  have starts : ∀ name, extractToolName tcJson = some name →
      EntryFits json tcJson { ToolEntry.empty with name := some name } := fun name found =>
    { entryFits_empty json tcJson with
      named := fun _ same => (Option.some.inj same) ▸ found }
  cases fits with
  | nil =>
    cases found : extractToolName tcJson with
    | none => exact .inl ⟨by rw [List.headD_nil, first, found]; rfl, rfl, rfl, rfl⟩
    | some name =>
      refine .inr ⟨_, _, by rw [List.headD_nil, first, found]; rfl, starts name found, nofun,
        .nil _, ?_⟩
      rintro before rfl
      rw [callsFrom, List.append_nil, takeDeltas_name]
      rfl
  | unnamed =>
    cases found : extractToolName tcJson with
    | none => exact .inl ⟨by rw [List.headD_cons, first, found]; rfl, rfl, rfl, rfl⟩
    | some name =>
      refine .inr ⟨_, _, by rw [List.headD_cons, first, found]; rfl, starts name found, nofun,
        .nil _, ?_⟩
      rintro before rfl
      rw [callsFrom, ToolEntry.empty]
      dsimp only
      rw [List.append_nil, takeDeltas_name]
      rfl
  | named fits named later =>
    rename_i entry entries
    obtain ⟨name, known⟩ := Option.ne_none_iff_exists'.mp named
    refine .inr ⟨[], entry, ?_, fits, named, later, fun before next => rfl⟩
    rw [List.headD_cons, streamName, known]

/-- One call of the parser: the client takes what it sends, and then has all. -/
theorem streamToolCalls_fits (env : Env) (toolCallJsons : List (List Char × Bool))
    (complete : ∀ tc ∈ toolCallJsons,
      isCompleteJson json tc.1 = .ok true → tc.1 ≠ [] → tc.2 = true)
    {entries : List ToolEntry} (fits : Fits json (toolCallJsons.map Prod.fst) entries)
    (index : Nat) :
    Delivered json toolCallJsons (streamToolCalls env index toolCallJsons entries).2 ∧
      ∀ before : List StreamedCall, index = before.length →
        takeDeltas (before ++ callsFrom env index entries)
            (streamToolCalls env index toolCallJsons entries).1 =
          some (before ++
            callsFrom env index (streamToolCalls env index toolCallJsons entries).2) := by
  induction toolCallJsons generalizing entries index with
  | nil =>
    cases fits
    exact ⟨.nil, fun before _ => rfl⟩
  | cons tc rest ih =>
    obtain ⟨tcJson, isComplete⟩ := tc
    have ⟨here, later⟩ := List.forall_mem_cons.mp complete
    rw [streamToolCalls]
    dsimp only
    obtain ⟨waits, unnamed, head, tail⟩ |
        ⟨named, entry, streamed, entryFits, isNamed, restFits, taken⟩ :=
      streamName_fits env index fits
    · rw [waits, head, tail]
      dsimp only
      refine ⟨.unnamed unnamed rest, fun before _ => ?_⟩
      have waiting : callsFrom env index entries = [] := by
        cases fits with
        | nil => rfl
        | unnamed => rfl
        | named _ isNamed _ => exact absurd (congrArg ToolEntry.name head) isNamed
      rw [waiting]
      rfl
    · rw [streamed]
      dsimp only
      obtain ⟨fits', name', delivered, grown⟩ := computeArgsDiff_fits entryFits here
      generalize computeArgsDiff entry tcJson isComplete = computed at fits' name' delivered grown ⊢
      obtain ⟨diff, entry'⟩ := computed
      dsimp only at fits' name' delivered grown ⊢
      obtain ⟨all, takes⟩ := ih later restFits (index + 1)
      obtain ⟨name, known⟩ := Option.ne_none_iff_exists'.mp isNamed
      have known' := name'.trans known
      refine ⟨.named fits' (by rw [name']; exact isNamed) delivered all, ?_⟩
      rintro before rfl
      have lengthened : takeDeltas (before ++ callsFrom env before.length (entry :: entries.tail))
          (diff.map (argumentsDelta before.length)).toList =
            some (before ++ callsFrom env before.length (entry' :: entries.tail)) := by
        rw [callsFrom_named known, callsFrom_named known', takeDeltas_arguments, grown,
          StreamedCall.extend, String.ofList_append]
      have next := takes (before ++ [⟨env.makeToolCallId before.length, String.ofList name,
        String.ofList entry'.streamedArgs⟩]) (by rw [List.length_append, List.length_singleton])
      simp only [List.append_assoc, List.singleton_append] at next
      rw [← callsFrom_named known', ← callsFrom_named known'] at next
      exact takeDeltas_trans (takeDeltas_trans (taken before rfl) lengthened) next

theorem complete_of_ok {text : List Char} {toolCallJsons : List (List Char × Bool)}
    (read : extractToolCallJsons json text = .ok toolCallJsons) :
    ∀ tc ∈ toolCallJsons, isCompleteJson json tc.1 = .ok true → tc.1 ≠ [] → tc.2 = true := by
  have all := readAs_of_ok read
  clear read
  generalize regions toolCallStartToken toolCallEndToken text = found at all
  induction all with
  | nil => exact nofun
  | cons head _ ih => exact List.forall_mem_cons.mpr ⟨head.complete, ih⟩

/-- The client after a call of the parser that does not raise. -/
theorem call_of_ok {s : State} {text : List Char} {toolCallJsons : List (List Char × Bool)}
    (fits : Fits env.json (bodies text) s.entries)
    (read : extractToolCallJsons env.json text = .ok toolCallJsons) :
    Delivered env.json toolCallJsons (extractToolCallsStreaming env s text).2.entries ∧
      takeDeltas (callsFrom env 0 s.entries)
          (sentToolCalls [(extractToolCallsStreaming env s text).1]) =
        some (callsFrom env 0 (extractToolCallsStreaming env s text).2.entries) := by
  obtain ⟨after, -, sent⟩ := extractToolCallsStreaming_of_ok (s := s) read
  rw [← bodies_of_ok read] at fits
  have ⟨delivered, takes⟩ :=
    streamToolCalls_fits env toolCallJsons (complete_of_ok read) fits 0
  rw [after, sent]
  exact ⟨delivered, takes [] rfl⟩

theorem fits_append {text : List Char} {entries : List ToolEntry}
    (fits : Fits json (bodies text) entries) (delta : List Char) :
    Fits json (bodies (text ++ delta)) entries :=
  fits.grow (fun _ => rstripped_of_mem_bodies) (bodies_append text delta)

/-- Any call: the client takes what it sends. -/
theorem call_step {s : State} {text : List Char} (fits : Fits env.json (bodies text) s.entries)
    (delta : List Char) :
    Fits env.json (bodies (text ++ delta))
        (extractToolCallsStreaming env s (text ++ delta)).2.entries ∧
      takeDeltas (callsFrom env 0 s.entries)
          (sentToolCalls [(extractToolCallsStreaming env s (text ++ delta)).1]) =
        some (callsFrom env 0 (extractToolCallsStreaming env s (text ++ delta)).2.entries) := by
  have grown := fits_append fits delta
  cases read : extractToolCallJsons env.json (text ++ delta) with
  | ok toolCallJsons =>
    obtain ⟨delivered, taken⟩ := call_of_ok grown read
    exact ⟨bodies_of_ok read ▸ delivered.fits, taken⟩
  | error message =>
    rw [extractToolCallsStreaming_of_error read]
    exact ⟨grown, rfl⟩

theorem calls_run (env : Env) (deltas : List (List Char)) {s : State} {text : List Char}
    (fits : Fits env.json (bodies text) s.entries) :
    Fits env.json (bodies (text ++ deltas.flatten)) (streamCalls env s text deltas).2.entries ∧
      takeDeltas (callsFrom env 0 s.entries) (sentToolCalls (streamCalls env s text deltas).1) =
        some (callsFrom env 0 (streamCalls env s text deltas).2.entries) := by
  induction deltas generalizing s text with
  | nil =>
    rw [List.flatten_nil, List.append_nil]
    exact ⟨fits, rfl⟩
  | cons delta deltas ih =>
    obtain ⟨next, taken⟩ := call_step fits delta
    obtain ⟨last, rest⟩ := ih next
    rw [streamCalls, sentToolCalls_cons, List.flatten_cons, ← List.append_assoc]
    exact ⟨last, takeDeltas_trans taken rest⟩

theorem streamCalls_snoc (env : Env) (s : State) (text : List Char) (deltas : List (List Char))
    (last : List Char) :
    streamCalls env s text (deltas ++ [last]) =
      let (messages, s) := streamCalls env s text deltas
      let (message, s) := extractToolCallsStreaming env s (text ++ deltas.flatten ++ last)
      (messages ++ [message], s) := by
  induction deltas generalizing s text with
  | nil => rw [List.nil_append, List.flatten_nil, List.append_nil]; rfl
  | cons delta deltas ih =>
    rw [List.cons_append, streamCalls, streamCalls]
    dsimp only
    rw [ih, List.flatten_cons, List.append_assoc text delta]
    rfl

/-- When the last call does not raise, the client has all of the text. -/
theorem delivered_run (deltas : List (List Char)) {toolCallJsons : List (List Char × Bool)}
    (read : extractToolCallJsons env.json deltas.flatten = .ok toolCallJsons) :
    Delivered env.json toolCallJsons (streamCalls env .initial [] deltas).2.entries := by
  induction deltas using List.reverseRecOn with
  | nil =>
    obtain rfl := Except.ok.inj read
    exact .nil
  | append_singleton deltas last _ =>
    have nothing : Fits env.json (bodies []) State.initial.entries := .nil _
    obtain ⟨fits, -⟩ := calls_run env deltas nothing
    rw [List.flatten_append, List.flatten_singleton] at read
    rw [streamCalls_snoc]
    exact (call_of_ok (fits_append fits last) read).1

/-- A call of the client has the name of its region, and of the arguments all that the
region was known to have; of a complete object it has no more. -/
structure CallMatches (json : JsonModule) (tc : List Char × Bool) (call : StreamedCall) :
    Prop where
  name : extractToolName tc.1 = some call.name.toList
  sent : (extractToolArgs tc.1 tc.2).getD [] <+: call.arguments.toList
  within : call.arguments.toList <+: argumentsText tc.1
  conforms : Conforms json tc.1 → call.arguments.toList = completeArguments tc.1

theorem Delivered.callsFrom {toolCallJsons : List (List Char × Bool)} {entries : List ToolEntry}
    (delivered : Delivered env.json toolCallJsons entries)
    (complete : ∀ tc ∈ toolCallJsons,
      isCompleteJson env.json tc.1 = .ok true → tc.1 ≠ [] → tc.2 = true) (index : Nat) :
    List.Forall₂ (CallMatches env.json)
        (toolCallJsons.takeWhile fun tc => (extractToolName tc.1).isSome)
        (callsFrom env index entries) ∧
      (Hermes.callsFrom env index entries).map StreamedCall.id =
        ((List.range (Hermes.callsFrom env index entries).length).map (index + ·)).map
          env.makeToolCallId := by
  induction delivered generalizing index with
  | nil => exact ⟨.nil, rfl⟩
  | unnamed none rest =>
    rw [List.takeWhile_cons_of_neg (by rw [none]; exact nofun)]
    exact ⟨.nil, rfl⟩
  | named fits named sent later ih =>
    rename_i tc rest entry entries
    obtain ⟨here, others⟩ := List.forall_mem_cons.mp complete
    obtain ⟨name, known⟩ := Option.ne_none_iff_exists'.mp named
    have found := fits.named name known
    obtain ⟨matched, ids⟩ := ih others (index + 1)
    rw [callsFrom_named known, List.takeWhile_cons_of_pos (by rw [found]; rfl)]
    refine ⟨.cons ⟨?_, ?_, ?_, fun conforms => ?_⟩ matched, ?_⟩
    · rw [String.toList_ofList, found]
    · rw [String.toList_ofList]
      exact sent
    · rw [String.toList_ofList]
      exact fits.within
    · have nonempty : tc.1 ≠ [] := by
        intro nothing
        have ends := conforms.2
        rw [nothing] at ends
        exact absurd ends (by decide)
      rw [here conforms.1 nonempty] at sent
      rw [String.toList_ofList]
      exact (fits.conforms conforms).eq_of_length_le sent.length_le
    · rw [List.map_cons, ids, List.length_cons, List.range_succ_eq_map]
      simp [Function.comp_def, Nat.add_comm, Nat.add_left_comm]

end Calls

theorem calls_run_initial (env : Env) (deltas : List (List Char)) :
    ∃ calls, takeDeltas [] (sentToolCalls (streamCalls env .initial [] deltas).1) = some calls ∧
      ∀ toolCallJsons, extractToolCallJsons env.json deltas.flatten = .ok toolCallJsons →
        List.Forall₂ (CallMatches env.json)
            (toolCallJsons.takeWhile fun tc => (extractToolName tc.1).isSome) calls ∧
          calls.map StreamedCall.id = (List.range calls.length).map env.makeToolCallId := by
  have nothing : Fits env.json (bodies []) State.initial.entries := .nil _
  obtain ⟨-, taken⟩ := calls_run env deltas nothing
  refine ⟨_, taken, fun toolCallJsons read => ?_⟩
  have ⟨matched, ids⟩ := (delivered_run deltas read).callsFrom (complete_of_ok read) 0
  refine ⟨matched, ids.trans ?_⟩
  simp only [Nat.zero_add, List.map_id']

/-- However the text of a stream is cut, a client can put its deltas together, and gets the
calls of the regions up to the first one without a name, each with its id. -/
theorem calls_streamCalls (env : Env) (deltas : List (List Char)) :
    ∃ calls, takeDeltas [] (sentToolCalls (streamCalls env .initial [] deltas).1) = some calls ∧
      ∀ toolCallJsons, extractToolCallJsons env.json deltas.flatten = .ok toolCallJsons →
        List.Forall₂ (CallMatches env.json)
            (toolCallJsons.takeWhile fun tc => (extractToolName tc.1).isSome) calls ∧
          calls.map StreamedCall.id = (List.range calls.length).map env.makeToolCallId :=
  calls_run_initial env deltas

section ParseDelta

variable {env : Env} {choice : StreamToolChoice} {s s' : State}

/-- A request with this tool parser and no reasoning parser. -/
def plainParser : Parser Unit State where
  reasoningParser := none
  toolParser := some (toolParser partialEnv)
  request := .ok .other

theorem plainParser_delegates : plainParser.Delegates (toolParser partialEnv) .other where
  toolParser := rfl
  request := rfl
  plain := .inr rfl
  silent _ none := nomatch none

end ParseDelta

end TrajProxy.Parsers.Hermes
