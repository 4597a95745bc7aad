import TrajProxy.Cache.PrefixMatch

/-! A row is sound when its token ids decode to its text. From sound rows every
prompt is encoded soundly, and a request keeps the rows sound exactly if its
response has ids, as `KeepsIds` says. -/

namespace TrajProxy.Cache
open Pipeline Text Transition

variable {π : Type} {tok : Tokenizer}

def Row.Sound (tok : Tokenizer) (row : Row) : Prop :=
  ∀ text, row.fullConversationText = some text → text ≠ "" →
    tok.decode (row.fullConversationTokenIds.getD []) = text

def RowsSound (tok : Tokenizer) (sessionId : Option String) (rows : List Row) : Prop :=
  ∀ row ∈ rows, row.sessionId = sessionId.getD "" → row.Sound tok

theorem Faithful.decode_nil (h : Faithful tok) : tok.decode [] = "" := by
  have twice := h.decode_append [] []
  rw [List.append_nil] at twice
  have length := congrArg String.length twice
  rw [String.length_append] at length
  exact String.length_eq_zero_iff.mp (by omega)

theorem encodeUncached_sound (h : Faithful tok) (text : String) :
    (encodeUncached tok text).Sound tok text where
  decodes := h.decode_encode text
  split := rfl
  hits := rfl

theorem findLongestPrefixMatch_eq_some {text : String} {history : List Row} {row : Row}
    (h : findLongestPrefixMatch text history = some row) :
    row ∈ history ∧ ∃ cachedText, row.fullConversationText = some cachedText ∧
      cachedText ≠ "" ∧ startsWith text cachedText = true := by
  have hmem : row ∈ history := by
    rw [← List.mem_insertionSort fun a b : Row => b.tokenCount ≤ a.tokenCount]
    exact List.mem_of_find?_eq_some h
  have hmatch := List.find?_some h
  refine ⟨hmem, ?_⟩
  unfold Row.matchesPrefix at hmatch
  split at hmatch
  · nomatch hmatch
  · nomatch hmatch
  · next cachedText nonempty heq => exact ⟨cachedText, heq, nonempty, hmatch⟩

theorem encodeMatched_sound (h : Faithful tok) {text cachedText : String} {row : Row}
    (sound : row.Sound tok) (htext : row.fullConversationText = some cachedText)
    (nonempty : cachedText ≠ "") (start : startsWith text cachedText = true) :
    (encodeMatched tok text row).Sound tok text where
  decodes := by
    have cached := sound cachedText htext nonempty
    simp only [encodeMatched, htext, Option.getD_some, h.decode_append, cached]
    have rest : tok.decode (if dropFirst text cachedText.length = "" then []
        else tok.encode (dropFirst text cachedText.length)) =
          dropFirst text cachedText.length := by
      split_ifs with hrest
      · rw [h.decode_nil, hrest]
      · exact h.decode_encode _
    rw [rest]
    exact append_dropFirst start
  split := rfl
  hits := rfl

theorem encodeWithCache_sound (h : Faithful tok) {sessionId : Option String} {rows : List Row}
    (sound : RowsSound tok sessionId rows) (text : String) :
    (encodeWithCache tok rows sessionId text).Sound tok text := by
  unfold encodeWithCache
  cases hs : sessionId.filter (· ≠ "") with
  | none => exact encodeUncached_sound h text
  | some id =>
    dsimp only
    have hid : sessionId = some id := (Option.filter_eq_some_iff.mp hs).1
    cases found : findLongestPrefixMatch text (getPrefixCandidates rows id) with
    | none => exact encodeUncached_sound h text
    | some row =>
      obtain ⟨hmem, cachedText, htext, nonempty, start⟩ := findLongestPrefixMatch_eq_some found
      simp only [getPrefixCandidates, List.mem_reverse, List.mem_filter,
        decide_eq_true_eq] at hmem
      have hrow : row.Sound tok := sound row hmem.1 (by rw [hid]; exact hmem.2.1)
      exact encodeMatched_sound h hrow htext nonempty start

theorem encodeWithCache_empty (rows : List Row) (sessionId : Option String) :
    encodeWithCache tok rows sessionId "" = encodeUncached tok "" := by
  unfold encodeWithCache
  cases sessionId.filter (· ≠ "") with
  | none => rfl
  | some id =>
    dsimp only
    cases found : findLongestPrefixMatch "" (getPrefixCandidates rows id) with
    | none => rfl
    | some row =>
      obtain ⟨_, cachedText, _, nonempty, start⟩ := findLongestPrefixMatch_eq_some found
      have empty : cachedText.toList = [] :=
        List.prefix_nil.mp (List.isPrefixOf_iff_prefix.mp start)
      exact absurd (String.toList_eq_nil_iff.mp empty) nonempty

/-- A prompt is encoded to no ids exactly if the tokenizer has none for it. -/
theorem tokenIds_eq_nil_iff (h : Faithful tok) {sessionId : Option String} {rows : List Row}
    (sound : RowsSound tok sessionId rows) (text : String) :
    (encodeWithCache tok rows sessionId text).tokenIds = [] ↔ tok.encode text = [] := by
  have decodes := (encodeWithCache_sound h sound text).decodes
  refine ⟨?_, ?_⟩
  · intro hnil
    rw [hnil, h.decode_nil] at decodes
    rwa [← decodes, encodeWithCache_empty, decodes] at hnil
  · intro hnil
    have empty : text = "" := by rw [← h.decode_encode text, hnil, h.decode_nil]
    rw [empty, encodeWithCache_empty]
    exact empty ▸ hnil

theorem process_conversation {env : BuildEnv} {parser : MessageParser} {promptText : String}
    {tokenIds : List Int} {response : InferResponse} {trajectory : Trajectory}
    (h : process tok env parser promptText tokenIds response = .ok trajectory) :
    ∃ decoded ids, decodeResponse tok response = .ok (decoded, ids) ∧
      trajectory.fullConversationText = promptText ++
        (match nonemptyIds ids with
          | some ids => tok.decode ids
          | none => decoded) ∧
      trajectory.fullConversationTokenIds =
        match nonemptyIds (some tokenIds), nonemptyIds ids with
        | some prompt, some ids => some (prompt ++ ids)
        | _, _ => some tokenIds := by
  unfold process at h
  obtain ⟨⟨decoded, ids⟩, hdecoded, h⟩ := bind_eq_ok h
  obtain ⟨counts, _, h⟩ := bind_eq_ok h
  obtain ⟨rawResponse, _, h⟩ := bind_eq_ok h
  obtain rfl := Except.ok.inj h
  exact ⟨decoded, ids, hdecoded, rfl, rfl⟩

theorem finalizeStream_conversation {env : BuildEnv} {parser : MessageParser}
    {promptText : String} {tokenIds : Option (List Int)} {ctx : StreamContext π}
    {trajectory : Trajectory}
    (h : finalizeStream tok env parser promptText tokenIds ctx = .ok trajectory) :
    trajectory.fullConversationText = promptText ++
        (match nonemptyIds (some ctx.streamBufferIds) with
          | some ids => tok.decode ids
          | none => ctx.streamBufferText) ∧
      trajectory.fullConversationTokenIds =
        match nonemptyIds tokenIds, nonemptyIds (some ctx.streamBufferIds) with
        | some prompt, some ids => some (prompt ++ ids)
        | _, _ => none := by
  unfold finalizeStream at h
  obtain ⟨rawResponse, _, h⟩ := bind_eq_ok h
  obtain rfl := Except.ok.inj h
  exact ⟨rfl, rfl⟩

theorem trajectoryRow_sound_iff (sessionId : Option String) (trajectory : Trajectory) :
    (trajectoryRow sessionId (some trajectory)).Sound tok ↔
      (trajectory.fullConversationText ≠ "" →
        tok.decode (trajectory.fullConversationTokenIds.getD []) =
          trajectory.fullConversationText) := by
  simp [Row.Sound, trajectoryRow]

/-- A response with ids after a prompt whose ids are known. -/
theorem answered_sound_iff (h : Faithful tok) {promptText : String} {tokenIds ids : List Int}
    (decodes : tok.decode tokenIds = promptText)
    (noIds : tokenIds = [] ↔ tok.encode promptText = []) {stored : Option (List Int)}
    (hstored : stored.getD [] = if tokenIds = [] then [] else tokenIds ++ ids) :
    (promptText ++ tok.decode ids ≠ "" →
        tok.decode (stored.getD []) = promptText ++ tok.decode ids) ↔
      (tok.decode ids = "" ∨ tok.encode promptText ≠ []) := by
  rw [hstored]
  by_cases hnil : tokenIds = []
  · have hprompt : promptText = "" := by rw [← decodes, hnil, h.decode_nil]
    have hencode := noIds.mp hnil
    simp only [hnil, if_true, h.decode_nil, hencode, ne_eq, not_true_eq_false, or_false]
    rw [hprompt, String.empty_append]
    refine ⟨?_, ?_⟩
    · intro sound
      by_contra hne
      exact hne (sound hne).symm
    · exact fun hempty hne => absurd hempty hne
  · have hencode : tok.encode promptText ≠ [] := fun hno => hnil (noIds.mpr hno)
    simp [hnil, hencode, h.decode_append, decodes]

theorem process_sound_iff (h : Faithful tok) {env : BuildEnv} {parser : MessageParser}
    {promptText : String} {tokenIds : List Int} {response : InferResponse}
    {trajectory : Trajectory} (sessionId : Option String)
    (decodes : tok.decode tokenIds = promptText)
    (noIds : tokenIds = [] ↔ tok.encode promptText = [])
    (run : process tok env parser promptText tokenIds response = .ok trajectory) :
    (trajectoryRow sessionId (some trajectory)).Sound tok ↔
      (Action.process promptText env parser response : Action π).KeepsIds tok := by
  obtain ⟨decoded, ids, hdecoded, htext, hids⟩ := process_conversation run
  rw [trajectoryRow_sound_iff]
  simp only [Action.KeepsIds, hdecoded]
  rcases decodeResponse_ok hdecoded with ⟨ids', rfl, rfl⟩ | ⟨rfl, hplain⟩
  · dsimp only
    have htext' : trajectory.fullConversationText = promptText ++ tok.decode ids' := by
      rw [htext, nonemptyIds_some]
      split_ifs with hnil
      · rw [hnil]
      · rfl
    rw [htext']
    by_cases hnil : ids' = []
    · have hstored : trajectory.fullConversationTokenIds.getD [] = tokenIds := by
        rw [hids, hnil]
        cases tokenIds <;> rfl
      rw [hstored, hnil, h.decode_nil, String.append_empty, decodes]
      simp
    · apply answered_sound_iff h decodes noIds
      rw [hids, nonemptyIds_some, nonemptyIds_some, if_neg hnil]
      split_ifs with hno
      · simp [hno]
      · rfl
  · have hstored : trajectory.fullConversationTokenIds.getD [] = tokenIds := by
      rw [hids]
      cases tokenIds <;> rfl
    rw [hstored, decodes, htext]
    dsimp only [nonemptyIds, Option.filter]
    refine ⟨?_, ?_⟩
    · intro sound
      have hne : promptText ++ decoded ≠ "" := by
        intro hempty
        exact hplain (String.append_eq_empty_iff.mp hempty).2
      have hlength := congrArg String.length (sound hne)
      rw [String.length_append] at hlength
      exact hplain (String.length_eq_zero_iff.mp (by omega))
    · exact fun hfalse => hfalse.elim

theorem finalizeStream_sound_iff (h : Faithful tok) {env : BuildEnv} {parser : MessageParser}
    {promptText : String} {tokenIds : Option (List Int)} {ctx : StreamContext π}
    {trajectory : Trajectory} (sessionId : Option String)
    (encoded : ∀ ids, tokenIds = some ids → tok.decode ids = promptText ∧
      (ids = [] ↔ tok.encode promptText = []))
    (noText : ctx.streamBufferIds = [] → ctx.streamBufferText = "")
    (skipped : tokenIds = none → ctx.streamBufferIds = [])
    (run : finalizeStream tok env parser promptText tokenIds ctx = .ok trajectory) :
    (trajectoryRow sessionId (some trajectory)).Sound tok ↔
      if ctx.streamBufferIds = [] then promptText = ""
      else tok.decode ctx.streamBufferIds = "" ∨ tok.encode promptText ≠ [] := by
  obtain ⟨htext, hids⟩ := finalizeStream_conversation run
  rw [trajectoryRow_sound_iff]
  by_cases hnil : ctx.streamBufferIds = []
  · rw [nonemptyIds_some, if_pos hnil] at htext hids
    have hstored : trajectory.fullConversationTokenIds.getD [] = [] := by
      rw [hids]
      cases nonemptyIds tokenIds <;> rfl
    rw [if_pos hnil, hstored, htext, noText hnil, String.append_empty, h.decode_nil]
    refine ⟨?_, ?_⟩
    · intro sound
      by_contra hne
      exact hne (sound hne).symm
    · exact fun hempty hne => absurd hempty hne
  · obtain ⟨ids, rfl⟩ : ∃ ids, tokenIds = some ids := by
      cases tokenIds with
      | none => exact absurd (skipped rfl) hnil
      | some ids => exact ⟨ids, rfl⟩
    obtain ⟨decodes, noIds⟩ := encoded ids rfl
    rw [nonemptyIds_some ctx.streamBufferIds, if_neg hnil] at htext hids
    rw [if_neg hnil, htext]
    apply answered_sound_iff h decodes noIds
    rw [hids, nonemptyIds_some]
    split_ifs <;> rfl

/-- The row of a request is sound exactly if the request keeps its ids. -/
theorem stored_sound_iff (h : Faithful tok) {sessionId : Option String} {rows : List Row}
    (sound : RowsSound tok sessionId rows) {action : Action π} {trajectory : Trajectory}
    (hstored : action.stored tok sessionId rows = some (some trajectory)) :
    (trajectoryRow sessionId (some trajectory)).Sound tok ↔ action.KeepsIds tok := by
  have encoded : ∀ promptText : String,
      tok.decode (encodeWithCache tok rows sessionId promptText).tokenIds = promptText ∧
        ((encodeWithCache tok rows sessionId promptText).tokenIds = [] ↔
          tok.encode promptText = []) := fun promptText =>
    ⟨(encodeWithCache_sound h sound promptText).decodes, tokenIds_eq_nil_iff h sound promptText⟩
  cases action with
  | process promptText env parser response =>
    obtain ⟨decodes, noIds⟩ := encoded promptText
    have run := toOption_eq_some.mp (Option.some.inj hstored)
    exact process_sound_iff h sessionId decodes noIds run
  | processStream promptText env sharedParser P chunks =>
    cases chunks with
    | none =>
      simp only [Action.stored, Option.map_eq_some_iff, Option.some.injEq, exists_eq_right,
        toOption_eq_some] at hstored
      have iff := finalizeStream_sound_iff h sessionId (by nofun) (fun _ => rfl) (fun _ => rfl)
        hstored
      exact iff.trans (by simp [StreamContext.initial, Action.KeepsIds])
    | some chunks =>
      simp only [Action.stored] at hstored
      split at hstored
      · next sent ctx hchunks =>
        simp only [Option.map_eq_some_iff, Option.some.injEq, exists_eq_right,
          toOption_eq_some] at hstored
        have hrun := processChunks_run hchunks rfl
        have hbuffer : ctx.streamBufferIds = streamedIds chunks := hrun.ids
        have iff := finalizeStream_sound_iff h sessionId
          (fun ids heq => by rw [← Option.some.inj heq]; exact encoded promptText)
          (fun hnil => hrun.text (hbuffer.symm.trans hnil)) (by nofun) hstored
        rw [hbuffer] at iff
        exact iff
      · nomatch hstored
  | failed => nomatch hstored
  | notStored => nomatch hstored
  | archive i => nomatch hstored
  | otherSession row => nomatch hstored

theorem rowsSound_append {sessionId : Option String} {rows : List Row} {row : Row}
    (sound : RowsSound tok sessionId rows) (own : row.sessionId = sessionId.getD "") :
    RowsSound tok sessionId (rows ++ [row]) ↔ row.Sound tok := by
  refine ⟨?_, ?_⟩
  · exact fun all => all row (List.mem_append_right rows (List.mem_singleton.mpr rfl)) own
  · intro hrow other hother own'
    rcases List.mem_append.mp hother with old | new
    · exact sound other old own'
    · exact List.mem_singleton.mp new ▸ hrow

theorem archiveRow_sound {sessionId : Option String} {rows : List Row} (i : Nat)
    (sound : RowsSound tok sessionId rows) : RowsSound tok sessionId (archiveRow rows i) := by
  intro row hrow own
  obtain ⟨j, hj⟩ := List.mem_iff_getElem?.mp hrow
  rw [archiveRow, List.getElem?_modify] at hj
  obtain ⟨old, hold, rfl⟩ := Option.map_eq_some_iff.mp hj
  have hmem := List.mem_of_getElem? hold
  by_cases hi : i = j
  · rw [if_pos hi] at own ⊢
    exact sound old hmem own
  · rw [if_neg hi] at own ⊢
    exact sound old hmem own

/-- One step keeps the rows sound exactly if it is admitted. -/
theorem step_sound_iff (h : Faithful tok) {sessionId : Option String} {rows rows' : List Row}
    {action : Action π} (sound : RowsSound tok sessionId rows)
    (taken : step tok sessionId rows action = some rows') :
    RowsSound tok sessionId rows' ↔ Admitted tok sessionId rows action := by
  have request : rows' = rows ++
      ((action.stored tok sessionId rows).map (trajectoryRow sessionId)).toList →
      (RowsSound tok sessionId rows' ↔ Admitted tok sessionId rows action) := by
    rintro rfl
    cases hstored : action.stored tok sessionId rows with
    | none => simp [Admitted, hstored, sound]
    | some outcome =>
      rw [Option.map_some, Option.toList_some, rowsSound_append sound rfl]
      cases outcome with
      | none => simp [Admitted, hstored, Row.Sound, trajectoryRow]
      | some trajectory =>
        rw [stored_sound_iff h sound hstored]
        simp [Admitted, hstored]
  cases action with
  | archive i =>
    obtain rfl := Option.some.inj taken
    simp [Admitted, Action.stored, archiveRow_sound i sound]
  | otherSession row =>
    simp only [step] at taken
    split at taken
    · nomatch taken
    · next other =>
      obtain rfl := Option.some.inj taken
      have hadmitted : Admitted tok sessionId rows (.otherSession row : Action π) := by
        simp [Admitted, Action.stored]
      refine iff_of_true ?_ hadmitted
      intro row' hrow own
      rcases List.mem_append.mp hrow with old | new
      · exact sound row' old own
      · exact absurd (List.mem_singleton.mp new ▸ own) other
  | process promptText env parser response => exact request (Option.some.inj taken).symm
  | processStream promptText env sharedParser P chunks =>
    exact request (Option.some.inj taken).symm
  | failed => exact request (Option.some.inj taken).symm
  | notStored => exact request (Option.some.inj taken).symm

/-- In a run whose requests all keep their ids, every next prompt is encoded to
ids that decode to it. -/
theorem run_encodes (h : Faithful tok) (sessionId : Option String) (actions : List (Action π))
    (admitted : (machine tok sessionId).Guarded (Admitted tok sessionId) [] actions) :
    (machine tok sessionId).Along
      (fun rows => ∀ text, (encodeWithCache tok rows sessionId text).Sound tok text) []
      actions := by
  have sound : (machine tok sessionId).Along (RowsSound tok sessionId) [] actions :=
    (Machine.along_iff_guarded (fun _ _ _ => step_sound_iff h) nofun actions).mpr admitted
  exact sound.mono fun rows => encodeWithCache_sound h

theorem codePoints_faithful : Faithful codePoints where
  decode_encode text := by
    have hchars : (text.toList.map fun c => (c.toNat : Int)).map (fun id => Char.ofNat id.toNat) =
        text.toList := by
      rw [List.map_map]
      exact (List.map_congr_left fun c _ => Char.ofNat_toNat c).trans (List.map_id _)
    exact (congrArg String.ofList hchars).trans String.ofList_toList
  decode_append ids ids' := by
    simp only [codePoints, List.map_append, String.ofList_append]

theorem run_encodes_answered :
    (machine codePoints (some "s")).Along
      (fun rows => ∀ text, (encodeWithCache codePoints rows (some "s") text).Sound codePoints text)
      [] [(.process "a" plainEnv noParser
        (oneChoice (.value "b") (.value [98]) (.value "stop")) : Action Unit)] := by
  refine run_encodes codePoints_faithful (some "s") _ ?_
  refine Machine.guarded_cons rfl ?_ trivial
  intro trajectory _
  exact Or.inr (by decide)

/-- A response that is only a text is stored with the prompt's ids: the next
prompt loses it. -/
theorem plainText_lost :
    ¬∀ (tok : Tokenizer) (actions : List (Action Unit)), Faithful tok →
      (machine tok (some "s")).Along
        (fun rows => ∀ text, (encodeWithCache tok rows (some "s") text).Sound tok text) []
        actions := by
  intro h
  let request : Action Unit :=
    .process "a" plainEnv noParser (oneChoice (.value "b") .missing (.value "stop"))
  have along := h codePoints [request] codePoints_faithful
  have sound := (along.2 _ rfl "ab").decodes
  exact absurd sound (by decide)

end TrajProxy.Cache
