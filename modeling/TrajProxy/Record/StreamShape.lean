import TrajProxy.Pipeline.Emitted
import TrajProxy.Record.Kept
import TrajProxy.Record.StreamRecovery

/-! The chunks a client of `TokenPipeline` gets: the role on the first, one finish
reason on the last, then the usage, and in between deltas that are not empty. -/

namespace TrajProxy.Record

variable {π : Type} {env : Surroundings} {calls : TokenStreamCalls π}

/-- The choice of a chunk, its delta and whether it has a finish reason. -/
def choiceOf (chunk : Items Json) : Items Json := choiceAt chunk 0

def deltaOf (chunk : Items Json) : Items Json := itemsOf (Json.getD (choiceOf chunk) "delta")

def Finishes (chunk : Items Json) : Prop :=
  (Json.getD (choiceOf chunk) "finish_reason").isNull = false

/-- A chunk without choices. -/
def WithoutChoices (chunk : Items Json) : Prop := chunk.get? "choices" = some (.arr [])

structure StreamShape (sent : List (Items Json)) : Prop where
  first : ∀ chunk, sent.head? = some chunk →
    (deltaOf chunk).get? "role" = some (.str "assistant")
  later : ∀ chunk ∈ sent.tail, (deltaOf chunk).get? "role" = none
  finish : ∀ before chunk after, sent = before ++ chunk :: after → Finishes chunk →
    (∀ other ∈ before ++ after, ¬Finishes other) ∧
      (after = [] ∨ ∃ usage, after = [usage] ∧ WithoutChoices usage)
  usage : ∀ before chunk after, sent = before ++ chunk :: after → WithoutChoices chunk → after = []
  delta : ∀ chunk ∈ sent.tail, ¬Finishes chunk → ¬WithoutChoices chunk → deltaOf chunk ≠ []

section Chunks

theorem deltaOf_toItems (chunk : Pipeline.OpenAIChunk) :
    deltaOf chunk.toItems = chunk.deltaItems := rfl

theorem finishes_toItems_iff (chunk : Pipeline.OpenAIChunk) :
    Finishes chunk.toItems ↔ chunk.finishReason ≠ none := by
  obtain ⟨role, content, reasoning, toolCalls, finishReason⟩ := chunk
  cases finishReason with
  | none => exact iff_of_false (fun h => (nomatch h)) fun h => h rfl
  | some reason => exact iff_of_true rfl (Option.some_ne_none reason)

theorem withoutChoices_toItems (chunk : Pipeline.OpenAIChunk) : ¬WithoutChoices chunk.toItems := by
  intro h
  nomatch h

theorem get?_role_deltaItems (chunk : Pipeline.OpenAIChunk) :
    chunk.deltaItems.get? "role" = chunk.role.map Json.str := by
  obtain ⟨role, content, reasoning, toolCalls, finishReason⟩ := chunk
  cases role <;> cases content <;> cases reasoning <;> cases toolCalls <;>
    simp [Pipeline.OpenAIChunk.deltaItems, Items.get?]

/-- A usage chunk, if one is sent. -/
def OnlyUsage (usage : List (Items Json)) : Prop :=
  usage = [] ∨ ∃ counts, usage = [Pipeline.usageChunk counts]

theorem OnlyUsage.mem {usage : List (Items Json)} (h : OnlyUsage usage) {chunk : Items Json}
    (mem : chunk ∈ usage) : WithoutChoices chunk ∧ ¬Finishes chunk := by
  rcases h with rfl | ⟨counts, rfl⟩
  · nomatch mem
  · rw [List.mem_singleton.mp mem]
    exact ⟨rfl, fun h => (nomatch h)⟩

variable {sent : List Pipeline.OpenAIChunk} {usage : List (Items Json)}

/-- The chunk with the finish reason is the last one sent before the usage. -/
theorem finish_last (only : OnlyUsage usage)
    (running : ∀ c ∈ sent.dropLast, c.finishReason = none) {before after : List (Items Json)}
    {chunk : Items Json}
    (split : sent.map Pipeline.OpenAIChunk.toItems ++ usage = before ++ chunk :: after)
    (finishes : Finishes chunk) : (∀ other ∈ before, ¬Finishes other) ∧ after = usage := by
  rcases List.append_eq_append_iff.mp split with ⟨pre, _, inUsage⟩ | ⟨post, chunks, tail⟩
  · have mem : chunk ∈ usage := inUsage ▸ List.mem_append_right _ List.mem_cons_self
    exact absurd finishes (only.mem mem).2
  · cases post with
    | nil =>
      have mem : chunk ∈ usage := by
        rw [List.nil_append] at tail
        exact tail ▸ List.mem_cons_self
      exact absurd finishes (only.mem mem).2
    | cons other post =>
      obtain ⟨rfl, rfl⟩ := List.cons.inj tail
      obtain ⟨first, later, rfl, rfl, rest⟩ := List.map_eq_append_iff.mp chunks
      obtain ⟨c, more, rfl, rfl, rfl⟩ := List.map_eq_cons_iff.mp rest
      have alone : more = [] := by
        by_contra nonempty
        have mem : c ∈ (first ++ c :: more).dropLast := by
          rw [List.dropLast_append_of_ne_nil (List.cons_ne_nil c more),
            List.dropLast_cons_of_ne_nil nonempty]
          exact List.mem_append_right _ List.mem_cons_self
        exact (finishes_toItems_iff c).mp finishes (running c mem)
      subst alone
      refine ⟨?_, rfl⟩
      intro other mem finishes
      obtain ⟨c', there, rfl⟩ := List.mem_map.mp mem
      refine (finishes_toItems_iff c').mp finishes (running c' ?_)
      rw [List.dropLast_append_of_ne_nil (List.cons_ne_nil c [])]
      exact List.mem_append_left _ there

theorem usage_last (only : OnlyUsage usage) {before after : List (Items Json)}
    {chunk : Items Json}
    (split : sent.map Pipeline.OpenAIChunk.toItems ++ usage = before ++ chunk :: after)
    (without : WithoutChoices chunk) : after = [] := by
  have none : ∀ other ∈ sent.map Pipeline.OpenAIChunk.toItems, ¬WithoutChoices other := by
    intro other mem
    obtain ⟨c, _, rfl⟩ := List.mem_map.mp mem
    exact withoutChoices_toItems c
  have inUsage : ∀ pre, usage = pre ++ chunk :: after → after = [] := by
    intro pre same
    rcases only with rfl | ⟨counts, rfl⟩
    · exact absurd same.symm (List.append_ne_nil_of_right_ne_nil pre (List.cons_ne_nil _ _))
    · cases pre with
      | nil => exact (List.cons.inj same).2.symm
      | cons other pre =>
        exact absurd (List.cons.inj same).2.symm
          (List.append_ne_nil_of_right_ne_nil pre (List.cons_ne_nil _ _))
  rcases List.append_eq_append_iff.mp split with ⟨pre, _, same⟩ | ⟨post, chunks, tail⟩
  · exact inUsage pre same
  · cases post with
    | nil => exact inUsage [] tail.symm
    | cons other post =>
      obtain ⟨rfl, _⟩ := List.cons.inj tail
      have mem : chunk ∈ sent.map Pipeline.OpenAIChunk.toItems :=
        chunks ▸ List.mem_append_right before List.mem_cons_self
      exact absurd without (none chunk mem)

/-- The shape of the chunks of a stream and of its usage, up to the deltas. -/
theorem streamShape_iff_deltas {first : Pipeline.OpenAIChunk} (only : OnlyUsage usage)
    (role : first.role = some "assistant") (later : ∀ c ∈ sent, c.role = none)
    (running : ∀ c ∈ (first :: sent).dropLast, c.finishReason = none) :
    StreamShape ((first :: sent).map Pipeline.OpenAIChunk.toItems ++ usage) ↔
      ∀ c ∈ sent, c.finishReason = none → c.deltaItems ≠ [] := by
  refine ⟨?_, fun filled => ⟨?_, ?_, ?_, ?_, ?_⟩⟩
  · intro shape c mem reason
    refine shape.delta c.toItems ?_ (fun finishes => ?_) (withoutChoices_toItems c)
    · exact List.mem_append_left _ (List.mem_map_of_mem mem)
    · exact (finishes_toItems_iff c).mp finishes reason
  · intro chunk head
    obtain rfl := Option.some.inj head
    rw [deltaOf_toItems, get?_role_deltaItems, role]
    rfl
  · intro chunk mem
    rcases List.mem_append.mp mem with there | inUsage
    · obtain ⟨c, hc, rfl⟩ := List.mem_map.mp there
      rw [deltaOf_toItems, get?_role_deltaItems, later c hc]
      rfl
    · rcases only with rfl | ⟨counts, rfl⟩
      · nomatch inUsage
      · rw [List.mem_singleton.mp inUsage]
        rfl
  · intro before chunk after split finishes
    obtain ⟨others, rfl⟩ := finish_last only running split finishes
    refine ⟨?_, ?_⟩
    · intro other mem
      rcases List.mem_append.mp mem with inBefore | inUsage
      · exact others other inBefore
      · exact (only.mem inUsage).2
    · rcases only with rfl | ⟨counts, rfl⟩
      · exact Or.inl rfl
      · exact Or.inr ⟨_, rfl, rfl⟩
  · intro before chunk after split without
    exact usage_last only split without
  · intro chunk mem finishes without
    rcases List.mem_append.mp mem with there | inUsage
    · obtain ⟨c, hc, rfl⟩ := List.mem_map.mp there
      refine filled c hc ?_
      by_contra reason
      exact finishes ((finishes_toItems_iff c).mpr reason)
    · exact absurd (only.mem inUsage).1 without

end Chunks

section Runs

variable {w : World (Pipeline.StreamContext π)} {request : Request}

/-- The chunks that upstream sent. -/
def received (rounds : List TokenRound) : List Pipeline.InferResponse :=
  rounds.filterMap fun round => round.received.toOption

/-- The world after these chunks were sent. -/
def World.sending (w : World (Pipeline.StreamContext π)) (stream : Pipeline.StreamContext π)
    (sent : List Pipeline.OpenAIChunk) : World (Pipeline.StreamContext π) :=
  { w with
    stream := stream
    sent := w.sent ++ sent.map Pipeline.OpenAIChunk.toItems }

/-- A round that returns sends what `_process_stream_chunk` makes of its chunk. -/
theorem takeChunk_ends (round : TokenRound) :
    (calls.takeChunk round).Ends w
      (fun _ w' => ∃ chunk sent stream, round.received = .ok chunk ∧
        Pipeline.processStreamChunk calls.tok calls.requestParser (w.context.tokenIds.getD [])
          w.stream chunk = .ok (sent, stream) ∧ w' = w.sending (stream.countSent sent) sent.toList)
      fun _ _ => True := by
  unfold TokenStreamCalls.takeChunk
  rw [Py.ends_bind, Py.ends_ofExcept]
  cases hreceived : round.received with
  | error e => trivial
  | ok chunk =>
    dsimp only
    rw [Py.ends_bind, Py.ends_read, Py.ends_bind, call, Py.ends_ofExcept]
    cases hchunk : Pipeline.processStreamChunk calls.tok calls.requestParser
        (w.context.tokenIds.getD []) w.stream chunk with
    | error e => trivial
    | ok result =>
      obtain ⟨sent, stream⟩ := result
      dsimp only [Except.mapError]
      rw [Py.ends_bind, Py.ends_modify]
      cases sent with
      | none =>
        refine ⟨chunk, none, stream, rfl, hchunk, ?_⟩
        simp [World.sending]
      | some c =>
        cases hyield : round.yielded with
        | some e => trivial
        | none => exact ⟨chunk, some c, stream, rfl, hchunk, rfl⟩

theorem streamRounds_ends (rounds : List TokenRound) (running : w.stream.streamFinished = false) :
    (calls.streamRounds rounds).Ends w
      (fun _ w' => ∃ sent, Pipeline.processChunks calls.tok calls.requestParser
          (w.context.tokenIds.getD []) w.stream (received rounds) = .ok (sent, w'.stream) ∧
        w' = w.sending w'.stream sent)
      fun _ _ => True := by
  induction rounds generalizing w with
  | nil =>
    have same : w.sending w.stream [] = w := by simp [World.sending]
    rw [TokenStreamCalls.streamRounds, Py.ends_callAll]
    cases calls.exhausted with
    | some e => trivial
    | none => exact ⟨[], rfl, same.symm⟩
  | cons round rest ih =>
    rw [TokenStreamCalls.streamRounds, Py.ends_bind]
    refine (takeChunk_ends round).mono ?_ fun _ _ _ => trivial
    rintro _ mid ⟨chunk, sent, stream, hreceived, hchunk, hmid⟩
    have chunks : received (round :: rest) = chunk :: received rest := by
      rw [received, List.filterMap_cons_some (by rw [hreceived]; rfl)]
      rfl
    rw [Py.ends_bind, Py.ends_read, chunks, hmid]
    change Py.Ends (if stream.streamFinished then pure () else _) _ _ _
    by_cases last : stream.streamFinished = true
    · rw [if_pos last]
      refine ⟨sent.toList, ?_, rfl⟩
      rw [Pipeline.processChunks, bind_of_ok hchunk]
      exact if_pos last
    · rw [if_neg last]
      have continues : (w.sending (stream.countSent sent) sent.toList).stream.streamFinished =
          false := Bool.not_eq_true _ ▸ last
      refine (ih continues).mono ?_ fun _ _ _ => trivial
      rintro _ w' ⟨more, hmore, same⟩
      refine ⟨sent.toList ++ more, ?_, ?_⟩
      · rw [Pipeline.processChunks, bind_of_ok hchunk]
        exact (if_neg last).trans ((bind_of_ok hmore).trans rfl)
      · rw [same]
        simp [World.sending]

/-- A stream that reached its end, before it is finalised. -/
theorem receive_ends (calls : TokenStreamCalls π) (request : Request) :
    calls.receive.Ends (.initial request (.initial calls.requestParser))
      (fun _ w => ∃ ids sent, calls.encode = .ok ids ∧
        Pipeline.processChunks calls.tok calls.requestParser ids (.initial calls.requestParser)
          (received calls.rounds) = .ok (sent, w.stream) ∧
        w.sent = sent.map Pipeline.OpenAIChunk.toItems)
      fun _ _ => True := by
  unfold TokenStreamCalls.receive transformMessages encodeText
  rw [Py.ends_bind, ends_onContext, Py.ends_bind, Py.ends_ofExcept]
  cases calls.convert with
  | error e => trivial
  | ok text =>
    dsimp only
    rw [Py.ends_modify, Py.ends_bind, ends_onContext, Py.ends_bind, Py.ends_ofExcept]
    cases hencode : calls.encode with
    | error e => trivial
    | ok ids =>
      dsimp only
      rw [Py.ends_modify, Py.ends_bind, Py.ends_callAll]
      cases calls.createParser with
      | some e => trivial
      | none =>
        refine (streamRounds_ends calls.rounds rfl).mono ?_ fun _ _ _ => trivial
        rintro _ w' ⟨sent, hsent, same⟩
        refine ⟨ids, sent, rfl, hsent, ?_⟩
        rw [same]
        exact List.nil_append _

/-- Without any chunk no completion tokens are counted. -/
theorem trajectory_noChunks {t : Pipeline.Trajectory} (h : calls.trajectory w = .ok t)
    (start : w.stream = .initial calls.requestParser) : t.counts.completionTokens = .int 0 := by
  obtain ⟨promptText, -, built⟩ := trajectory_built h
  obtain ⟨raw, -, same⟩ := bind_eq_ok built
  obtain rfl := Except.ok.inj same
  rw [start]
  rfl

theorem finalizeStream_ends (w : World (Pipeline.StreamContext π)) :
    (calls.finalizeStream env).Ends w
      (fun _ w' => w'.sent = w.sent ∧ (w.stream = .initial calls.requestParser →
        w'.context.completionTokens = .int 0))
      fun _ _ => True := by
  unfold Py.Ends
  rw [finalizeStream_run]
  cases built : calls.trajectory w with
  | error e => trivial
  | ok t =>
    dsimp only
    rw [storeTrajectory_run]
    cases env.insert w.handed.length with
    | stored => exact ⟨rfl, trajectory_noChunks built⟩
    | databaseError message => exact ⟨rfl, trajectory_noChunks built⟩
    | raised e => trivial

theorem sendUsage_ends (w : World (Pipeline.StreamContext π)) :
    calls.sendUsage.Ends w
      (fun _ w' => ∃ usage, OnlyUsage usage ∧ w'.sent = w.sent ++ usage ∧
        (w.context.completionTokens = .int 0 → usage = []))
      fun _ _ => True := by
  unfold TokenStreamCalls.sendUsage
  rw [Py.ends_bind, Py.ends_read]
  by_cases counted : w.context.completionTokens.truthy = true
  · rw [if_pos counted, yieldChunk, Py.ends_bind, Py.ends_modify, Py.ends_callAll]
    cases calls.usageYield with
    | some e => trivial
    | none =>
      refine ⟨[_], Or.inr ⟨_, rfl⟩, rfl, fun none => ?_⟩
      rw [none] at counted
      nomatch counted
  · rw [if_neg counted]
    exact ⟨[], Or.inl rfl, (List.append_nil _).symm, fun _ => rfl⟩

/-- What the upstream chunks and the parser make of a stream: after the first
delta, none that says nothing and is sent all the same. -/
def TokenStreamCalls.Spoken (calls : TokenStreamCalls π) : Prop :=
  let taken := Pipeline.takenChunks (received calls.rounds)
  ∀ ids deltas parser, calls.encode = .ok ids →
    Pipeline.parseDeltas calls.requestParser calls.requestParser.start (some ids)
      (Pipeline.pieces calls.tok (.initial calls.requestParser) taken) = .ok (deltas, parser) →
    ∀ piece ∈ (deltas.zip taken).tail, Pipeline.isStreamFinished piece.2 = false →
      ¬Pipeline.Silent piece.1 piece.2

theorem streamShape_nil : StreamShape [] := by
  refine ⟨?_, ?_, ?_, ?_, ?_⟩
  · exact fun _ head => absurd head.symm (Option.some_ne_none _)
  · exact List.forall_mem_nil _
  · intro before chunk after split
    exact absurd split.symm (List.append_ne_nil_of_right_ne_nil before (List.cons_ne_nil _ _))
  · intro before chunk after split
    exact absurd split.symm (List.append_ne_nil_of_right_ne_nil before (List.cons_ne_nil _ _))
  · exact List.forall_mem_nil _

theorem processChunks_shape {ids : List Int} {sent : List Pipeline.OpenAIChunk}
    {stream : Pipeline.StreamContext π} {usage : List (Items Json)}
    (hencode : calls.encode = .ok ids)
    (hsent : Pipeline.processChunks calls.tok calls.requestParser ids
      (.initial calls.requestParser) (received calls.rounds) = .ok (sent, stream))
    (only : OnlyUsage usage) (counted : stream = .initial calls.requestParser → usage = []) :
    StreamShape (sent.map Pipeline.OpenAIChunk.toItems ++ usage) ↔ calls.Spoken := by
  obtain ⟨deltas, wire⟩ := Pipeline.processChunks_wire hsent rfl
  let taken := Pipeline.takenChunks (received calls.rounds)
  have pieces : sent = Pipeline.sentPieces calls.requestParser stream.parser 0 (deltas.zip taken) :=
    Pipeline.processChunks_sent hsent rfl wire.parses
  have spoken : calls.Spoken ↔ ∀ piece ∈ (deltas.zip taken).tail,
      Pipeline.isStreamFinished piece.2 = false → ¬Pipeline.Silent piece.1 piece.2 := by
    refine ⟨fun h => h ids deltas stream.parser hencode wire.parses, ?_⟩
    intro h ids' deltas' parser hencode' parses
    obtain rfl := Except.ok.inj (hencode.symm.trans hencode')
    obtain ⟨rfl, _⟩ := Prod.mk.inj (Except.ok.inj (wire.parses.symm.trans parses))
    exact h
  have snd : (deltas.zip taken).map Prod.snd = taken :=
    List.map_snd_zip (Nat.le_of_eq wire.length.symm)
  rw [spoken]
  by_cases nothing : deltas.zip taken = []
  · have noChunks : received calls.rounds = [] := by
      have none : Pipeline.takenChunks (received calls.rounds) = [] :=
        snd.symm.trans (congrArg (List.map Prod.snd) nothing)
      cases hchunks : received calls.rounds with
      | nil => rfl
      | cons chunk rest =>
        rw [hchunks, Pipeline.takenChunks_cons] at none
        nomatch none
    rw [noChunks] at hsent
    obtain ⟨rfl, rfl⟩ := Prod.mk.inj (Except.ok.inj hsent)
    rw [counted rfl, nothing]
    exact iff_of_true streamShape_nil (List.forall_mem_nil _)
  · have running : ∀ piece ∈ (deltas.zip taken).dropLast,
        Pipeline.isStreamFinished piece.2 = false := by
      intro piece mem
      refine Pipeline.takenChunks_running (received calls.rounds) piece.2 ?_
      change piece.2 ∈ taken.dropLast
      rw [← snd, ← List.map_dropLast]
      exact List.mem_map_of_mem mem
    obtain ⟨first, hfirst, role, last⟩ :=
      Pipeline.sentPieces_first calls.requestParser stream.parser nothing running
    rw [pieces, hfirst] at *
    rw [← Pipeline.later_deltas_iff calls.requestParser stream.parser]
    refine streamShape_iff_deltas only role ?_ last
    intro c mem
    obtain ⟨piece, _, there⟩ := List.mem_flatMap.mp mem
    exact Pipeline.sentPiece_role (Option.mem_toList.mp there)

/-- A stream that ends normally has its shape exactly if every delta that is sent
after the first says something. -/
theorem streamShape_iff (calls : TokenStreamCalls π) (env : Surroundings) (request : Request) :
    (calls.processStream env).Ends (.initial request (.initial calls.requestParser))
      (fun _ w => StreamShape w.sent ↔ calls.Spoken) fun _ _ => True := by
  unfold TokenStreamCalls.processStream
  rw [Py.ends_tryCancelled, Py.ends_bind]
  have handled : ∀ (e : Raised) (w : World (Pipeline.StreamContext π)),
      if e = .cancelled then
        (do
          Py.tryExcept (calls.finalizeStream env) fun _ => pure ()
          Py.raise (α := Unit) .cancelled).Ends w (fun _ w => StreamShape w.sent ↔ calls.Spoken)
          fun _ _ => True
      else if e.isException then
        (do
          onContext (Py.modify (·.failed env e))
          Py.raise (α := Unit) e).Ends w (fun _ w => StreamShape w.sent ↔ calls.Spoken)
          fun _ _ => True
      else True := by
    intro e w
    split_ifs
    · exact Py.ends_bind_any fun _ _ => trivial
    · exact Py.ends_bind_any fun _ _ => trivial
  refine (receive_ends calls request).mono ?_ fun e w _ => handled e w
  rintro _ w ⟨ids, sent, hencode, hsent, same⟩
  rw [Py.ends_bind]
  refine (finalizeStream_ends w).mono ?_ fun e w _ => handled e w
  rintro _ w' ⟨kept, counts⟩
  refine (sendUsage_ends w').mono ?_ fun e w _ => handled e w
  rintro _ w'' ⟨usage, only, added, uncounted⟩
  rw [added, kept, same]
  exact processChunks_shape hencode hsent only fun start => uncounted (counts start)

/-- A parser that holds everything back, as a tool parser does inside a call. -/
private def holdingBack : Pipeline.RequestParser Unit where
  start := ()
  parseDelta _ _ _ _ := .ok (none, ())
  toolCallsSeen _ := false

/-- A stream of two chunks, of which the second has an empty list of tool calls. -/
private def heldBack : TokenStreamCalls Unit where
  tok := Pipeline.codePoints
  build := Pipeline.plainEnv
  sharedParser := Pipeline.noParser
  requestParser := holdingBack
  convert := .ok "a"
  encode := .ok [97]
  createParser := none
  rounds := [⟨.ok (Pipeline.oneChoice (.value "b") (.value [98]) .null), none⟩,
    ⟨.ok ⟨[⟨.value "c", .value [99], .missing, .null, .missing, .value [], []⟩], .missing, []⟩,
      none⟩]
  exhausted := none
  redecode := none
  usageYield := none

/-- An empty list of upstream tool calls is sent as a chunk with an empty delta. -/
theorem emptyToolCalls_sent :
    ¬∀ (calls : TokenStreamCalls Unit) (env : Surroundings) (request : Request),
      (calls.processStream env).Ends (.initial request (.initial calls.requestParser))
        (fun _ w => StreamShape w.sent) fun _ _ => True := by
  intro h
  obtain ⟨w, hrun, first, second, usage, hsent, running, there, empty⟩ :
      ∃ w, (heldBack.processStream quiet).run
          (.initial plainRequest (.initial heldBack.requestParser)) = (.ok (), w) ∧
        ∃ first second usage, w.sent = [first, second, usage] ∧
          Json.getD (choiceOf second) "finish_reason" = .null ∧
          second.get? "choices" = some (.arr [.obj (choiceOf second)]) ∧ deltaOf second = [] :=
    ⟨_, rfl, _, _, _, rfl, rfl, rfl, rfl⟩
  have shape := (Py.ends_of_ok hrun).mp (h heldBack quiet plainRequest)
  refine shape.delta second ?_ ?_ ?_ empty
  · rw [hsent]
    exact List.mem_cons_self
  · intro finishes
    rw [Finishes, running] at finishes
    nomatch finishes
  · intro without
    rw [WithoutChoices, there] at without
    nomatch without

end Runs

end TrajProxy.Record
