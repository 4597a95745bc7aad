import TrajProxy.Record.Rounds
import TrajProxy.Record.TokenRecovery

/-! The ids a compact row of a stream of `TokenPipeline` gives back. What
`_finalize_stream` stores depends on the world the loop left; a second
`_finalize_stream` after a cancelled store leaves the same context. -/

namespace TrajProxy.Record

variable {π : Type} {env : Surroundings} {request : Request} {c : ProcessContext}
variable {calls : TokenStreamCalls π} {w : World (Pipeline.StreamContext π)}

section Coherence

theorem inferRequest_eq (ofRequest : OfRequest request c) (prompt : Json) :
    c.inferRequest prompt = request.inferRequest prompt := by
  have model : c.model = request.model := congrArg Identity.model ofRequest
  have params : c.requestParams = request.params.items :=
    congrArg Identity.requestParams ofRequest
  rw [ProcessContext.inferRequest, model, params]
  rfl

theorem keeps_coherent_transformMessages (convert : Except Raised String) :
    Py.Keeps (Coherent request) (transformMessages convert) := by
  refine (Py.keeps_ofExcept convert).bind fun text => Py.keeps_modify fun c h => ?_
  refine ⟨h.ofRequest, fun d same => ⟨text, rfl, ?_⟩, h.tokenRequest, h.textResponse⟩
  rw [← inferRequest_eq h.ofRequest]
  exact (Option.some.inj same).symm

theorem keeps_coherent_encodeText (encode : Except Raised (List Int)) :
    Py.Keeps (Coherent request) (encodeText encode) := by
  refine (Py.keeps_ofExcept encode).bind fun ids => Py.keeps_modify fun c h => ?_
  refine ⟨h.ofRequest, h.textRequest, fun d same => ⟨ids, rfl, ?_⟩, h.textResponse⟩
  rw [← inferRequest_eq h.ofRequest]
  exact (Option.some.inj same).symm

theorem finalized_coherent (t : Pipeline.Trajectory) (h : Coherent request c) :
    Coherent request (c.finalized t) :=
  ⟨h.ofRequest, h.textRequest, h.tokenRequest, fun _ same => (Option.some.inj same).symm⟩

/-- A chunk changes the stream and what was sent. -/
theorem keeps_takeChunk {I : World (Pipeline.StreamContext π) → Prop}
    (frame : ∀ w stream sent, I w → I { w with stream := stream, sent := sent })
    (round : TokenRound) : Py.Keeps I (calls.takeChunk round) := by
  refine (Py.keeps_ofExcept _).bind fun chunk => Py.keeps_read.bind fun w => ?_
  refine (Py.keeps_ofExcept _).bind fun (sent, stream) => ?_
  refine (Py.keeps_modify fun w => frame w _ _).bind fun _ => ?_
  cases sent with
  | none => exact Py.keeps_pure ()
  | some chunk =>
    exact (Py.keeps_modify fun w => frame w _ _).bind fun _ => Py.keeps_callAll _

theorem keeps_sendUsage {I : World (Pipeline.StreamContext π) → Prop}
    (frame : ∀ w sent, I w → I { w with sent := sent }) : Py.Keeps I calls.sendUsage := by
  refine Py.keeps_read.bind fun w => ?_
  split_ifs
  · exact (Py.keeps_modify fun w => frame w _).bind fun _ => Py.keeps_callAll _
  · exact Py.keeps_pure ()

/-- What `_finalize_stream` makes of this world, or raises before the store. -/
def TokenStreamCalls.trajectory (calls : TokenStreamCalls π)
    (w : World (Pipeline.StreamContext π)) : Except Raised Pipeline.Trajectory := do
  raised calls.redecode
  match w.context.promptText with
  | none => .error (.exception "TypeError")
  | some promptText =>
    (Pipeline.finalizeStream calls.tok calls.build calls.sharedParser promptText
      w.context.tokenIds w.stream).mapError .exception

theorem finalizeStream_run (w : World (Pipeline.StreamContext π)) :
    (calls.finalizeStream env).run w =
      match calls.trajectory w with
      | .error e => (.error e, w)
      | .ok t => (storeTrajectory env).run { w with context := w.context.finalized t } := by
  unfold TokenStreamCalls.finalizeStream TokenStreamCalls.trajectory
  rw [Py.run_bind, Py.run_read]
  dsimp only
  rw [Py.run_bind, Py.run_callAll]
  cases calls.redecode with
  | some e => rfl
  | none =>
    dsimp only [Py.firstRaised]
    cases w.context.promptText with
    | none => rfl
    | some promptText =>
      dsimp only
      rw [Py.run_bind, call, Py.run_ofExcept, bind_of_ok (m := raised none) rfl]
      cases Pipeline.finalizeStream calls.tok calls.build calls.sharedParser promptText
        w.context.tokenIds w.stream <;> rfl

/-- Contexts handed over are coherent, whatever ends the stream. -/
theorem tokenStream_coherent (calls : TokenStreamCalls π) (request : Request) :
    ∀ c ∈ (Run.tokenStream calls).handed env request, Coherent request c := by
  let I : World (Pipeline.StreamContext π) → Prop := Settled (Coherent request)
  have start : I (.initial request (.initial calls.requestParser)) :=
    ⟨createContext_coherent request, fun _ mem => absurd mem List.not_mem_nil⟩
  have receive : Py.Keeps I calls.receive :=
    keeps_receive (keeps_onContext (keeps_coherent_transformMessages _))
      (keeps_onContext (keeps_coherent_encodeText _))
      (keeps_takeChunk fun _ _ _ h => ⟨h.context, h.handed⟩)
  have finalize : Py.Keeps I (calls.finalizeStream env) := by
    intro w h
    rw [finalizeStream_run]
    cases calls.trajectory w with
    | error e => exact h
    | ok t =>
      exact keeps_storeTrajectory (coherent_settling request) _
        ⟨finalized_coherent t h.context, h.handed⟩
  have sendUsage : Py.Keeps I calls.sendUsage :=
    keeps_sendUsage fun _ _ h => ⟨h.context, h.handed⟩
  exact (keeps_processStream receive finalize sendUsage
    (keeps_failed (coherent_settling request)) _ start).handed

theorem trajectory_built {t : Pipeline.Trajectory} (h : calls.trajectory w = .ok t) :
    ∃ promptText, w.context.promptText = some promptText ∧
      Pipeline.finalizeStream calls.tok calls.build calls.sharedParser promptText
        w.context.tokenIds w.stream = .ok t := by
  obtain ⟨_, -, h⟩ := bind_eq_ok h
  cases prompt : w.context.promptText with
  | none =>
    rw [prompt] at h
    nomatch h
  | some promptText =>
    rw [prompt] at h
    dsimp only at h
    refine ⟨promptText, rfl, ?_⟩
    cases built : Pipeline.finalizeStream calls.tok calls.build calls.sharedParser promptText
        w.context.tokenIds w.stream with
    | error e =>
      rw [built] at h
      nomatch h
    | ok t' =>
      rw [built] at h
      exact congrArg Except.ok (Except.ok.inj h)

theorem trajectory_conversed {t : Pipeline.Trajectory} (h : calls.trajectory w = .ok t) :
    Conversed (w.context.finalized t) := by
  obtain ⟨promptText, prompt, built⟩ := trajectory_built h
  obtain ⟨raw, -, same⟩ := bind_eq_ok built
  obtain rfl := Except.ok.inj same
  exact fun _ there => ⟨promptText, _, prompt, rfl, (Option.some.inj there).symm⟩

theorem tokenStream_conversed (calls : TokenStreamCalls π) (request : Request) :
    ∀ c ∈ (Run.tokenStream calls).handed env request, Conversed c := by
  let I (w : World (Pipeline.StreamContext π)) : Prop := ∀ c ∈ w.handed, Conversed c
  have stage : ∀ stage : Py ProcessContext Unit, Py.Keeps I (onContext stage) :=
    fun _ _ h => h
  have receive : Py.Keeps I calls.receive :=
    keeps_receive (stage _) (stage _) (keeps_takeChunk fun _ _ _ h => h)
  have finalize : Py.Keeps I (calls.finalizeStream env) := by
    intro w h
    rw [finalizeStream_run]
    cases built : calls.trajectory w with
    | error e => exact h
    | ok t =>
      change ∀ c ∈ ((storeTrajectory env).run _).2.handed, _
      rw [storeTrajectory_handed]
      intro c mem
      rcases List.mem_append.mp mem with old | new
      · exact h c old
      · rw [List.mem_singleton.mp new]
        exact trajectory_conversed built
  have start : I (.initial request (.initial calls.requestParser)) :=
    fun _ mem => absurd mem List.not_mem_nil
  exact keeps_processStream receive finalize (keeps_sendUsage fun _ _ h => h)
    (fun _ => stage _) _ start

end Coherence

section Ids

/-- The prompt's ids and the buffered ones are both there or both missing. -/
def SameIds (w : World (Pipeline.StreamContext π)) : Prop :=
  w.context.tokenIds.getD [] = [] ↔ w.stream.streamBufferIds = []

/-- A stream that ends or is cancelled, and whose trajectory can be built, has ids of
the prompt exactly if it has ids of a response. -/
def TokenStreamCalls.Recoverable (calls : TokenStreamCalls π) (request : Request) : Prop :=
  calls.receive.Ends (.initial request (.initial calls.requestParser))
    (fun _ w => ∀ t, calls.trajectory w = .ok t → SameIds w)
    fun e w => e = .cancelled → ∀ t, calls.trajectory w = .ok t → SameIds w

/-- What `_finalize_stream` makes of the ids. -/
theorem trajectory_ids {t : Pipeline.Trajectory} (h : calls.trajectory w = .ok t) :
    t.responseIds = some w.stream.streamBufferIds ∧
      t.counts.promptTokens =
        ((w.context.tokenIds.map List.length).map fun n : Nat => Json.int n).getD .null ∧
      t.fullConversationTokenIds = joinedIds w.context.tokenIds (some w.stream.streamBufferIds) := by
  obtain ⟨promptText, -, built⟩ := trajectory_built h
  obtain ⟨raw, -, same⟩ := bind_eq_ok built
  obtain rfl := Except.ok.inj same
  exact ⟨rfl, rfl, rfl⟩

/-- A world as the loop or a `_finalize_stream` leaves it. -/
def Unfinished (w : World (Pipeline.StreamContext π)) : Prop :=
  w.context.fullConversationTokenIds = none ∨
    w.context.fullConversationTokenIds = joinedIds w.context.tokenIds (some w.stream.streamBufferIds)

theorem finalized_full {t : Pipeline.Trajectory} (h : calls.trajectory w = .ok t)
    (unfinished : Unfinished w) : (w.context.finalized t).fullConversationTokenIds =
      joinedIds w.context.tokenIds (some w.stream.streamBufferIds) := by
  change t.fullConversationTokenIds.or w.context.fullConversationTokenIds = _
  rw [(trajectory_ids h).2.2]
  obtain none | same := unfinished
  · rw [none, Option.or_none]
  · rw [same, Option.or_self]

theorem finalized_recovered_iff {t : Pipeline.Trajectory} (h : calls.trajectory w = .ok t)
    (unfinished : Unfinished w) : IdsRecovered (w.context.finalized t) ↔ SameIds w := by
  obtain ⟨responseIds, promptTokens, -⟩ := trajectory_ids h
  have full : (w.context.finalized t).fullConversationTokenIds =
      joinedIds (w.context.finalized t).tokenIds (w.context.finalized t).responseIds := by
    change _ = joinedIds w.context.tokenIds t.responseIds
    rw [finalized_full h unfinished, responseIds]
  rw [idsRecovered_iff full]
  change Splits (w.context.tokenIds.getD []) (t.responseIds.getD []) t.counts.promptTokens ↔ _
  rw [responseIds, promptTokens, SameIds]
  cases w.context.tokenIds with
  | none => exact (splits_of_nil _ _).trans ⟨fun h => ⟨fun _ => h, fun _ => rfl⟩, fun h => h.mp rfl⟩
  | some ids => exact splits_length_iff ids _

/-- What `_finalize_stream` reads is as in the first world, and every context handed
over gives its ids back. -/
structure Finalizing (w w' : World (Pipeline.StreamContext π)) : Prop where
  stream : w'.stream = w.stream
  promptText : w'.context.promptText = w.context.promptText
  tokenIds : w'.context.tokenIds = w.context.tokenIds
  unfinished : Unfinished w'
  handed : ∀ c ∈ w'.handed, IdsRecovered c

theorem keeps_finalizing_finalizeStream (same : ∀ t, calls.trajectory w = .ok t → SameIds w) :
    Py.Keeps (Finalizing w) (calls.finalizeStream env) := by
  intro w' h
  have trajectory : calls.trajectory w' = calls.trajectory w := by
    rw [TokenStreamCalls.trajectory, h.promptText, h.tokenIds, h.stream]
    rfl
  rw [finalizeStream_run]
  cases built : calls.trajectory w' with
  | error e => exact h
  | ok t =>
    have sameIds : SameIds w' := by
      rw [SameIds, h.tokenIds, h.stream]
      exact same t (trajectory.symm.trans built)
    have full := finalized_full built h.unfinished
    have handed : ∀ c ∈ w'.handed ++ [w'.context.finalized t], IdsRecovered c := by
      intro c mem
      rcases List.mem_append.mp mem with old | new
      · exact h.handed c old
      · rw [List.mem_singleton.mp new]
        exact (finalized_recovered_iff built h.unfinished).mpr sameIds
    dsimp only
    rw [storeTrajectory_run]
    cases env.insert w'.handed.length with
    | stored => exact ⟨h.stream, h.promptText, h.tokenIds, Or.inr full, handed⟩
    | databaseError message => exact ⟨h.stream, h.promptText, h.tokenIds, Or.inr full, handed⟩
    | raised e => exact ⟨h.stream, h.promptText, h.tokenIds, Or.inr full, handed⟩

theorem finalizeStream_handed {t : Pipeline.Trajectory} (h : calls.trajectory w = .ok t) :
    w.context.finalized t ∈ ((calls.finalizeStream env).run w).2.handed := by
  rw [finalizeStream_run, h]
  dsimp only
  rw [storeTrajectory_handed]
  exact List.mem_append_right _ (List.mem_singleton_self _)

theorem keeps_handed_finalizeStream (c : ProcessContext) :
    Py.Keeps (fun w => c ∈ w.handed) (calls.finalizeStream env) := by
  intro w mem
  rw [finalizeStream_run]
  cases calls.trajectory w with
  | error e => exact mem
  | ok t => exact keeps_handed_storeTrajectory c _ mem


/-- Code that starts with `_finalize_stream` in this world. -/
theorem finalize_recovered_iff {m : Py (World (Pipeline.StreamContext π)) Unit}
    (unfinished : Unfinished w) (fresh : w.handed = [])
    (keeps : (∀ t, calls.trajectory w = .ok t → SameIds w) → Py.Keeps (Finalizing w) m)
    (handed : ∀ t, calls.trajectory w = .ok t →
      w.context.finalized t ∈ (m.run w).2.handed) :
    (∀ c ∈ (m.run w).2.handed, IdsRecovered c) ↔
      ∀ t, calls.trajectory w = .ok t → SameIds w := by
  refine ⟨fun all t built => ?_, fun same => ?_⟩
  · exact (finalized_recovered_iff built unfinished).mp (all _ (handed t built))
  · have start : Finalizing w w :=
      ⟨rfl, rfl, rfl, unfinished, fun c mem => absurd (fresh ▸ mem) List.not_mem_nil⟩
    exact (keeps same w start).handed

theorem keeps_finalizing_failed (e : Raised) :
    Py.Keeps (Finalizing w) (onContext (Py.modify (·.failed env e))) :=
  fun _ h => ⟨h.stream, h.promptText, h.tokenIds, h.unfinished, h.handed⟩

theorem keeps_finalizing_sendUsage : Py.Keeps (Finalizing w) calls.sendUsage :=
  keeps_sendUsage fun _ _ h => ⟨h.stream, h.promptText, h.tokenIds, h.unfinished, h.handed⟩

theorem keeps_handed_sendUsage (c : ProcessContext) :
    Py.Keeps (fun w => c ∈ w.handed) calls.sendUsage :=
  keeps_sendUsage fun _ _ mem => mem

/-- The contexts handed over after the loop has ended, or was cancelled. -/
theorem processStream_recovered_iff (env : Surroundings) (calls : TokenStreamCalls π)
    (request : Request) :
    (∀ c ∈ (Run.tokenStream calls).handed env request, IdsRecovered c) ↔
      calls.Recoverable request := by
  let start : World (Pipeline.StreamContext π) := .initial request (.initial calls.requestParser)
  let I (w : World (Pipeline.StreamContext π)) : Prop :=
    w.context.fullConversationTokenIds = none ∧ w.handed = []
  have received : calls.receive.Ends start (fun _ w => I w) fun _ w => I w := by
    have transform : Py.Keeps I (onContext (transformMessages calls.convert)) := by
      intro w h
      rw [onContext_run]
      unfold transformMessages
      cases calls.convert <;> exact h
    have encode : Py.Keeps I (onContext (encodeText calls.encode)) := by
      intro w h
      rw [onContext_run]
      unfold encodeText
      cases calls.encode <;> exact h
    have take : ∀ round, Py.Keeps I (calls.takeChunk round) := keeps_takeChunk fun _ _ _ h => h
    exact Py.ends_state.mpr (keeps_receive transform encode take start ⟨rfl, rfl⟩)
  have final := Py.ends_state (m := calls.processStream env) (s := start)
    (P := fun w => ∀ c ∈ w.handed, IdsRecovered c)
  refine final.symm.trans ?_
  let onCancelled : Py (World (Pipeline.StreamContext π)) Unit := do
    Py.tryExcept (calls.finalizeStream env) fun _ => pure ()
    Py.raise .cancelled
  have again : ∀ w, (∀ t, calls.trajectory w = .ok t → SameIds w) →
      Py.Keeps (Finalizing w) onCancelled :=
    fun w same => ((keeps_finalizing_finalizeStream same).tryExcept fun _ =>
      Py.keeps_pure ()).bind fun _ => Py.keeps_raise _
  have handedAgain : ∀ c, Py.Keeps (fun w => c ∈ w.handed) onCancelled :=
    fun c => ((keeps_handed_finalizeStream c).tryExcept fun _ => Py.keeps_pure ()).bind
      fun _ => Py.keeps_raise _
  unfold TokenStreamCalls.processStream TokenStreamCalls.Recoverable
  rw [Py.ends_tryCancelled, Py.ends_bind]
  refine received.congr ?_ ?_
  · intro _ w ⟨full, fresh⟩
    rw [← Py.ends_tryCancelled, Py.ends_state]
    refine finalize_recovered_iff (Or.inl full) fresh ?_ ?_
    · intro same
      refine Py.Keeps.tryCancelled ?_ (again w same) fun e => ?_
      · exact (keeps_finalizing_finalizeStream same).bind fun _ => keeps_finalizing_sendUsage
      · exact (keeps_finalizing_failed e).bind fun _ => Py.keeps_raise e
    · intro t built
      let H (w' : World (Pipeline.StreamContext π)) : Prop := w.context.finalized t ∈ w'.handed
      have first : H ((calls.finalizeStream env).run w).2 := finalizeStream_handed built
      exact Py.state_tryCancelled (Py.state_bind first fun _ => keeps_handed_sendUsage _)
        (handedAgain _) fun _ _ mem => mem
  · intro e w ⟨full, fresh⟩
    by_cases cancelled : e = .cancelled
    · rw [if_pos cancelled, Py.ends_state]
      refine Iff.trans ?_ (forall_prop_of_true cancelled).symm
      refine finalize_recovered_iff (Or.inl full) fresh (again w) ?_
      intro t built
      let H (w' : World (Pipeline.StreamContext π)) : Prop := w.context.finalized t ∈ w'.handed
      have first : H ((calls.finalizeStream env).run w).2 := finalizeStream_handed built
      exact Py.state_bind (Py.state_tryExcept first fun _ => Py.keeps_pure ()) fun _ =>
        Py.keeps_raise _
    · -- Nothing is stored in any other end.
      have none : ∀ c ∈ w.handed, IdsRecovered c :=
        fun c mem => absurd (fresh ▸ mem) List.not_mem_nil
      rw [if_neg cancelled]
      refine iff_of_true ?_ fun same => absurd same cancelled
      split_ifs <;> exact none

theorem tokenStream_recovered_iff (calls : TokenStreamCalls π) (request : Request)
    (tokenizerPath : String) :
    (∀ c ∈ (Run.tokenStream calls).handed env request, Recovered tokenizerPath c) ↔
      calls.Recoverable request := by
  refine Iff.trans ?_ (processStream_recovered_iff env calls request)
  exact forall₂_congr fun c mem =>
    recovered_iff (tokenStream_coherent calls request c mem) tokenizerPath

end Ids

end TrajProxy.Record
