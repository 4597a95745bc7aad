import TrajProxy.Direct.Received
import TrajProxy.Record.DirectRecovery

/-! Which upstream answers `DirectPipeline` takes: a response whose fields may be
missing or `null`, and a stream of such chunks. -/

namespace TrajProxy.Record

variable {σ α : Type} {env : Surroundings} {w : World σ}

/-- Neither `null` choices nor a `null` usage, and no `null` message of the first
choice. -/
structure ChatResponse.Tolerated (response : ChatResponse) : Prop where
  readable : response.readable
  usage : response.usage ≠ .null
  choices : response.choices ≠ .null

/-- `insert` takes the first context it is handed, or says what went wrong. -/
def Surroundings.Stores (env : Surroundings) : Prop :=
  ∀ e, env.insert 0 ≠ .raised e

section Stages

theorem storeTrajectory_returns (fresh : w.handed = []) :
    (storeTrajectory env).Ends w (fun _ _ => env.Stores) fun _ _ => ¬env.Stores := by
  unfold Py.Ends Surroundings.Stores
  rw [storeTrajectory_run, fresh, List.length_nil]
  cases hinsert : env.insert 0 with
  | stored => exact fun _ h => (nomatch h)
  | databaseError message => exact fun _ h => (nomatch h)
  | raised e => exact fun stores => stores e rfl

/-- `process` returns if the stages, the store and what is done after it do. -/
theorem runStages_returns_iff {stages : Py ProcessContext α}
    {postprocess : α → Py ProcessContext Unit} {total : Prop} {fits : α → Prop}
    (hstages : stages.Ends w.context (fun a _ => fits a ↔ total) fun _ _ => ¬total)
    (hpost : ∀ a c, (postprocess a).Ends c (fun _ _ => fits a) fun _ _ => ¬fits a)
    (fresh : w.handed = []) :
    (runStages env stages postprocess).Ends w (fun _ _ => True) (fun _ _ => False) ↔
      total ∧ env.Stores := by
  unfold runStages
  rw [Py.ends_tryExcept, Py.ends_bind, ends_onContext]
  have failed : ∀ (e : Raised) (w' : World σ),
      ¬if e.isException = true then
        (storeFailed env e).Ends w' (fun _ _ => True) fun _ _ => False
      else False := by
    intro e w'
    split_ifs
    · intro returns
      have raises : (storeFailed env e).Ends w' (fun _ _ => False) fun _ _ => True :=
        storeFailed_raises e w'
      unfold Py.Ends at raises returns
      cases hrun : (storeFailed env e).run w' with
      | mk result w'' =>
        rw [hrun] at raises returns
        cases result with
        | ok _ => exact raises
        | error _ => exact returns
    · exact id
  refine hstages.iff ?_ fun e c not => ?_
  · intro a c decided
    rw [Py.ends_bind, ← decided, and_comm]
    refine (storeTrajectory_returns (w := { w with context := c }) fresh).iff ?_ ?_
    · intro _ w' stores
      rw [and_iff_right stores, ends_onContext]
      refine (hpost a w'.context).iff ?_ ?_
      · exact fun _ _ fits => iff_of_true trivial fits
      · exact fun e _ unfit => iff_of_false (failed e _) unfit
    · intro e w' not
      exact iff_of_false (failed e w') fun h => not h.1
  · exact iff_of_false (failed e _) fun h => not h.1

end Stages

section Response

theorem readChoice_choices (response : ChatResponse) (c : ProcessContext) :
    (readChoice response).Ends c
      (fun response' _ => response'.choices = .null ↔ response.choices = .null)
      fun _ _ => True := by
  unfold readChoice
  split
  · next choice rest there =>
    split
    · trivial
    · change Field.value _ = .null ↔ response.choices = .null
      rw [there]
      exact iff_of_false (fun h => (nomatch h)) fun h => (nomatch h)
  · exact Iff.rfl

theorem readUsage_ends (usage : Field (Items Json)) (c : ProcessContext) :
    (readUsage usage).Ends c (fun _ _ => usage ≠ .null) fun _ _ => usage = .null := by
  cases usage with
  | missing => exact fun h => (nomatch h)
  | null => rfl
  | value usage => exact fun h => (nomatch h)

theorem prepareResponse_returns (response : ChatResponse) (c : ProcessContext) :
    (prepareResponse response).Ends c (fun _ _ => response.choices ≠ .null)
      fun _ _ => ¬response.choices ≠ .null := by
  unfold prepareResponse
  split
  · next null => exact not_not_intro null
  · next there => exact there

/-- What is left to decide after a response was read. -/
theorem readResponse_ends (response : ChatResponse) (c : ProcessContext) :
    (readResponse (.ok response)).Ends c
      (fun response' _ => response'.choices ≠ .null ↔ response.Tolerated)
      fun _ _ => ¬response.Tolerated := by
  unfold readResponse
  rw [Py.ends_bind, Py.ends_ofExcept]
  dsimp only
  rw [Py.ends_bind, Py.ends_modify, Py.ends_bind]
  have read := (readChoice_ids response { c with rawResponse := some response.toItems }).and
    (readChoice_choices response { c with rawResponse := some response.toItems })
  refine read.mono ?_ ?_
  · intro response' c' ⟨⟨readable, ids⟩, choices⟩
    rw [Py.ends_bind, Py.ends_modify, Py.ends_bind, Py.ends_modify, Py.ends_bind, ids.usage]
    refine (readUsage_ends response.usage _).mono ?_ ?_
    · intro _ _ usage
      refine ⟨fun there => ⟨readable, usage, fun null => there (choices.mpr null)⟩, ?_⟩
      exact fun tolerated null => tolerated.choices (choices.mp null)
    · exact fun _ _ null tolerated => tolerated.usage null
  · exact fun _ _ ⟨⟨unreadable, _⟩, _⟩ tolerated => unreadable tolerated.readable

theorem directProcess_returns_iff (env : Surroundings) (request : Request)
    (response : ChatResponse) :
    (directProcess env (.ok response)).Ends (.initial request ()) (fun _ _ => True)
      (fun _ _ => False) ↔ response.Tolerated ∧ env.Stores :=
  runStages_returns_iff (readResponse_ends response _) prepareResponse_returns rfl

end Response

/-- A successful answer of the upstream is passed on exactly if it has no `null`
where the pipeline looks into a field. -/
theorem directTolerates_iff (env : Surroundings) (request : Request) (response : ChatResponse)
    (generated : Items Json) (chunks : List Direct.ReceivedChunk) :
    ((directProcess env (.ok response)).Ends (.initial request ()) (fun _ _ => True)
        (fun _ _ => False) ↔ response.Tolerated ∧ env.Stores) ∧
      ((∃ answer, Direct.answerStream generated chunks = .ok answer) ↔
        ∀ chunk ∈ chunks, chunk.Readable) :=
  ⟨directProcess_returns_iff env request response, Direct.answerStream_ok_iff generated⟩

/-- A chunk with `null` choices ends the stream. -/
theorem nullChoices_raise :
    ¬∀ (env : Surroundings) (request : Request) (response : ChatResponse) (generated : Items Json)
      (chunks : List Direct.ReceivedChunk), env.Stores →
      (directProcess env (.ok response)).Ends (.initial request ()) (fun _ _ => True)
          (fun _ _ => False) ∧
        ∃ answer, Direct.answerStream generated chunks = .ok answer := by
  intro h
  have stores : quiet.Stores := fun e h => (nomatch h)
  obtain ⟨_, answer, hanswer⟩ := h quiet plainRequest ⟨.missing, .missing, .missing, []⟩ []
    [⟨.null, .missing, .missing, []⟩] stores
  nomatch hanswer

end TrajProxy.Record
