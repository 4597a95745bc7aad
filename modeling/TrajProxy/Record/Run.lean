import TrajProxy.Record.Direct
import TrajProxy.Record.Token

/-! A request of either pipeline, streaming or not: what it handed to `insert`
and what it sent to the client. -/

namespace TrajProxy.Record

variable {σ α π : Type} {env : Surroundings} {w : World σ}

section Store

/-- A property of a context that no handler of an exception changes. -/
structure Settling (I : ProcessContext → Prop) : Prop where
  notStored : ∀ message c, I (c.notStored message) ↔ I c
  failed : ∀ env e c, I (c.failed env e) ↔ I c

/-- The property of the context and of all that were handed over. -/
structure Settled (I : ProcessContext → Prop) (w : World σ) : Prop where
  context : I w.context
  handed : ∀ c ∈ w.handed, I c

theorem onContext_run (stage : Py ProcessContext α) (w : World σ) :
    (onContext stage).run w =
      ((stage.run w.context).1, { w with context := (stage.run w.context).2 }) := rfl

theorem ends_onContext (stage : Py ProcessContext α) {returns : α → World σ → Prop}
    {raises : Raised → World σ → Prop} :
    (onContext stage).Ends w returns raises ↔
      stage.Ends w.context (fun a c => returns a { w with context := c })
        (fun e c => raises e { w with context := c }) := by
  unfold Py.Ends
  rw [onContext_run]
  cases stage.run w.context with
  | mk result c => cases result <;> rfl

theorem keeps_onContext {I : ProcessContext → Prop} {stage : Py ProcessContext α}
    (h : Py.Keeps I stage) : Py.Keeps (Settled (σ := σ) I) (onContext stage) :=
  fun w settled => ⟨h w.context settled.context, settled.handed⟩

theorem storeTrajectory_run (env : Surroundings) (w : World σ) :
    (storeTrajectory env).run w =
      match env.insert w.handed.length with
      | .stored => (.ok (), { w with handed := w.handed ++ [w.context] })
      | .databaseError message => (.ok (), { w with
          handed := w.handed ++ [w.context]
          context := w.context.notStored message })
      | .raised e => (.error e, { w with handed := w.handed ++ [w.context] }) := by
  unfold storeTrajectory
  rw [Py.run_bind, Py.run_read]
  dsimp only
  rw [Py.run_bind, Py.run_modify]
  cases env.insert w.handed.length <;> rfl

theorem storeTrajectory_handed (env : Surroundings) (w : World σ) :
    ((storeTrajectory env).run w).2.handed = w.handed ++ [w.context] := by
  rw [storeTrajectory_run]
  cases env.insert w.handed.length <;> rfl

theorem keeps_storeTrajectory {I : ProcessContext → Prop} (settling : Settling I) :
    Py.Keeps (Settled (σ := σ) I) (storeTrajectory env) := by
  intro w settled
  have handed : ∀ c ∈ w.handed ++ [w.context], I c := by
    intro c mem
    rcases List.mem_append.mp mem with old | new
    · exact settled.handed c old
    · rw [List.mem_singleton.mp new]
      exact settled.context
  rw [storeTrajectory_run]
  cases env.insert w.handed.length with
  | stored => exact ⟨settled.context, handed⟩
  | databaseError message => exact ⟨(settling.notStored message _).mpr settled.context, handed⟩
  | raised e => exact ⟨settled.context, handed⟩

theorem keeps_failed {I : ProcessContext → Prop} (settling : Settling I) (e : Raised) :
    Py.Keeps (Settled (σ := σ) I) (onContext (Py.modify (·.failed env e))) :=
  keeps_onContext (Py.keeps_modify fun c h => (settling.failed env e c).mpr h)

theorem keeps_storeFailed {I : ProcessContext → Prop} (settling : Settling I) (e : Raised) :
    Py.Keeps (Settled (σ := σ) I) (storeFailed env e) :=
  (keeps_failed settling e).bind fun _ =>
    ((keeps_storeTrajectory settling).tryExcept fun _ => Py.keeps_pure ()).bind fun _ =>
      Py.keeps_raise e

end Store

section Handed

/-- What was handed over stays handed over. -/
theorem keeps_handed_storeTrajectory (c : ProcessContext) :
    Py.Keeps (fun w : World σ => c ∈ w.handed) (storeTrajectory env) := by
  intro w mem
  rw [storeTrajectory_handed]
  exact List.mem_append_left _ mem

theorem keeps_handed_storeFailed (c : ProcessContext) (e : Raised) :
    Py.Keeps (fun w : World σ => c ∈ w.handed) (storeFailed env e) :=
  Py.Keeps.bind (fun _ mem => mem) fun _ =>
    ((keeps_handed_storeTrajectory c).tryExcept fun _ => Py.keeps_pure ()).bind fun _ =>
      Py.keeps_raise e

/-- Stages that fail hand over one context, the one they left with the error in it. -/
theorem storeFailed_handed (e : Raised) (w : World σ) :
    ((storeFailed env e).run w).2.handed = w.handed ++ [w.context.failed env e] := by
  let mid : World σ := { w with context := w.context.failed env e }
  have first : (onContext (σ := σ) (Py.modify (·.failed env e))).run w = (.ok (), mid) := rfl
  unfold storeFailed
  rw [Py.run_bind_ok first]
  let I (w' : World σ) : Prop := w'.handed = mid.handed ++ [mid.context]
  have stored : I ((Py.tryExcept (storeTrajectory env) fun _ => pure ()).run mid).2 :=
    Py.state_tryExcept (storeTrajectory_handed env mid) fun _ => Py.keeps_pure ()
  exact Py.state_bind stored fun _ => Py.keeps_raise e

/-- Of the contexts handed over, the first decides. -/
theorem runStages_handed {Q : ProcessContext → Prop} (settling : Settling Q)
    {stages : Py ProcessContext α} {postprocess : α → Py ProcessContext Unit}
    (hpost : ∀ a c, Q c → (postprocess a).Ends c (fun _ _ => True) fun _ c' => Q c')
    (fresh : w.handed = []) :
    (∀ c ∈ ((runStages env stages postprocess).run w).2.handed, Q c) ↔
      stages.Ends w.context (fun _ c => Q c) fun e c => e.isException = true → Q c := by
  cases hrun : stages.run w.context with
  | mk result c =>
    have lifted : (onContext stages).run w = (result, { w with context := c }) := by
      rw [onContext_run, hrun]
    cases result with
    | error e =>
      rw [Py.ends_of_error hrun, runStages, Py.run_tryExcept_error (Py.run_bind_error lifted)]
      split_ifs with exception
      · rw [storeFailed_handed, fresh, List.nil_append]
        simp only [List.mem_singleton, forall_eq, exception, true_implies]
        exact settling.failed env e c
      · simp [fresh, exception]
    | ok a =>
      rw [Py.ends_of_ok hrun]
      let later : Py (World σ) Unit := do
        storeTrajectory env
        onContext (postprocess a)
      have run : (runStages env stages postprocess).run w =
          (Py.tryExcept later (storeFailed env)).run { w with context := c } := by
        rw [runStages, Py.run_tryExcept, Py.run_tryExcept, Py.run_bind_ok lifted]
      rw [run]
      have there :
          c ∈ ((Py.tryExcept later (storeFailed env)).run { w with context := c }).2.handed := by
        let I (w' : World σ) : Prop := c ∈ w'.handed
        have stored : I ((storeTrajectory env).run { w with context := c }).2 := by
          change c ∈ _
          rw [storeTrajectory_handed]
          exact List.mem_append_right _ (List.mem_singleton_self c)
        have after : I (later.run { w with context := c }).2 :=
          Py.state_bind stored fun _ _ mem => mem
        exact Py.state_tryExcept after (keeps_handed_storeFailed c)
      refine ⟨fun all => all c there, fun holds => ?_⟩
      have start : Settled Q { w with context := c } :=
        ⟨holds, fun c' mem => absurd (fresh ▸ mem) List.not_mem_nil⟩
      have stored : (storeTrajectory env).Ends { w with context := c }
          (fun _ w' => Settled Q w') fun _ w' => Settled Q w' :=
        Py.ends_state.mpr (keeps_storeTrajectory settling _ start)
      have body : later.Ends { w with context := c } (fun _ w' => ∀ c' ∈ w'.handed, Q c')
          fun _ w' => Settled Q w' := by
        refine (Py.ends_bind _ _).mpr (stored.mono ?_ fun _ _ h => h)
        intro _ w' settled
        refine (ends_onContext _).mpr ((hpost a w'.context settled.context).mono ?_ ?_)
        · exact fun _ c' _ => settled.handed
        · exact fun _ c' h => ⟨h, settled.handed⟩
      refine Py.ends_state.mp ((Py.ends_tryExcept _ _).mpr (body.mono (fun _ _ h => h) ?_))
      intro e w' settled
      split_ifs
      · exact Py.ends_state.mpr (keeps_storeFailed settling e w' settled).handed
      · exact settled.handed

theorem storeFailed_raises (e : Raised) (w : World σ) :
    (storeFailed env e).Ends w (fun _ _ => False) fun _ _ => True := by
  unfold storeFailed
  refine Py.ends_bind_any fun _ w' => Py.ends_bind_any fun _ w'' => ?_
  exact (Py.ends_raise e).mpr trivial

/-- What holds of the context when `process` returns. -/
theorem runStages_returned {Q : α → ProcessContext → Prop} {P : ProcessContext → Prop}
    {stages : Py ProcessContext α} {postprocess : α → Py ProcessContext Unit}
    (settling : ∀ a, Settling (Q a))
    (hstages : stages.Ends w.context Q fun _ _ => True)
    (hpost : ∀ a c, Q a c → (postprocess a).Ends c (fun _ c' => P c') fun _ _ => True) :
    (runStages env stages postprocess).Ends w (fun _ w' => P w'.context) fun _ _ => True := by
  have stored : ∀ a c, Q a c → (storeTrajectory env).Ends { w with context := c }
      (fun _ w' => Q a w'.context) fun _ _ => True := by
    intro a c h
    unfold Py.Ends
    rw [storeTrajectory_run]
    cases env.insert w.handed.length with
    | stored => exact h
    | databaseError message => exact ((settling a).notStored message c).mpr h
    | raised e => trivial
  let body : Py (World σ) Unit := do
    let result ← onContext stages
    storeTrajectory env
    onContext (postprocess result)
  have inner : body.Ends w (fun _ w' => P w'.context) fun _ _ => True := by
    refine (Py.ends_bind _ _).mpr ((ends_onContext _).mpr (hstages.mono ?_ fun _ _ _ => trivial))
    intro a c h
    refine (Py.ends_bind _ _).mpr ((stored a c h).mono ?_ fun _ _ _ => trivial)
    exact fun _ w' h' => (ends_onContext _).mpr (hpost a w'.context h')
  refine (Py.ends_tryExcept _ _).mpr (inner.mono (fun _ _ h => h) ?_)
  intro e w' _
  split_ifs
  · exact (storeFailed_raises e w').mono (fun _ _ h => h.elim) fun _ _ _ => trivial

end Handed

/-- A request on its way through a pipeline. -/
inductive Run (π : Type)
  | token (calls : TokenCalls)
  | tokenStream (calls : TokenStreamCalls π)
  | direct (inference : Except Raised ChatResponse)
  | directStream (calls : DirectStreamCalls)

/-- What `process` returns to the route: `context.raw_response`. -/
def returned (end_ : Except Raised Unit × World Unit) : List (Items Json) :=
  match end_ with
  | (.ok _, w) => w.context.rawResponse.toList
  | (.error _, _) => []

/-- The contexts `insert` was called with. -/
def Run.handed (env : Surroundings) (request : Request) : Run π → List ProcessContext
  | .token calls => ((calls.process env).run (.initial request ())).2.handed
  | .tokenStream calls =>
    ((calls.processStream env).run (.initial request (.initial calls.requestParser))).2.handed
  | .direct inference => ((directProcess env inference).run (.initial request ())).2.handed
  | .directStream calls => ((calls.processStream env).run (.initial request .initial)).2.handed

/-- The objects handed to the client: a response, or the chunks of a stream. -/
def Run.sent (env : Surroundings) (request : Request) : Run π → List (Items Json)
  | .token calls => returned ((calls.process env).run (.initial request ()))
  | .tokenStream calls =>
    ((calls.processStream env).run (.initial request (.initial calls.requestParser))).2.sent
  | .direct inference => returned ((directProcess env inference).run (.initial request ()))
  | .directStream calls => ((calls.processStream env).run (.initial request .initial)).2.sent

end TrajProxy.Record
