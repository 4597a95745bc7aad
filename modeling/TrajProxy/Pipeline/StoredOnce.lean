import TrajProxy.Pipeline.Attempts

/-! Which requests attempt exactly one store. The run of each function is
computed up to its store; what its handlers add is counted from there. -/

namespace TrajProxy.Pipeline

variable {e : Raised} {s : Attempts}

theorem storeTrajectory_run_raised {insert : Nat → InsertOutcome}
    (h : insert s.stores = .raised e) :
    (storeTrajectory insert).run s = (.error e, { s with stores := s.stores + 1 }) := by
  simp [storeTrajectory, Py.run_bind, h]

theorem storeTrajectory_run_ok {insert : Nat → InsertOutcome}
    (h : ∀ e, insert s.stores ≠ .raised e) :
    (storeTrajectory insert).run s = (.ok (), { s with stores := s.stores + 1 }) := by
  cases hi : insert s.stores with
  | raised e => exact absurd hi (h e)
  | stored => simp [storeTrajectory, Py.run_bind, hi]
  | databaseError => simp [storeTrajectory, Py.run_bind, hi]

theorem storeTrajectory_state (insert : Nat → InsertOutcome) (s : Attempts) :
    ((storeTrajectory insert).run s).2 = { s with stores := s.stores + 1 } := by
  by_cases h : ∃ e, insert s.stores = .raised e
  · obtain ⟨e, he⟩ := h
    rw [storeTrajectory_run_raised he]
  · simp only [not_exists] at h
    rw [storeTrajectory_run_ok h]

theorem storeFailed_stores (insert : Nat → InsertOutcome) (e : Raised) (s : Attempts) :
    ((storeFailed insert e).run s).2.stores = s.stores + 1 := by
  have hstate := storeTrajectory_state insert s
  simp only [storeFailed, Py.run_bind, Py.run_tryExcept]
  cases hrun : (storeTrajectory insert).run s with
  | mk result s' =>
    rw [hrun] at hstate
    cases result with
    | ok _ => simp [hstate]
    | error e' =>
      by_cases he : e'.isException = true
      · simp [he, hstate]
      · simp [he, hstate]

/-- What the handler of `process` adds to a body that has ended. -/
theorem tryStoreFailed_stores (body : Py Attempts Unit) (insert : Nat → InsertOutcome)
    (s : Attempts) :
    ((Py.tryExcept body (storeFailed insert)).run s).2.stores =
      match body.run s with
      | (.ok _, s') => s'.stores
      | (.error e, s') => if e.isException then s'.stores + 1 else s'.stores := by
  rw [Py.run_tryExcept]
  cases body.run s with
  | mk result s' =>
    cases result with
    | ok _ => rfl
    | error e =>
      by_cases he : e.isException = true
      · simp [he, storeFailed_stores]
      · simp [he]

theorem transformMessages_run (transform : Except Raised String) (s : Attempts) :
    (transformMessages transform).run s = match transform with
      | .ok text => (.ok (), { s with promptText := some text })
      | .error e => (.error e, s) := by
  cases transform <;> rfl

theorem streamRounds_run (exhausted : Option Raised) (rounds : List Round) (s : Attempts) :
    (streamRounds exhausted rounds).run s = match roundsRaised exhausted rounds with
      | some e => (.error e, s)
      | none => (.ok (), s) := by
  induction rounds with
  | nil =>
    simp only [streamRounds, Py.run_callAll, roundsRaised]
    cases exhausted <;> rfl
  | cons round rest ih =>
    simp only [streamRounds, Py.run_bind, Py.run_callAll, roundsRaised]
    cases Py.firstRaised round.calls with
    | some e => rfl
    | none =>
      cases round.finished with
      | true => rfl
      | false => exact ih

theorem tokenProcess_stores (script : TokenScript) :
    ((tokenProcess script).run Attempts.initial).2.stores =
      match script.raised with
      | some e => if e.isException then 1 else 0
      | none => match script.insert 0 with
        | .raised e => if e.isException then 2 else 1
        | _ => 1 := by
  unfold tokenProcess TokenScript.raised
  rw [tryStoreFailed_stores, Py.run_bind, transformMessages_run]
  cases script.transform with
  | error e => rfl
  | ok text =>
    simp only [Py.run_bind, Py.run_callAll]
    cases Py.firstRaised script.stages with
    | some e => rfl
    | none =>
      cases hi : script.insert 0 with
      | raised e => simp [storeTrajectory_run_raised, hi, Attempts.initial]
      | stored => simp [storeTrajectory_run_ok, hi, Attempts.initial]
      | databaseError => simp [storeTrajectory_run_ok, hi, Attempts.initial]

theorem directProcess_stores (script : DirectScript) :
    ((directProcess script).run Attempts.initial).2.stores =
      match Py.firstRaised [script.inference, script.extractFields, script.updateTiming] with
      | some e => if e.isException then 1 else 0
      | none => match script.insert 0, script.postprocess with
        | .raised e, _ => if e.isException then 2 else 1
        | _, some e => if e.isException then 2 else 1
        | _, none => 1 := by
  unfold directProcess
  rw [tryStoreFailed_stores]
  simp only [Py.run_bind, Py.run_callAll]
  cases Py.firstRaised [script.inference, script.extractFields, script.updateTiming] with
  | some e => rfl
  | none =>
    cases hi : script.insert 0 with
    | raised e => simp [storeTrajectory_run_raised, hi, Attempts.initial]
    | stored =>
      cases hp : script.postprocess <;>
        simp [storeTrajectory_run_ok, hi, Attempts.initial, Py.firstRaised]
    | databaseError =>
      cases hp : script.postprocess <;>
        simp [storeTrajectory_run_ok, hi, Attempts.initial, Py.firstRaised]

theorem tokenFinalize_run_failed {script : TokenStreamScript} {message : String}
    (h : script.finalize s.finalizes = some message) :
    (tokenFinalize script).run s =
      (.error (.exception message), { s with finalizes := s.finalizes + 1 }) := by
  simp [tokenFinalize, Py.run_bind, h]

theorem tokenFinalize_run_noPrompt {script : TokenStreamScript}
    (h : script.finalize s.finalizes = none) (hp : s.promptText = none) :
    (tokenFinalize script).run s =
      (.error (.exception "TypeError"), { s with finalizes := s.finalizes + 1 }) := by
  simp [tokenFinalize, Py.run_bind, h, hp]

theorem tokenFinalize_run_store {script : TokenStreamScript} {text : String}
    (h : script.finalize s.finalizes = none) (hp : s.promptText = some text) :
    (tokenFinalize script).run s =
      (storeTrajectory script.insert).run { s with finalizes := s.finalizes + 1 } := by
  simp [tokenFinalize, Py.run_bind, h, hp]

/-- One more call of `_finalize_stream` stores once more unless it fails first. -/
theorem tokenFinalize_stores (script : TokenStreamScript) (s : Attempts) :
    ((tokenFinalize script).run s).2.stores =
      if script.finalize s.finalizes = none ∧ s.promptText.isSome then s.stores + 1
      else s.stores := by
  cases hf : script.finalize s.finalizes with
  | some message => simp [tokenFinalize_run_failed hf]
  | none =>
    cases hp : s.promptText with
    | none => simp [tokenFinalize_run_noPrompt hf hp]
    | some text => simp [tokenFinalize_run_store hf hp, storeTrajectory_state]

/-- What the two handlers of `process_stream` add to a body that has ended. -/
theorem tryFinalize_stores (script : TokenStreamScript) (body : Py Attempts Unit)
    (s : Attempts) :
    ((Py.tryCancelled body
      (do
        Py.tryExcept (tokenFinalize script) fun _ => pure ()
        Py.raise .cancelled)
      Py.raise).run s).2.stores =
      match body.run s with
      | (.ok _, s') => s'.stores
      | (.error e, s') =>
        if e = .cancelled then ((tokenFinalize script).run s').2.stores else s'.stores := by
  rw [Py.run_tryCancelled]
  cases body.run s with
  | mk result s' =>
    cases result with
    | ok _ => rfl
    | error e =>
      by_cases hc : e = .cancelled
      · simp only [hc, if_true, Py.run_bind, Py.run_tryExcept]
        cases (tokenFinalize script).run s' with
        | mk result' s'' =>
          cases result' with
          | ok _ => rfl
          | error e' => by_cases he : e'.isException = true <;> simp [he]
      · by_cases he : e.isException = true <;> simp [hc, he]

theorem usageYield_eq_cancelled_iff (yielded : Option (Option Raised)) :
    Py.firstRaised [yielded.getD none] = some .cancelled ↔ yielded = some (some .cancelled) := by
  cases yielded with
  | none => simp [Py.firstRaised]
  | some outcome => cases outcome <;> simp [Py.firstRaised]

theorem finalizeAndYield_stores (script : TokenStreamScript) (s : Attempts)
    (hs : s.stores = 0) (hf : s.finalizes = 0) (hp : s.promptText.isSome)
    (h0 : script.finalize 0 = none) :
    (match (tokenFinalize script >>= fun _ => Py.callAll [script.usageYield.getD none]).run s with
      | (.ok _, s') => s'.stores
      | (.error e, s') =>
        if e = .cancelled then ((tokenFinalize script).run s').2.stores else s'.stores) = 1 ↔
      (script.CancelledAfterStore → script.finalize 1 ≠ none) := by
  obtain ⟨text, htext⟩ := Option.isSome_iff_exists.mp hp
  have hagain : ∀ s' : Attempts, s'.stores = 1 → s'.finalizes = 1 → s'.promptText = some text →
      (((tokenFinalize script).run s').2.stores = 1 ↔ script.finalize 1 ≠ none) := by
    intro s' hs' hf' hp'
    rw [tokenFinalize_stores, hs', hf', hp']
    by_cases h1 : script.finalize 1 = none <;> simp [h1]
  rw [Py.run_bind, tokenFinalize_run_store (hf ▸ h0) htext]
  by_cases hraised : ∃ e, script.insert s.stores = .raised e
  · obtain ⟨e, he⟩ := hraised
    have hinsert : script.insert 0 = .raised e := hs ▸ he
    rw [storeTrajectory_run_raised (by exact he)]
    by_cases hc : e = .cancelled
    · have hcan : script.CancelledAfterStore := Or.inl (hc ▸ hinsert)
      simp only [hc, if_true, hcan, true_implies]
      exact hagain _ (by simp [hs]) (by simp [hf]) htext
    · have hcan : ¬script.CancelledAfterStore := by
        rintro (h | ⟨h, _⟩)
        · exact hc (InsertOutcome.raised.inj (hinsert.symm.trans h))
        · exact h e hinsert
      simp [hc, hcan, hs]
  · simp only [not_exists] at hraised
    have hinsert : ∀ e, script.insert 0 ≠ .raised e := hs ▸ hraised
    rw [storeTrajectory_run_ok (by exact hraised)]
    simp only [Py.run_callAll]
    have hcan : script.CancelledAfterStore ↔
        Py.firstRaised [script.usageYield.getD none] = some .cancelled := by
      rw [usageYield_eq_cancelled_iff]
      refine ⟨?_, ?_⟩
      · rintro (h | ⟨_, h⟩)
        · exact absurd h (hinsert _)
        · exact h
      · exact fun h => Or.inr ⟨hinsert, h⟩
    cases hy : Py.firstRaised [script.usageYield.getD none] with
    | none => simp [hcan, hy, hs]
    | some e =>
      by_cases hc : e = .cancelled
      · simp only [hc, if_true, hcan, hy, true_implies]
        exact hagain _ (by simp [hs]) (by simp [hf]) htext
      · simp [hc, hcan, hy, hs]

theorem tokenProcess_storedOnce (script : TokenScript) :
    (Request.token script).stores = 1 ↔ script.StoredOnce := by
  have hstores : (Request.token script).stores = _ := tokenProcess_stores script
  rw [hstores]
  unfold TokenScript.StoredOnce
  cases script.raised with
  | some e => cases h : e.isException <;> simp [h]
  | none =>
    cases hi : script.insert 0 with
    | raised e => cases h : e.isException <;> simp [h]
    | stored => simp
    | databaseError => simp

theorem directProcess_storedOnce (script : DirectScript) :
    (Request.direct script).stores = 1 ↔ script.StoredOnce := by
  have hstores : (Request.direct script).stores = _ := directProcess_stores script
  rw [hstores]
  unfold DirectScript.StoredOnce
  cases Py.firstRaised [script.inference, script.extractFields, script.updateTiming] with
  | some e => cases h : e.isException <;> simp [h]
  | none =>
    cases hi : script.insert 0 with
    | raised e => cases h : e.isException <;> simp [h]
    | stored =>
      cases hp : script.postprocess with
      | none => simp
      | some e => cases h : e.isException <;> simp [h]
    | databaseError =>
      cases hp : script.postprocess with
      | none => simp
      | some e => cases h : e.isException <;> simp [h]

theorem directProcessStream_storedOnce (script : DirectStreamScript) :
    (Request.directStream script).stores = 1 ↔ script.StoredOnce := by
  unfold Request.stores Request.run directProcessStream DirectStreamScript.StoredOnce
  rw [Py.run_tryExcept, Py.run_bind, streamRounds_run]
  cases roundsRaised script.exhausted (script.rounds.map ({ · with finished := false })) with
  | some e => cases h : e.isException <;> simp [h, Attempts.initial]
  | none =>
    cases hf : script.finalize with
    | some message => simp [directFinalize, hf, Raised.isException, Attempts.initial]
    | none =>
      simp only [directFinalize, hf, true_and, iff_true]
      have hstate := storeTrajectory_state script.insert Attempts.initial
      cases hrun : (storeTrajectory script.insert).run Attempts.initial with
      | mk result s' =>
        rw [hrun] at hstate
        cases result with
        | ok _ => exact congrArg Attempts.stores hstate
        | error e =>
          have hs : s'.stores = 1 := congrArg Attempts.stores hstate
          cases h : e.isException <;> simp [h, hs]

theorem tokenProcessStream_storedOnce (script : TokenStreamScript) :
    (Request.tokenStream script).stores = 1 ↔ script.StoredOnce := by
  unfold Request.stores Request.run tokenProcessStream TokenStreamScript.StoredOnce
    TokenStreamScript.raised
  rw [tryFinalize_stores, Py.run_bind, transformMessages_run]
  cases ht : script.transform with
  | error e =>
    by_cases hc : e = .cancelled <;>
      simp [hc, tokenFinalize_stores, Attempts.initial, Except.isOk, Except.toBool]
  | ok text =>
    dsimp only
    rw [Py.run_bind, Py.run_callAll]
    cases Py.firstRaised [script.encode, script.createParser] with
    | some e =>
      by_cases hc : e = .cancelled <;>
        simp [hc, tokenFinalize_stores, Attempts.initial, Except.isOk, Except.toBool]
    | none =>
      dsimp only
      rw [Py.run_bind, streamRounds_run]
      cases roundsRaised script.exhausted script.rounds with
      | some e =>
        by_cases hc : e = .cancelled <;>
          simp [hc, tokenFinalize_stores, Attempts.initial, Except.isOk, Except.toBool]
      | none =>
        dsimp only
        cases h0 : script.finalize 0 with
        | some message =>
          let s : Attempts := { Attempts.initial with promptText := some text }
          have hrun :=
            tokenFinalize_run_failed (show script.finalize s.finalizes = some message from h0)
          rw [Py.run_bind, hrun]
          simp [s, Attempts.initial]
        | none =>
          rw [finalizeAndYield_stores script _ rfl rfl rfl h0]
          simp

/-- `_store_trajectory` is attempted exactly once for the requests of `StoredOnce`
and for no others. -/
theorem stores_eq_one_iff (request : Request) : request.stores = 1 ↔ request.StoredOnce := by
  cases request with
  | token script => exact tokenProcess_storedOnce script
  | tokenStream script => exact tokenProcessStream_storedOnce script
  | direct script => exact directProcess_storedOnce script
  | directStream script => exact directProcessStream_storedOnce script

/-- A stream of the direct pipeline whose first upstream read fails is never
stored; `process` stores on the same failure. -/
theorem failedStream_notStored : ¬∀ request : Request, request.stores = 1 := by
  intro h
  let round : Round := ⟨some (.exception "InferServiceError"), none, none, false⟩
  have hstores := h (.directStream ⟨[round], none, none, fun _ => .stored⟩)
  exact absurd hstores (by decide)

end TrajProxy.Pipeline
