import TrajProxy.Store.Offloading

/-! What one call of `OffloadingRepository.insert` leaves behind.
The call is evaluated once along each of its paths (`insert_absent` to
`insert_offloaded`); `FailureSafe` is then compared with `OffloadSafe`, the
outcomes under which the degrade and rollback branches do what their comments
say. The first `try` covers the delegation of an oversized value as well, and
neither `except Exception` sees a cancellation. -/

namespace TrajProxy.Store

theorem isMarker_buildMarker (cfg : Config) (blobKey : String) :
    isMarker (buildMarker cfg blobKey) = true := by
  unfold buildMarker
  split <;> rfl

theorem dropRoutedExperts_set (value data : Json) :
    dropRoutedExperts (setRoutedExperts value data) = dropRoutedExperts data := by
  unfold setRoutedExperts
  split
  · rename_i items
    split
    · rename_i choice choices present
      simp [dropRoutedExperts, present, Items.set_set, Items.erase_set]
    · rfl
  · rfl

/-- A response with route_experts is an object whose first choice has them. -/
theorem extractFrom_some {data value : Json} (h : extractFrom data = some value) :
    ∃ items choice choices, data = .obj items ∧
      Items.get? items "choices" = some (.arr (.obj choice :: choices)) ∧
      Items.get? choice "routed_experts" = some value ∧ isMarker value = false := by
  unfold extractFrom at h
  cases first : firstChoice data with
  | none => simp [first] at h
  | some choice =>
    cases there : Items.get? choice "routed_experts" with
    | none => simp [first, there] at h
    | some found =>
      simp only [first, there] at h
      split at h
      · cases h
      · rename_i raw
        cases h
        unfold firstChoice at first
        split at first
        · rename_i items
          split at first
          · rename_i choices present
            cases first
            exact ⟨items, choice, choices, rfl, present, there, by simpa using raw⟩
          · cases first
        · cases first

theorem extractFrom_set_marker {data value : Json} (marker : Json)
    (h : extractFrom data = some value) (mark : isMarker marker = true) :
    extractFrom (setRoutedExperts marker data) = none := by
  obtain ⟨items, choice, choices, rfl, present, -, -⟩ := extractFrom_some h
  simp [setRoutedExperts, present, extractFrom, firstChoice, mark]

theorem setRoutedExperts_restore {data value : Json} (marker : Json)
    (h : extractFrom data = some value) :
    setRoutedExperts value (setRoutedExperts marker data) = data := by
  obtain ⟨items, choice, choices, rfl, present, there, -⟩ := extractFrom_some h
  simp only [setRoutedExperts, present, Items.get?_set_self]
  rw [Items.set_set_get choice _ _ _ there, Items.set_set_get items _ _ _ present]

section Context

variable {ρ : Type}

theorem extract_some {context : ProcessContext ρ} {value : Json} {source : SourceField}
    (h : extract context = some (value, source)) :
    extractFrom (context.response source) = some value := by
  unfold extract at h
  split at h
  · rename_i found there
    cases h
    exact there
  · split at h
    · rename_i found there
      cases h
      exact there
    · cases h

theorem response_assign (context : ProcessContext ρ) (value : Json) (source : SourceField) :
    (context.assign value source).response source =
      setRoutedExperts value (context.response source) := by
  cases source <;> rfl

theorem assign_restore {context : ProcessContext ρ} {value : Json} {source : SourceField}
    (h : extract context = some (value, source)) (marker : Json) :
    (context.assign marker source).assign value source = context := by
  have restored := setRoutedExperts_restore marker (extract_some h)
  cases source with
  | tokenResponse =>
    simp only [ProcessContext.response] at restored
    simp only [ProcessContext.assign, restored]
  | rawResponse =>
    simp only [ProcessContext.response] at restored
    simp only [ProcessContext.assign, restored]

theorem assign_marker_ne {context : ProcessContext ρ} {value : Json} {source : SourceField}
    (h : extract context = some (value, source)) (cfg : Config) (blobKey : String) :
    context.assign (buildMarker cfg blobKey) source ≠ context := by
  intro same
  have none := extractFrom_set_marker _ (extract_some h) (isMarker_buildMarker cfg blobKey)
  rw [← response_assign, same, extract_some h] at none
  cases none

@[simp] theorem frame_assign (context : ProcessContext ρ) (value : Json) (source : SourceField) :
    (context.assign value source).frame = context.frame := by
  cases source <;> simp [ProcessContext.assign, ProcessContext.frame, dropRoutedExperts_set]

end Context

section Paths

variable {ρ : Type}

/-- The state after one more call of `inner.insert`. -/
def World.call (w : World ρ) : World ρ := { w with handed := w.handed ++ [w.context] }

def Env.innerResult (env : Env) (n : Nat) : Except Raised Unit :=
  match env.inner n with
  | none => .ok ()
  | some e => .error e

/-- The reference row this call asks for. -/
def World.refRow (w : World ρ) (env : Env) (runId : Option String) (size : Nat) : RefRow where
  requestId := w.context.requestId
  sessionId := orUnknown w.context.sessionId
  blobKey := makeBlobKey env.config runId w.context.sessionId w.context.requestId
  backend := env.config.backend
  status := .uploading
  sizeBytes := size
  expiresAt := env.now + env.config.ttlHours * 3600

def World.addRef (w : World ρ) (row : RefRow) : World ρ :=
  if w.refs.any (·.requestId = row.requestId) then w else { w with refs := w.refs ++ [row] }

@[simp] theorem addRef_context (w : World ρ) (row : RefRow) :
    (w.addRef row).context = w.context := by
  unfold World.addRef
  split <;> rfl

@[simp] theorem addRef_uploads (w : World ρ) (row : RefRow) :
    (w.addRef row).uploads = w.uploads := by
  unfold World.addRef
  split <;> rfl

@[simp] theorem addRef_handed (w : World ρ) (row : RefRow) :
    (w.addRef row).handed = w.handed := by
  unfold World.addRef
  split <;> rfl

theorem mem_addRef (w : World ρ) (row : RefRow) (key : String) (hkey : row.blobKey = key) :
    (∃ r ∈ (w.addRef row).refs, r.requestId = row.requestId ∧ r.blobKey = key) ↔
      ((∃ r ∈ w.refs, r.requestId = row.requestId) →
        ∃ r ∈ w.refs, r.requestId = row.requestId ∧ r.blobKey = key) := by
  unfold World.addRef
  by_cases present : ∃ r ∈ w.refs, r.requestId = row.requestId
  · have any : w.refs.any (·.requestId = row.requestId) = true := by simpa using present
    simp only [any, if_true, present, true_implies]
  · have any : ¬w.refs.any (·.requestId = row.requestId) = true := by simpa using present
    rw [if_neg any]
    simp only [present, false_implies, iff_true]
    exact ⟨row, by simp, rfl, hkey⟩

theorem run_innerInsert (env : Env) (w : World ρ) :
    (innerInsert env).run w = (env.innerResult w.handed.length, w.call) := by
  unfold innerInsert Env.innerResult
  rw [Py.run_bind_ok (Py.run_read w), Py.run_bind_ok (Py.run_modify _ w)]
  cases env.inner w.handed.length <;> rfl

theorem run_insertRef (env : Env) (row : RefRow) (w : World ρ) :
    (insertRef env row).run w = match env.insertRefRaises with
      | some e => (.error e, w)
      | none => (.ok (), w.addRef row) := by
  unfold insertRef
  cases env.insertRefRaises <;> rfl

/-- A return of the inner call from inside the first `try`. -/
theorem run_innerReturn (env : Env) (w : World ρ) :
    (innerInsert env >>= fun _ => (pure none : Py (World ρ) (Option (List UInt8)))).run w =
      ((env.innerResult w.handed.length).map fun _ => none, w.call) := by
  rw [Py.run_bind, run_innerInsert]
  unfold Env.innerResult
  cases env.inner w.handed.length <;> rfl

variable {env : Env} {runId : Option String} {w : World ρ} {re : Json} {source : SourceField}
  {data : List UInt8} {e : Raised}

theorem reserve_serialise_raises (h : env.serialise re = .error e) :
    (reserve env runId re).run w =
      if e.isException then ((env.innerResult w.handed.length).map fun _ => none, w.call)
      else (.error e, w) := by
  unfold reserve
  rw [Py.run_bind_ok (Py.run_read w), h, Py.run_tryExcept_error
    (Py.run_bind_error (Py.run_ofExcept _ w)), run_innerReturn]

theorem reserve_oversize (h : env.serialise re = .ok data)
    (big : routeExpertsMaxBytes < data.length) :
    (reserve env runId re).run w =
      match env.inner w.handed.length with
      | none => (.ok none, w.call)
      | some e =>
        if e.isException then
          ((env.innerResult (w.handed.length + 1)).map fun _ => none, w.call.call)
        else (.error e, w.call) := by
  unfold reserve
  rw [Py.run_bind_ok (Py.run_read w), h, Py.run_tryExcept,
    Py.run_bind_ok (Py.run_ofExcept _ w), if_pos big, run_innerReturn]
  unfold Env.innerResult
  cases raised : env.inner w.handed.length with
  | none => simp [Except.map]
  | some e =>
    have calls : w.call.handed.length = w.handed.length + 1 := by simp [World.call]
    simp only [Except.map, run_innerReturn, calls, Env.innerResult]

theorem reserve_ref_raises (h : env.serialise re = .ok data)
    (small : data.length ≤ routeExpertsMaxBytes) (refused : env.insertRefRaises = some e) :
    (reserve env runId re).run w =
      if e.isException then ((env.innerResult w.handed.length).map fun _ => none, w.call)
      else (.error e, w) := by
  unfold reserve
  rw [Py.run_bind_ok (Py.run_read w), h, Py.run_tryExcept,
    Py.run_bind_ok (Py.run_ofExcept _ w), if_neg (Nat.not_lt.mpr small), Py.run_bind,
    run_insertRef, refused]
  simp only [run_innerReturn]

theorem reserve_granted (h : env.serialise re = .ok data)
    (small : data.length ≤ routeExpertsMaxBytes) (granted : env.insertRefRaises = none) :
    (reserve env runId re).run w =
      (.ok (some data), w.addRef (w.refRow env runId data.length)) := by
  unfold reserve
  rw [Py.run_bind_ok (Py.run_read w), h, Py.run_tryExcept,
    Py.run_bind_ok (Py.run_ofExcept _ w), if_neg (Nat.not_lt.mpr small), Py.run_bind,
    run_insertRef, granted]
  rfl

/-- The state in which the value has been replaced and its upload started. -/
def World.mark (w : World ρ) (env : Env) (runId : Option String) (source : SourceField)
    (data : List UInt8) : World ρ :=
  let blobKey := makeBlobKey env.config runId w.context.sessionId w.context.requestId
  { w with
    uploads := w.uploads ++ [⟨blobKey, data, w.context.requestId⟩]
    context := w.context.assign (buildMarker env.config blobKey) source }

theorem run_offload (env : Env) (runId : Option String) (re : Json) (source : SourceField)
    (data : List UInt8) (w : World ρ) :
    (offload env runId re source data).run w =
      match env.inner w.handed.length with
      | none => (.ok (), (w.mark env runId source data).call)
      | some e =>
        (.error e, if e.isException then
          { (w.mark env runId source data).call with
            context := (w.mark env runId source data).context.assign re source }
          else (w.mark env runId source data).call) := by
  unfold offload
  rw [Py.run_bind_ok (Py.run_read w)]
  simp only
  rw [Py.run_bind_ok (Py.run_modify _ w), Py.run_bind_ok (Py.run_modify _ _), Py.run_tryExcept,
    run_innerInsert]
  simp only [Env.innerResult]
  cases env.inner w.handed.length with
  | none => rfl
  | some e =>
    simp only
    split_ifs <;> rfl

theorem insert_absent (h : extract w.context = none) :
    (insert env runId).run w = (env.innerResult w.handed.length, w.call) := by
  unfold insert
  rw [Py.run_bind_ok (Py.run_read w)]
  simp only [h]
  exact run_innerInsert env w

theorem insert_present (h : extract w.context = some (re, source)) :
    (insert env runId).run w = match (reserve env runId re).run w with
      | (.ok none, w') => (.ok (), w')
      | (.ok (some data), w') => (offload env runId re source data).run w'
      | (.error e, w') => (.error e, w') := by
  unfold insert
  rw [Py.run_bind_ok (Py.run_read w)]
  simp only [h]
  rw [Py.run_bind]
  cases (reserve env runId re).run w with
  | mk result w' =>
    cases result with
    | error e => rfl
    | ok data => cases data <;> rfl

end Paths

section Safety

variable {ρ : Type}

def World.blobKey (w : World ρ) (env : Env) (runId : Option String) : String :=
  makeBlobKey env.config runId w.context.sessionId w.context.requestId

/-- The context handed on and the final state of a call that offloaded. -/
def Offloaded (env : Env) (runId : Option String) (w final : World ρ)
    (handed : ProcessContext ρ) : Prop :=
  ∃ original source data, extract w.context = some (original, source) ∧
    env.serialise original = .ok data ∧
    handed = w.context.assign (buildMarker env.config (w.blobKey env runId)) source ∧
    (∃ row ∈ final.refs, row.requestId = w.context.requestId ∧
      row.blobKey = w.blobKey env runId) ∧
    final.uploads = w.uploads ++ [⟨w.blobKey env runId, data, w.context.requestId⟩]

/-- What a call with `result` and the state `final` is to leave behind. -/
structure Outcome (env : Env) (runId : Option String) (w : World ρ)
    (result : Except Raised Unit) (final : World ρ) : Prop where
  calledOnce : ∃ handed, final.handed = w.handed ++ [handed] ∧
    handed.frame = w.context.frame ∧
    (result = .ok () → handed = w.context ∧ final.uploads = w.uploads ∨
      Offloaded env runId w final handed)
  propagated : ∀ e, env.inner w.handed.length = some e →
    result = .error e ∧ final.context = w.context
  frameKept : final.context.frame = w.context.frame
  noMarkerUploaded : final.uploads = w.uploads ∨ ∃ value data,
    isMarker value = false ∧ env.serialise value = .ok data ∧
      final.uploads = w.uploads ++ [⟨w.blobKey env runId, data, w.context.requestId⟩]

def FailureSafe (env : Env) (runId : Option String) (w : World ρ) : Prop :=
  Outcome env runId w ((insert env runId).run w).1 ((insert env runId).run w).2

/-- Outcomes on which every degrade and rollback branch works: a failure before
the delegation or after the marker is an `Exception`, the delegation of an
oversized value raises none, and a row that keeps `ON CONFLICT` from inserting
names the same blob. -/
def OffloadSafe (env : Env) (runId : Option String) (w : World ρ) : Prop :=
  match extract w.context with
  | none => True
  | some (original, _) =>
    match env.serialise original with
    | .error e => e.isException = true
    | .ok data =>
      if routeExpertsMaxBytes < data.length then
        ∀ e, env.inner w.handed.length = some e → e.isException = false
      else
        match env.insertRefRaises with
        | some e => e.isException = true
        | none =>
          match env.inner w.handed.length with
          | some e => e.isException = true
          | none => (∃ row ∈ w.refs, row.requestId = w.context.requestId) →
              ∃ row ∈ w.refs, row.requestId = w.context.requestId ∧
                row.blobKey = w.blobKey env runId

variable {env : Env} {runId : Option String} {w : World ρ} {re : Json} {source : SourceField}
  {data : List UInt8} {e : Raised}

/-- A delegation of the untouched context, with no upload before it. -/
theorem outcome_call (env : Env) (runId : Option String) (w : World ρ) :
    Outcome env runId w (env.innerResult w.handed.length) w.call where
  calledOnce := ⟨w.context, rfl, rfl, fun _ => .inl ⟨rfl, rfl⟩⟩
  propagated := by
    intro e raised
    exact ⟨by rw [Env.innerResult, raised], rfl⟩
  frameKept := rfl
  noMarkerUploaded := .inl rfl

theorem not_outcome_of_handed {result : Except Raised Unit} {final : World ρ}
    (h : final.handed.length ≠ w.handed.length + 1) : ¬Outcome env runId w result final := by
  intro outcome
  obtain ⟨handed, calls, -⟩ := outcome.calledOnce
  exact h (by simp [calls])

theorem insert_serialise_raises (h : extract w.context = some (re, source))
    (raises : env.serialise re = .error e) :
    (insert env runId).run w =
      if e.isException then (env.innerResult w.handed.length, w.call) else (.error e, w) := by
  rw [insert_present h, reserve_serialise_raises raises]
  unfold Env.innerResult
  split_ifs
  · cases env.inner w.handed.length <;> rfl
  · rfl

theorem insert_oversize (h : extract w.context = some (re, source))
    (serialised : env.serialise re = .ok data) (big : routeExpertsMaxBytes < data.length) :
    (insert env runId).run w =
      match env.inner w.handed.length with
      | none => (.ok (), w.call)
      | some e =>
        if e.isException then (env.innerResult (w.handed.length + 1), w.call.call)
        else (.error e, w.call) := by
  rw [insert_present h, reserve_oversize serialised big]
  cases env.inner w.handed.length with
  | none => rfl
  | some e =>
    simp only
    split_ifs
    · unfold Env.innerResult
      cases env.inner (w.handed.length + 1) <;> rfl
    · rfl

theorem insert_ref_raises (h : extract w.context = some (re, source))
    (serialised : env.serialise re = .ok data) (small : data.length ≤ routeExpertsMaxBytes)
    (refused : env.insertRefRaises = some e) :
    (insert env runId).run w =
      if e.isException then (env.innerResult w.handed.length, w.call) else (.error e, w) := by
  rw [insert_present h, reserve_ref_raises serialised small refused]
  unfold Env.innerResult
  split_ifs
  · cases env.inner w.handed.length <;> rfl
  · rfl

/-- The state after the reference row, the upload and the marker. -/
def World.offloaded (w : World ρ) (env : Env) (runId : Option String) (source : SourceField)
    (data : List UInt8) : World ρ :=
  (w.addRef (w.refRow env runId data.length)).mark env runId source data

theorem insert_offloaded (h : extract w.context = some (re, source))
    (serialised : env.serialise re = .ok data) (small : data.length ≤ routeExpertsMaxBytes)
    (granted : env.insertRefRaises = none) :
    (insert env runId).run w =
      match env.inner w.handed.length with
      | none => (.ok (), (w.offloaded env runId source data).call)
      | some e =>
        (.error e, if e.isException then
          { (w.offloaded env runId source data).call with context := w.context }
          else (w.offloaded env runId source data).call) := by
  rw [insert_present h, reserve_granted serialised small granted]
  simp only [run_offload, addRef_handed, World.offloaded]
  cases env.inner w.handed.length with
  | none => rfl
  | some e =>
    have restored : ((w.addRef (w.refRow env runId data.length)).mark env runId source
        data).context.assign re source = w.context := by
      simp only [World.mark, addRef_context]
      exact assign_restore h _
    rw [restored]

@[simp] theorem offloaded_handed (w : World ρ) (env : Env) (runId : Option String)
    (source : SourceField) (data : List UInt8) :
    (w.offloaded env runId source data).handed = w.handed := by
  simp [World.offloaded, World.mark]

@[simp] theorem offloaded_uploads (w : World ρ) (env : Env) (runId : Option String)
    (source : SourceField) (data : List UInt8) :
    (w.offloaded env runId source data).uploads =
      w.uploads ++ [⟨w.blobKey env runId, data, w.context.requestId⟩] := by
  simp [World.offloaded, World.mark, World.blobKey]

@[simp] theorem offloaded_context (w : World ρ) (env : Env) (runId : Option String)
    (source : SourceField) (data : List UInt8) :
    (w.offloaded env runId source data).context =
      w.context.assign (buildMarker env.config (w.blobKey env runId)) source := by
  simp [World.offloaded, World.mark, World.blobKey]

/-- The parts of `Outcome` that hold once the marker is in place, whatever the
delegation does and whether or not it is rolled back. -/
theorem outcome_offloaded (h : extract w.context = some (re, source))
    (serialised : env.serialise re = .ok data) {result : Except Raised Unit} {final : World ρ}
    (handed : final.handed = (w.offloaded env runId source data).call.handed)
    (uploads : final.uploads = (w.offloaded env runId source data).uploads)
    (frame : final.context.frame = w.context.frame)
    (row : result = .ok () → ∃ row ∈ final.refs, row.requestId = w.context.requestId ∧
      row.blobKey = w.blobKey env runId)
    (propagated : ∀ e, env.inner w.handed.length = some e →
      result = .error e ∧ final.context = w.context) :
    Outcome env runId w result final where
  calledOnce := by
    refine ⟨w.context.assign (buildMarker env.config (w.blobKey env runId)) source, ?_,
      frame_assign .., fun ok => .inr ⟨re, source, data, h, serialised, rfl, row ok, ?_⟩⟩
    · rw [handed]
      simp [World.call]
    · rw [uploads]
      simp
  propagated := propagated
  frameKept := frame
  noMarkerUploaded := by
    obtain ⟨-, -, -, -, -, -, raw⟩ := extractFrom_some (extract_some h)
    exact .inr ⟨re, data, raw, serialised, by rw [uploads]; simp⟩

theorem failureSafe_serialise_raises (h : extract w.context = some (re, source))
    (raises : env.serialise re = .error e) :
    FailureSafe env runId w ↔ e.isException = true := by
  rw [FailureSafe, insert_serialise_raises h raises]
  split_ifs with caught
  · simp only [caught, iff_true]
    exact outcome_call env runId w
  · simp only [caught, Bool.false_eq_true, iff_false]
    exact not_outcome_of_handed (by simp)

theorem failureSafe_oversize (h : extract w.context = some (re, source))
    (serialised : env.serialise re = .ok data) (big : routeExpertsMaxBytes < data.length) :
    FailureSafe env runId w ↔
      ∀ e, env.inner w.handed.length = some e → e.isException = false := by
  rw [FailureSafe, insert_oversize h serialised big]
  have call := outcome_call env runId w
  unfold Env.innerResult at call
  cases raised : env.inner w.handed.length with
  | none =>
    rw [raised] at call
    simpa using call
  | some e =>
    rw [raised] at call
    by_cases caught : e.isException = true
    · simp only [caught, if_true, Option.some_inj, forall_eq', Bool.true_eq_false, iff_false]
      exact not_outcome_of_handed (by simp [World.call])
    · simp only [if_neg caught, Option.some_inj, forall_eq']
      simpa [caught] using call

theorem failureSafe_ref_raises (h : extract w.context = some (re, source))
    (serialised : env.serialise re = .ok data) (small : data.length ≤ routeExpertsMaxBytes)
    (refused : env.insertRefRaises = some e) :
    FailureSafe env runId w ↔ e.isException = true := by
  rw [FailureSafe, insert_ref_raises h serialised small refused]
  split_ifs with caught
  · simp only [caught, iff_true]
    exact outcome_call env runId w
  · simp only [caught, Bool.false_eq_true, iff_false]
    exact not_outcome_of_handed (by simp)

theorem failureSafe_inner_raises (h : extract w.context = some (re, source))
    (serialised : env.serialise re = .ok data) (small : data.length ≤ routeExpertsMaxBytes)
    (granted : env.insertRefRaises = none) (raised : env.inner w.handed.length = some e) :
    FailureSafe env runId w ↔ e.isException = true := by
  rw [FailureSafe, insert_offloaded h serialised small granted, raised]
  simp only
  split_ifs with caught
  · simp only [caught, iff_true]
    refine outcome_offloaded h serialised rfl rfl rfl (fun ok => by cases ok) ?_
    intro e' raised'
    rw [raised, Option.some_inj] at raised'
    exact ⟨by rw [raised'], rfl⟩
  · simp only [caught, Bool.false_eq_true, iff_false]
    intro outcome
    have same := (outcome.propagated e raised).2
    simp only [World.call, offloaded_context] at same
    exact assign_marker_ne h _ _ same

theorem failureSafe_inner_returns (h : extract w.context = some (re, source))
    (serialised : env.serialise re = .ok data) (small : data.length ≤ routeExpertsMaxBytes)
    (granted : env.insertRefRaises = none) (returned : env.inner w.handed.length = none) :
    FailureSafe env runId w ↔
      ((∃ row ∈ w.refs, row.requestId = w.context.requestId) →
        ∃ row ∈ w.refs, row.requestId = w.context.requestId ∧
          row.blobKey = w.blobKey env runId) := by
  rw [FailureSafe, insert_offloaded h serialised small granted, returned]
  have row := mem_addRef w (w.refRow env runId data.length) (w.blobKey env runId) rfl
  refine Iff.trans ?_ row
  refine ⟨?_, ?_⟩
  · intro outcome
    obtain ⟨handed, -, -, normal⟩ := outcome.calledOnce
    cases normal rfl with
    | inl untouched =>
      have uploads := untouched.2
      simp [World.call] at uploads
    | inr offloaded =>
      obtain ⟨-, -, -, -, -, -, kept, -⟩ := offloaded
      exact kept
  · intro kept
    refine outcome_offloaded h serialised rfl rfl ?_ (fun _ => kept) ?_
    · simp [World.call]
    · intro e raised
      rw [returned] at raised
      cases raised

theorem offloadSafe_present (h : extract w.context = some (re, source)) :
    OffloadSafe env runId w = match env.serialise re with
    | .error e => e.isException = true
    | .ok data =>
      if routeExpertsMaxBytes < data.length then
        ∀ e, env.inner w.handed.length = some e → e.isException = false
      else
        match env.insertRefRaises with
        | some e => e.isException = true
        | none =>
          match env.inner w.handed.length with
          | some e => e.isException = true
          | none => (∃ row ∈ w.refs, row.requestId = w.context.requestId) →
              ∃ row ∈ w.refs, row.requestId = w.context.requestId ∧
                row.blobKey = w.blobKey env runId := by
  rw [OffloadSafe, h]

/-- A call of `insert` is failure-safe exactly on the outcomes of `OffloadSafe`. -/
theorem insert_failureSafe_iff (env : Env) (runId : Option String) (w : World ρ) :
    FailureSafe env runId w ↔ OffloadSafe env runId w := by
  cases h : extract w.context with
  | none =>
    rw [FailureSafe, insert_absent h, OffloadSafe, h]
    simpa using outcome_call env runId w
  | some found =>
    obtain ⟨re, source⟩ := found
    rw [offloadSafe_present h]
    cases serialised : env.serialise re with
    | error e => exact failureSafe_serialise_raises h serialised
    | ok data =>
      simp only
      by_cases big : routeExpertsMaxBytes < data.length
      · rw [if_pos big]
        exact failureSafe_oversize h serialised big
      · rw [if_neg big]
        have small := Nat.not_lt.mp big
        cases refused : env.insertRefRaises with
        | some e => exact failureSafe_ref_raises h serialised small refused
        | none =>
          cases raised : env.inner w.handed.length with
          | some e => exact failureSafe_inner_raises h serialised small refused raised
          | none => exact failureSafe_inner_returns h serialised small refused raised

/-- `json.dumps` of a text of ASCII letters; the other values are left out. -/
private def dumpsLetters : Json → Except Raised (List UInt8)
  | .str s => .ok (0x22 :: s.toList.map (fun c => UInt8.ofNat c.toNat) ++ [0x22])
  | _ => .error (.exception "TypeError")

/-- An oversized value whose delegation fails is delegated a second time. -/
theorem insert_oversize_called_twice :
    ¬∀ (env : Env) (runId : Option String) (w : World Unit), FailureSafe env runId w := by
  intro all
  obtain ⟨experts, long⟩ : ∃ s : String, s.toList.length = routeExpertsMaxBytes :=
    ⟨String.ofList (List.replicate routeExpertsMaxBytes 'a'), by simp⟩
  let context : ProcessContext Unit :=
    { requestId := "request", sessionId := some "session", tokenResponse := .null
      rawResponse := .obj [("choices", .arr [.obj [("routed_experts", .str experts)]])]
      rest := () }
  let env : Env :=
    { config := ⟨"local", "", "", "/blobs", 24, "route_experts"⟩
      serialise := dumpsLetters
      now := 0
      insertRefRaises := none
      inner := fun _ => some (.exception "DatabaseError") }
  have present : extract context = some (.str experts, .rawResponse) := rfl
  have big : routeExpertsMaxBytes <
      (0x22 :: experts.toList.map (fun c : Char => UInt8.ofNat c.toNat) ++ [0x22]).length := by
    rw [List.length_append, List.length_cons, List.length_map, long]
    omega
  have safe := (failureSafe_oversize (w := ⟨context, [], [], []⟩) present
    (rfl : env.serialise (.str experts) = _) big).mp (all env none _)
  exact absurd (safe _ rfl) (by decide)

end Safety

end TrajProxy.Store
