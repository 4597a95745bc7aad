import TrajProxy.Store.References

/-! What the reference table promises in every interleaving.
`Coupled` ties rows, tasks and blobs together: a row that has left `uploading`
belongs to a task with nothing left to write, so its blob stays as it is. The
other two stages of a row's life only matter to the task that moves it. -/

namespace TrajProxy.Store
open Transition

section Tables

variable {refs : List RefRow} {row : RefRow} {old new : RefStatus} {requestId : String}

theorem subset_addRef (refs : List RefRow) (r : RefRow) : refs ⊆ addRef refs r := by
  unfold addRef
  split_ifs
  · exact List.Subset.refl refs
  · exact List.subset_append_left refs [r]

end Tables

variable {ρ : Type} (cfg : Config) (serialise : Json → Except Raised (List UInt8))

namespace Exchange

/-- The row was reserved by this request, for these octets. -/
structure Reserved (row : RefRow) (call : Call ρ) (data : List UInt8) : Prop where
  offered : call.offered serialise = some data
  requestId : row.requestId = call.context.requestId
  sessionId : row.sessionId = orUnknown call.context.sessionId
  blobKey : row.blobKey = call.blobKey cfg

end Exchange

/-- The local variables of a task hold the request's own octets. -/
def TaskStage.Fits (blobs : OrderedDict String (List UInt8)) (call : Call ρ) : TaskStage → Prop
  | .reserving data => call.offered serialise = some data
  | .reserved data => call.offered serialise = some data
  | .putting data => call.offered serialise = some data
  | .stored data => call.offered serialise = some data ∧
      blobs.get (call.blobKey cfg) = some data
  | .finished => True

namespace Exchange

structure Coupled (s : Exchange ρ) : Prop where
  rows : ∀ row ∈ s.refs, ∃ task data, s.tasks.get row.requestId = some task ∧
    Reserved cfg serialise row task.call data ∧
    (row.status ≠ .uploading → task.stage = .finished ∧ s.blobs.get row.blobKey = some data)
  tasks : ∀ id task, s.tasks.get id = some task →
    task.call.context.requestId = id ∧ task.stage.Fits cfg serialise s.blobs task.call
  names : ∀ id id' task task', s.tasks.get id = some task → s.tasks.get id' = some task' →
    task.call.blobKey cfg = task'.call.blobKey cfg → id = id'

/-- A request names its blob like no request before it. -/
def Named (s : Exchange ρ) : ExchangeLabel ρ → Prop
  | .insert call => ∀ id task, s.tasks.get id = some task →
      task.call.blobKey cfg ≠ call.blobKey cfg
  | _ => True

/-- The row under `blobKey` is the one asked for, and it has been ready; `data` is
what its request had to offload. -/
def Settled (s : Exchange ρ) (sessionId requestId blobKey : String) (data : List UInt8) : Prop :=
  ∃ row ∈ s.refs, row.requestId = requestId ∧ row.sessionId = sessionId ∧
    row.blobKey = blobKey ∧ row.status ≠ .uploading ∧
    ∃ task, s.tasks.get requestId = some task ∧ task.call.offered serialise = some data

/-- What a fetch has in hand: the key of a settled row, then part of its blob. -/
def FetchFits (s : Exchange ρ) (fetch : Fetch) : Prop :=
  match fetch.stage with
  | .opening blobKey => ∃ data, Settled serialise s fetch.sessionId fetch.requestId blobKey data
  | .answered (.ready blobKey streamed) => ∃ data,
      Settled serialise s fetch.sessionId fetch.requestId blobKey data ∧ streamed <+: data
  | _ => True

/-- `Coupled`, and every fetch holds its own row's octets. -/
structure Sound (s : Exchange ρ) : Prop where
  coupled : Coupled cfg serialise s
  fetches : ∀ client fetch, s.fetches.get client = some fetch → FetchFits serialise s fetch

/-- The effect of each label. -/
inductive Step (s : Exchange ρ) : ExchangeLabel ρ → Exchange ρ → Prop
  | insert (call : Call ρ) (stage : TaskStage) :
      s.tasks.get call.context.requestId = none →
      stage = .finished ∨ (∃ data, call.offered serialise = some data ∧ stage = .reserving data) →
      Step s (.insert call) (s.setStage call call.context.requestId stage)
  | insertRef (id : String) (call : Call ρ) (data : List UInt8) :
      s.tasks.get id = some ⟨call, .reserving data⟩ →
      Step s (.insertRef id) { s.setStage call id (.reserved data) with
        refs := addRef s.refs (call.refRow cfg data) }
  | createTask (id : String) (call : Call ρ) (data : List UInt8) :
      s.tasks.get id = some ⟨call, .reserved data⟩ →
      Step s (.createTask id) (s.setStage call id (.putting data))
  | write (id : String) (n : Nat) (call : Call ρ) (data : List UInt8) :
      s.tasks.get id = some ⟨call, .putting data⟩ →
      Step s (.write id n) { s with blobs := s.blobs.setItem (call.blobKey cfg) (data.take n) }
  | put (id : String) (call : Call ρ) (data : List UInt8) :
      s.tasks.get id = some ⟨call, .putting data⟩ →
      Step s (.put id) { s.setStage call id (.stored data) with
        blobs := s.blobs.setItem (call.blobKey cfg) data }
  | markReady (id : String) (call : Call ρ) (data : List UInt8) :
      s.tasks.get id = some ⟨call, .stored data⟩ →
      Step s (.markReady id) { s.setStage call id .finished with refs := markReady id s.refs }
  | fail (id : String) (call : Call ρ) (stage : TaskStage) :
      s.tasks.get id = some ⟨call, stage⟩ → Step s (.fail id) (s.setStage call id .finished)
  | markConsumed (id : String) :
      Step s (.markConsumed id) { s with refs := markConsumed id s.refs }
  | getForFetch (client : Nat) (sessionId requestId : String) :
      Step s (.getForFetch client sessionId requestId) (s.setFetch client
        ⟨sessionId, requestId, getRouteExperts (getForFetch s.refs sessionId requestId)⟩)
  | openStream (client : Nat) (sessionId requestId blobKey : String) :
      s.fetches.get client = some ⟨sessionId, requestId, .opening blobKey⟩ →
      Step s (.openStream client)
        (s.setFetch client ⟨sessionId, requestId, .answered (.ready blobKey [])⟩)
  | openStreamRaises (client : Nat) (sessionId requestId : String) :
      Step s (.openStreamRaises client) (s.setFetch client ⟨sessionId, requestId, .raised⟩)
  | iterBytes (client n : Nat) (sessionId requestId blobKey : String)
      (streamed content : List UInt8) :
      s.fetches.get client = some ⟨sessionId, requestId, .answered (.ready blobKey streamed)⟩ →
      s.blobs.get blobKey = some content →
      Step s (.iterBytes client n) (s.setFetch client ⟨sessionId, requestId,
        .answered (.ready blobKey (streamed ++ (content.drop streamed.length).take n))⟩)

variable {cfg serialise} {s s' : Exchange ρ} {a : ExchangeLabel ρ}

theorem step_cases (h : (machine cfg serialise).step s a = some s') :
    Step cfg serialise s a s' := by
  simp only [machine, step] at h
  cases a with
  | insert call =>
    simp only at h
    split_ifs at h with known
    obtain rfl := Option.some.inj h
    refine .insert call _ (OrderedDict.get_eq_none.mpr known) ?_
    cases offered : call.offered serialise with
    | none => exact .inl rfl
    | some data => exact .inr ⟨data, rfl, rfl⟩
  | insertRef id =>
    simp only at h
    split at h
    · rename_i call data there
      obtain rfl := Option.some.inj h
      exact .insertRef id call data there
    · cases h
  | createTask id =>
    simp only at h
    split at h
    · rename_i call data there
      obtain rfl := Option.some.inj h
      exact .createTask id call data there
    · cases h
  | write id n =>
    simp only at h
    split at h
    · rename_i call data there
      obtain rfl := Option.some.inj h
      exact .write id n call data there
    · cases h
  | put id =>
    simp only at h
    split at h
    · rename_i call data there
      obtain rfl := Option.some.inj h
      exact .put id call data there
    · cases h
  | markReady id =>
    simp only at h
    split at h
    · rename_i call data there
      obtain rfl := Option.some.inj h
      exact .markReady id call data there
    · cases h
  | fail id =>
    simp only at h
    split at h
    · rename_i call stage there
      obtain rfl := Option.some.inj h
      exact .fail id call stage there
    · cases h
  | markConsumed id =>
    obtain rfl := Option.some.inj h
    exact .markConsumed id
  | getForFetch client sessionId requestId =>
    simp only at h
    split_ifs at h
    obtain rfl := Option.some.inj h
    exact .getForFetch client sessionId requestId
  | openStream client =>
    simp only at h
    split at h
    · rename_i sessionId requestId blobKey there
      split_ifs at h
      obtain rfl := Option.some.inj h
      exact .openStream client sessionId requestId blobKey there
    · cases h
  | openStreamRaises client =>
    simp only at h
    split at h
    · rename_i sessionId requestId blobKey there
      obtain rfl := Option.some.inj h
      exact .openStreamRaises client sessionId requestId
    · cases h
  | iterBytes client n =>
    simp only at h
    split at h
    · rename_i sessionId requestId blobKey streamed there
      rw [Option.map_eq_some_iff] at h
      obtain ⟨content, stored, rfl⟩ := h
      exact .iterBytes client n sessionId requestId blobKey streamed content there stored
    · cases h

theorem coupled_start : Coupled cfg serialise (start : Exchange ρ) where
  rows _ none := nomatch none
  tasks id task none := by simp [start] at none
  names id _ task _ none := by simp [start] at none

theorem fits_frame {blobs blobs' : OrderedDict String (List UInt8)} {call : Call ρ}
    {stage : TaskStage} (h : stage.Fits cfg serialise blobs call)
    (same : blobs'.get (call.blobKey cfg) = blobs.get (call.blobKey cfg)) :
    stage.Fits cfg serialise blobs' call := by
  cases stage with
  | stored data => exact ⟨h.1, same.trans h.2⟩
  | reserving data => exact h
  | reserved data => exact h
  | putting data => exact h
  | finished => trivial

/-- One task moves on: it writes to no blob but its own, to none at all once it
is over, and to no row but its own. -/
theorem Coupled.advance {id : String} {call : Call ρ} {old stage : TaskStage} {refs : List RefRow}
    {blobs : OrderedDict String (List UInt8)} {tasks : OrderedDict String (Task ρ)}
    {fetches : OrderedDict Nat Fetch}
    (h : Coupled cfg serialise s) (task : s.tasks.get id = some ⟨call, old⟩)
    (moved : ∀ id', tasks.get id' = if id' = id then some ⟨call, stage⟩ else s.tasks.get id')
    (ended : old = .finished → stage = .finished ∧ blobs = s.blobs)
    (frame : ∀ key, key ≠ call.blobKey cfg → blobs.get key = s.blobs.get key)
    (fits : stage.Fits cfg serialise blobs call)
    (rows : ∀ row ∈ refs, row ∈ s.refs ∨ row.requestId = id ∧ ∃ data,
      Reserved cfg serialise row call data ∧
        (row.status ≠ .uploading → stage = .finished ∧ blobs.get row.blobKey = some data)) :
    Coupled cfg serialise ⟨refs, blobs, tasks, fetches⟩ where
  rows := by
    intro row mem
    rcases rows row mem with before | ⟨rfl, data, reserved, settled⟩
    · obtain ⟨owner, data, there, reserved, settled⟩ := h.rows row before
      by_cases own : row.requestId = id
      · subst own
        rw [task, Option.some_inj] at there
        subst there
        refine ⟨⟨call, stage⟩, data, (moved _).trans (if_pos rfl), reserved, ?_⟩
        intro left
        obtain ⟨done, stored⟩ := settled left
        obtain ⟨still, same⟩ := ended done
        exact ⟨still, same ▸ stored⟩
      · refine ⟨owner, data, ((moved _).trans (if_neg own)).trans there, reserved, ?_⟩
        intro left
        obtain ⟨done, stored⟩ := settled left
        refine ⟨done, (frame _ ?_).trans stored⟩
        intro shared
        exact own (h.names _ _ _ _ there task (reserved.blobKey.symm.trans shared))
    · exact ⟨⟨call, stage⟩, data, (moved _).trans (if_pos rfl), reserved, settled⟩
  tasks := by
    intro id' task' there
    rw [moved] at there
    split_ifs at there with own
    · obtain rfl := Option.some.inj there
      exact ⟨own ▸ (h.tasks _ _ task).1, fits⟩
    · obtain ⟨same, before⟩ := h.tasks _ _ there
      refine ⟨same, fits_frame before (frame _ ?_)⟩
      intro shared
      exact own (h.names _ _ _ _ there task shared)
  names := by
    have call_of : ∀ id' task', tasks.get id' = some task' →
        ∃ before, s.tasks.get id' = some before ∧ before.call = task'.call := by
      intro id' task' there
      rw [moved] at there
      split_ifs at there with own
      · obtain rfl := Option.some.inj there
        exact ⟨⟨call, old⟩, own ▸ task, rfl⟩
      · exact ⟨task', there, rfl⟩
    intro id₁ id₂ task₁ task₂ there₁ there₂ shared
    obtain ⟨before₁, found₁, same₁⟩ := call_of id₁ task₁ there₁
    obtain ⟨before₂, found₂, same₂⟩ := call_of id₂ task₂ there₂
    exact h.names _ _ _ _ found₁ found₂ (by rw [same₁, same₂, shared])

theorem Coupled.insert {call : Call ρ} {stage : TaskStage} (h : Coupled cfg serialise s)
    (fresh : s.tasks.get call.context.requestId = none)
    (fits : stage.Fits cfg serialise s.blobs call)
    (named : ∀ id task, s.tasks.get id = some task → task.call.blobKey cfg ≠ call.blobKey cfg) :
    Coupled cfg serialise (s.setStage call call.context.requestId stage) where
  rows := by
    intro row mem
    obtain ⟨owner, data, there, reserved⟩ := h.rows row mem
    have other : row.requestId ≠ call.context.requestId := by
      intro same
      rw [same, fresh] at there
      cases there
    exact ⟨owner, data, (OrderedDict.get_setItem_ne _ _ other).trans there, reserved⟩
  tasks := by
    intro id task there
    simp only [setStage, OrderedDict.get_setItem] at there
    split_ifs at there with own
    · obtain rfl := Option.some.inj there
      exact ⟨own.symm, fits⟩
    · exact h.tasks _ _ there
  names := by
    intro id₁ id₂ task₁ task₂ there₁ there₂ shared
    simp only [setStage, OrderedDict.get_setItem] at there₁ there₂
    split_ifs at there₁ there₂ with own₁ own₂ own₂
    · rw [own₁, own₂]
    · obtain rfl := Option.some.inj there₁
      exact absurd shared.symm (named _ _ there₂)
    · obtain rfl := Option.some.inj there₂
      exact absurd shared (named _ _ there₁)
    · exact h.names _ _ _ _ there₁ there₂ shared

/-- Rows are never taken back, and never from one request or session to another. -/
def Persist (refs refs' : List RefRow) : Prop :=
  ∀ row ∈ refs, ∃ row' ∈ refs', row'.requestId = row.requestId ∧
    row'.sessionId = row.sessionId ∧ row'.blobKey = row.blobKey ∧
    (row.status ≠ .uploading → row'.status ≠ .uploading)

theorem persist_of_subset {refs refs' : List RefRow} (h : refs ⊆ refs') : Persist refs refs' :=
  fun row mem => ⟨row, h mem, rfl, rfl, rfl, id⟩

theorem persist_updateStatus (old : RefStatus) {new : RefStatus} (left : new ≠ .uploading)
    (requestId : String) (refs : List RefRow) :
    Persist refs (updateStatus old new requestId refs) := by
  intro row mem
  refine ⟨_, List.mem_map_of_mem mem, ?_⟩
  split_ifs
  · exact ⟨rfl, rfl, rfl, fun _ => left⟩
  · exact ⟨rfl, rfl, rfl, id⟩

theorem persist_step (step : Step cfg serialise s a s') : Persist s.refs s'.refs := by
  cases step with
  | insertRef id call data task => exact persist_of_subset (subset_addRef _ _)
  | markReady id call data task => exact persist_updateStatus _ RefStatus.noConfusion _ _
  | markConsumed id => exact persist_updateStatus _ RefStatus.noConfusion _ _
  | _ => exact persist_of_subset (List.Subset.refl _)

theorem call_step (step : Step cfg serialise s a s') {id : String} {task : Task ρ}
    (there : s.tasks.get id = some task) :
    ∃ task', s'.tasks.get id = some task' ∧ task'.call = task.call := by
  have moved : ∀ {id' : String} {call : Call ρ} {old : TaskStage} (stage : TaskStage),
      s.tasks.get id' = some ⟨call, old⟩ →
      ∃ task', (s.tasks.setItem id' ⟨call, stage⟩).get id = some task' ∧
        task'.call = task.call := by
    intro id' call old stage known
    rw [OrderedDict.get_setItem]
    split_ifs with own
    · rw [own, known, Option.some_inj] at there
      exact ⟨_, rfl, there ▸ rfl⟩
    · exact ⟨task, there, rfl⟩
  cases step with
  | insert call stage fresh =>
    have other : id ≠ call.context.requestId := by
      rintro rfl
      rw [fresh] at there
      cases there
    exact ⟨task, (OrderedDict.get_setItem_ne _ _ other).trans there, rfl⟩
  | insertRef id call data known => exact moved _ known
  | createTask id call data known => exact moved _ known
  | put id call data known => exact moved _ known
  | markReady id call data known => exact moved _ known
  | fail id call stage known => exact moved _ known
  | _ => exact ⟨task, there, rfl⟩

theorem Settled.step {sessionId requestId blobKey : String} {data : List UInt8}
    (h : Settled serialise s sessionId requestId blobKey data)
    (step : Step cfg serialise s a s') :
    Settled serialise s' sessionId requestId blobKey data := by
  obtain ⟨row, mem, rfl, rfl, rfl, left, task, there, offered⟩ := h
  obtain ⟨row', mem', sameId, sameSession, sameKey, left'⟩ := persist_step step row mem
  obtain ⟨task', there', same⟩ := call_step step there
  exact ⟨row', mem', sameId, sameSession, sameKey, left' left, task', there', same ▸ offered⟩

theorem Settled.content {sessionId requestId blobKey : String} {data : List UInt8}
    (h : Settled serialise s sessionId requestId blobKey data) (inv : Coupled cfg serialise s) :
    s.blobs.get blobKey = some data := by
  obtain ⟨row, mem, rfl, rfl, rfl, left, task, there, offered⟩ := h
  obtain ⟨owner, data', known, reserved, settled⟩ := inv.rows row mem
  rw [there, Option.some_inj] at known
  subst known
  rw [(settled left).2, ← reserved.offered, offered]

theorem FetchFits.step {fetch : Fetch} (h : FetchFits serialise s fetch)
    (step : Step cfg serialise s a s') : FetchFits serialise s' fetch := by
  unfold FetchFits at h ⊢
  split
  · rename_i blobKey stage
    simp only [stage] at h
    exact h.imp fun data settled => settled.step step
  · rename_i blobKey streamed stage
    simp only [stage] at h
    exact h.imp fun data both => ⟨both.1.step step, both.2⟩
  · trivial

theorem sound_start : Sound cfg serialise (start : Exchange ρ) where
  coupled := coupled_start
  fetches client fetch none := by simp [start] at none

end Exchange

section Insert

variable {env : Env} {runId : Option String} {w : World ρ} {s : Exchange ρ}

theorem addRef_refs (w : World ρ) (row : RefRow) : (w.addRef row).refs = addRef w.refs row := by
  unfold World.addRef addRef
  split <;> rfl

/-- What `insert` leaves when it has not started an upload. -/
def Untouched (env : Env) (runId : Option String) (w : World ρ) : Prop :=
  ((insert env runId).run w).2.refs = w.refs ∧ ((insert env runId).run w).2.uploads = w.uploads

theorem untouched_absent (h : extract w.context = none) : Untouched env runId w := by
  unfold Untouched
  rw [insert_absent h]
  exact ⟨rfl, rfl⟩

theorem untouched_serialise_raises (h : extract w.context = some (re, source))
    (raises : env.serialise re = .error e) : Untouched env runId w := by
  unfold Untouched
  rw [insert_serialise_raises h raises]
  split_ifs <;> exact ⟨rfl, rfl⟩

theorem untouched_oversize (h : extract w.context = some (re, source))
    (serialised : env.serialise re = .ok data) (big : routeExpertsMaxBytes < data.length) :
    Untouched env runId w := by
  unfold Untouched
  rw [insert_oversize h serialised big]
  cases env.inner w.handed.length with
  | none => exact ⟨rfl, rfl⟩
  | some e =>
    simp only
    split_ifs <;> exact ⟨rfl, rfl⟩

theorem untouched_ref_raises (h : extract w.context = some (re, source))
    (serialised : env.serialise re = .ok data) (small : data.length ≤ routeExpertsMaxBytes)
    (refused : env.insertRefRaises = some e) : Untouched env runId w := by
  unfold Untouched
  rw [insert_ref_raises h serialised small refused]
  split_ifs <;> exact ⟨rfl, rfl⟩

theorem refs_offloaded (h : extract w.context = some (re, source))
    (serialised : env.serialise re = .ok data) (small : data.length ≤ routeExpertsMaxBytes)
    (granted : env.insertRefRaises = none) :
    ((insert env runId).run w).2.refs = addRef w.refs (w.refRow env runId data.length) ∧
      ((insert env runId).run w).2.uploads =
        w.uploads ++ [⟨w.blobKey env runId, data, w.context.requestId⟩] := by
  have same : ((insert env runId).run w).2.refs = (w.offloaded env runId source data).refs ∧
      ((insert env runId).run w).2.uploads = (w.offloaded env runId source data).uploads := by
    rw [insert_offloaded h serialised small granted]
    cases env.inner w.handed.length with
    | none => exact ⟨rfl, rfl⟩
    | some e =>
      simp only
      split_ifs <;> exact ⟨rfl, rfl⟩
  refine ⟨same.1.trans ?_, same.2.trans (offloaded_uploads ..)⟩
  exact addRef_refs w _

/-- The exchange is where this call of `insert` has left it: its upload task is
created, or nothing of the request is under way. -/
def Left (env : Env) (runId : Option String) (w : World ρ) (s : Exchange ρ) : Prop :=
  s.refs = ((insert env runId).run w).2.refs ∧
    ∃ task, s.tasks.get w.context.requestId = some task ∧
      (task.stage = .finished ∧ ((insert env runId).run w).2.uploads = w.uploads ∨
        ∃ data, task.stage = .putting data ∧ ((insert env runId).run w).2.uploads =
          w.uploads ++ [⟨task.call.blobKey env.config, data, w.context.requestId⟩])

/-- `insert`, run alone, is a run of the exchange. -/
theorem insert_exchange (env : Env) (runId : Option String) (w : World ρ) (s : Exchange ρ)
    (refs : s.refs = w.refs) (fresh : w.context.requestId ∉ s.tasks) :
    ∃ labels s', (Exchange.machine env.config env.serialise).exec s labels = some s' ∧
      Left env runId w s' := by
  let call : Call ρ := ⟨w.context, runId, env.now⟩
  let id := w.context.requestId
  have idle (untouched : Untouched env runId w) (absent : call.offered env.serialise = none) :
      ∃ labels s', (Exchange.machine env.config env.serialise).exec s labels = some s' ∧
        Left env runId w s' := by
    refine ⟨[.insert call], s.setStage call id .finished, ?_, refs.trans untouched.1.symm,
      ⟨call, .finished⟩, OrderedDict.get_setItem_self .., .inl ⟨rfl, untouched.2⟩⟩
    simp [Machine.exec, Exchange.machine, Exchange.step, call, fresh, absent, id]
  cases h : extract w.context with
  | none => exact idle (untouched_absent h) (by simp [Call.offered, call, h])
  | some found =>
    obtain ⟨re, source⟩ := found
    cases serialised : env.serialise re with
    | error e =>
      exact idle (untouched_serialise_raises h serialised)
        (by simp [Call.offered, call, h, serialised])
    | ok data =>
      by_cases big : routeExpertsMaxBytes < data.length
      · exact idle (untouched_oversize h serialised big)
          (by simp [Call.offered, call, h, serialised, big])
      · have offered : call.offered env.serialise = some data := by
          simp [Call.offered, call, h, serialised, big]
        have small := Nat.not_lt.mp big
        cases refused : env.insertRefRaises with
        | some e =>
          have untouched : Untouched env runId w :=
            untouched_ref_raises h serialised small refused
          refine ⟨[.insert call, .fail id],
            (s.setStage call id (.reserving data)).setStage call id .finished, ?_,
            refs.trans untouched.1.symm, ⟨call, .finished⟩, OrderedDict.get_setItem_self ..,
            .inl ⟨rfl, untouched.2⟩⟩
          simp [Machine.exec, Exchange.machine, Exchange.step, Exchange.setStage, call, fresh,
            offered, id]
        | none =>
          obtain ⟨rows, uploads⟩ : ((insert env runId).run w).2.refs = _ ∧
              ((insert env runId).run w).2.uploads = _ :=
            refs_offloaded h serialised small refused
          let reserving := s.setStage call id (.reserving data)
          let reserved : Exchange ρ := { reserving.setStage call id (.reserved data) with
            refs := addRef s.refs (call.refRow env.config data) }
          refine ⟨[.insert call, .insertRef id, .createTask id],
            reserved.setStage call id (.putting data), ?_, ?_, ⟨call, .putting data⟩,
            OrderedDict.get_setItem_self .., .inr ⟨data, rfl, uploads⟩⟩
          · simp [Machine.exec, Exchange.machine, Exchange.step, Exchange.setStage, call, fresh,
              offered, id, reserved, reserving]
          · rw [rows]
            exact congrArg (addRef · _) refs

end Insert

section Names

theorem mem_replaceDots {c : Char} {l : List Char} (h : c ∈ replaceDots l) : c = '_' ∨ c ∈ l := by
  induction l using replaceDots.induct with
  | case1 rest ih =>
    rw [replaceDots] at h
    rcases List.mem_cons.mp h with rfl | mem
    · exact .inl rfl
    · exact (ih mem).imp id fun there => List.mem_cons_of_mem _ (List.mem_cons_of_mem _ there)
  | case2 c' rest other ih =>
    rw [replaceDots] at h
    · rcases List.mem_cons.mp h with rfl | mem
      · exact .inr List.mem_cons_self
      · exact (ih mem).imp id (List.mem_cons_of_mem _)
    · exact other
  | case3 => exact .inr h

theorem replaceDots_eq_self {l : List Char} (h : '.' ∉ l) : replaceDots l = l := by
  induction l using replaceDots.induct with
  | case1 rest ih => simp at h
  | case2 c rest other ih =>
    rw [replaceDots, ih fun mem => h (List.mem_cons_of_mem _ mem)]
    exact other
  | case3 => rfl

theorem slash_notMem_sanitizePathSegment (segment : String) :
    '/' ∉ (sanitizePathSegment segment).toList := by
  unfold sanitizePathSegment
  simp only
  split_ifs
  · decide
  · rw [String.toList_ofList]
    intro mem
    rcases mem_replaceDots mem with eq | there
    · exact absurd eq (by decide)
    · simp only [Text.toList_replaceChar, List.map_map, List.mem_map, Function.comp_apply] at there
      obtain ⟨c, -, same⟩ := there
      split_ifs at same <;> simp_all

/-- Ids such as the server's own, of hexadecimal digits and dashes. -/
theorem sanitizePathSegment_eq_self {id : String} (ne : id ≠ "")
    (plain : ∀ c ∈ id.toList, c ≠ '/' ∧ c ≠ '\\' ∧ c ≠ '.') : sanitizePathSegment id = id := by
  have slash : '/' ∉ id.toList := fun mem => (plain _ mem).1 rfl
  have backslash : '\\' ∉ id.toList := fun mem => (plain _ mem).2.1 rfl
  have dot : '.' ∉ id.toList := fun mem => (plain _ mem).2.2 rfl
  unfold sanitizePathSegment
  rw [Text.replaceChar_eq_self _ slash, Text.replaceChar_eq_self _ backslash,
    replaceDots_eq_self dot, String.ofList_toList]
  exact if_neg ne

/-- Requests have blobs of their own when their sanitised ids differ. -/
theorem makeBlobKey_ne (cfg : Config) (runId runId' sessionId sessionId' : Option String)
    {id id' : String} (ne : sanitizePathSegment id ≠ sanitizePathSegment id') :
    makeBlobKey cfg runId sessionId id ≠ makeBlobKey cfg runId' sessionId' id' := by
  intro same
  have suffix (id : String) : '/' ∉ (sanitizePathSegment id ++ ".json").toList := by
    rw [String.toList_append, List.mem_append, not_or]
    exact ⟨slash_notMem_sanitizePathSegment id, by decide⟩
  have texts := congrArg String.toList same
  have parts (runId sessionId : Option String) (id : String) :
      ∃ root, (makeBlobKey cfg runId sessionId id).toList =
        root ++ '/' :: (sanitizePathSegment id ++ ".json").toList := by
    refine ⟨(cfg.blobKeyPrefix ++ "/" ++ sanitizePathSegment (orUnknown runId) ++ "/" ++
      sanitizePathSegment (orUnknown sessionId)).toList, ?_⟩
    simp [makeBlobKey]
  obtain ⟨root, left⟩ := parts runId sessionId id
  obtain ⟨root', right⟩ := parts runId' sessionId' id'
  rw [left, right] at texts
  have last := Text.append_slash_inj (suffix id) (suffix id') texts
  rw [String.toList_append, String.toList_append, List.append_cancel_right_eq] at last
  exact ne (String.toList_injective last)

end Names

namespace Exchange

private def request (requestId : String) (experts : Json) : Call Unit :=
  ⟨⟨requestId, some "s", .null,
    .obj [("choices", .arr [.obj [("routed_experts", experts)]])], ()⟩, none, 0⟩

/-- A request whose upload goes through. -/
private def uploaded (requestId : String) (experts : Json) : List (ExchangeLabel Unit) :=
  [.insert (request requestId experts), .insertRef requestId, .createTask requestId,
    .put requestId, .markReady requestId]

end Exchange

end TrajProxy.Store
