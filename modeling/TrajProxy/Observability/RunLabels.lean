import TrajProxy.Library.Transition
import TrajProxy.Serve.ModelId

/-! Run labels of the metrics: `safe_run_id_label` keeps the last thirty run ids and
removes the children of the one it evicts. The API middleware takes the label of a request
before it awaits the handler and records with it afterwards. -/

namespace TrajProxy.Observability
open Transition

/-- The metrics with labels. -/
inductive Metric
  | requestTotal | requestDuration | maxConcurrent | semaphoreWaitDuration | semaphoreRejected
  | ttftSeconds | streamCompletion | streamClientDisconnect | phaseDuration | tokensTotal
  | sequenceLengthTokens | inferDuration | inferErrors | inferRetries | dbPoolUsage
  | trajectoryStoreErrors | trajectoryStoreDuration | modelLifecycle | apiRequestsTotal
  | apiRequestDuration | apiErrors | requestInferErrors | trajectoryRecordCount
  | trajectoryResponseSizeBytes | cacheLookups
  deriving DecidableEq

def Metric.labelnames : Metric → List String
  | .requestTotal => ["method", "model", "stream", "outcome", "run_id", "pipeline_mode", "base_url"]
  | .requestDuration => ["model", "stream", "run_id"]
  | .maxConcurrent => ["model"]
  | .semaphoreWaitDuration => ["model"]
  | .semaphoreRejected => ["model"]
  | .ttftSeconds => ["model", "run_id"]
  | .streamCompletion => ["model", "run_id", "result"]
  | .streamClientDisconnect => ["model"]
  | .phaseDuration => ["model", "phase", "run_id"]
  | .tokensTotal => ["model", "run_id", "type"]
  | .sequenceLengthTokens => ["model", "run_id"]
  | .inferDuration => ["model"]
  | .inferErrors => ["model", "error_type"]
  | .inferRetries => ["model", "outcome"]
  | .dbPoolUsage => ["state"]
  | .trajectoryStoreErrors => ["model", "error_type", "run_id"]
  | .trajectoryStoreDuration => ["model", "run_id"]
  | .modelLifecycle => ["action", "type"]
  | .apiRequestsTotal => ["route", "method", "status_code", "run_id"]
  | .apiRequestDuration => ["route", "run_id"]
  | .apiErrors => ["route", "run_id", "error_category"]
  | .requestInferErrors => ["model", "error_type", "run_id"]
  | .trajectoryRecordCount => ["route", "run_id"]
  | .trajectoryResponseSizeBytes => ["route", "run_id"]
  | .cacheLookups => ["model", "run_id", "result"]

/-- `_METRICS_WITH_RUN_ID` -/
def metricsWithRunId : List (Metric × Nat) :=
  [(.requestTotal, 4), (.requestDuration, 2), (.ttftSeconds, 1), (.streamCompletion, 1),
    (.phaseDuration, 2), (.tokensTotal, 1), (.sequenceLengthTokens, 1),
    (.trajectoryStoreErrors, 2), (.trajectoryStoreDuration, 1), (.apiRequestsTotal, 3),
    (.apiRequestDuration, 1), (.apiErrors, 1), (.requestInferErrors, 2),
    (.trajectoryRecordCount, 1), (.trajectoryResponseSizeBytes, 1), (.cacheLookups, 1)]

/-- A child of a metric: the values of its labels. -/
structure Child where
  metric : Metric
  values : List String
  deriving DecidableEq

/-- The value of the label `run_id`, of metrics that have one. -/
def Child.runLabel (c : Child) : Option String :=
  (c.metric.labelnames.idxOf? "run_id").bind fun i => c.values[i]?

/-- The table lists the metrics with a run label, each with the place of the label. -/
theorem metricsWithRunId_spec (m : Metric) :
    (metricsWithRunId.find? fun e => e.1 = m).map Prod.snd = m.labelnames.idxOf? "run_id" := by
  cases m <;> decide

section Events

/-- What `_on_request_completed` reads of a context. -/
structure RequestContext where
  runId : Option String
  isStream : Bool
  pipelineMode : Option String
  baseUrl : Option String
  transformMs : Option Nat
  encodeMs : Option Nat
  cacheDbQueryMs : Option Nat
  cachePrefixMatchMs : Option Nat
  inferenceMs : Option Nat
  decodeMs : Option Nat
  storeMs : Option Nat
  promptTokens : Option Nat
  completionTokens : Option Nat
  cacheHitTokens : Option Nat
  ttftMs : Option Nat
  streamFinished : Bool
  streamChunkCount : Nat

/-- The events whose handler records a run label. `model` is what `safe_model_label` gave,
`outcome` and `inferError` what `determine_outcome` and `classify_infer_error` did. -/
inductive Event
  | requestCompleted (context : RequestContext) (model outcome : String)
      (inferError : Option String)
  | concurrencyRejected (model : String) (runId : Option String)
  | trajectoryStoreError (model errorType : String) (runId : Option String)
  | apiError (route : String) (runId : Option String) (errorCategory : String)
  | trajectoryQueryCompleted (route : String) (runId : Option String)

/-- `text or default` -/
def textOr (default : String) : Option String → String
  | none | some "" => default
  | some text => text

/-- `if n:` -/
def truthy (n : Option Nat) : Bool := n.getD 0 ≠ 0

/-- The run id an event's handler passes to `safe_run_id_label`. -/
def Event.runId : Event → String
  | .requestCompleted context _ _ _ => context.runId.getD ""
  | .concurrencyRejected _ runId => runId.getD ""
  | .trajectoryStoreError _ _ runId => runId.getD ""
  | .apiError _ runId _ => runId.getD ""
  | .trajectoryQueryCompleted _ runId => runId.getD ""

/-- The children that one of `if` and `for` of a handler records. -/
def recordIf (condition : Bool) (metric : Metric) (values : List String) : List Child :=
  if condition then [⟨metric, values⟩] else []

def phases (c : RequestContext) : List (String × Option Nat) :=
  [("transform", c.transformMs), ("encode", c.encodeMs), ("cache_db_query", c.cacheDbQueryMs),
    ("cache_prefix_match", c.cachePrefixMatchMs), ("inference", c.inferenceMs),
    ("decode", c.decodeMs)]

def streamResult (c : RequestContext) : String :=
  if c.streamFinished && 0 < c.streamChunkCount then "full"
  else if 0 < c.streamChunkCount then "partial"
  else "empty"

/-- `_on_request_completed`, from `REQUEST_TOTAL` on. -/
def onRequestCompleted (c : RequestContext) (model outcome : String) (inferError : Option String)
    (runId : String) : List Child :=
  let stream := if c.isStream then "true" else "false"
  let mode := textOr "direct" c.pipelineMode
  let cacheResult := if 0 < c.cacheHitTokens.getD 0 then "hit" else "miss"
  [⟨.requestTotal, ["POST", model, stream, outcome, runId, mode, textOr "unknown" c.baseUrl]⟩] ++
  recordIf ((outcome = "error_infer" || outcome = "timeout") && inferError.isSome)
    .requestInferErrors [model, inferError.getD "", runId] ++
  [⟨.requestDuration, [model, stream, runId]⟩] ++
  ((phases c).flatMap fun phase =>
    recordIf phase.2.isSome .phaseDuration [model, phase.1, runId]) ++
  recordIf c.storeMs.isSome .trajectoryStoreDuration [model, runId] ++
  recordIf (truthy c.promptTokens) .tokensTotal [model, runId, "prompt"] ++
  recordIf (truthy c.completionTokens) .tokensTotal [model, runId, "completion"] ++
  recordIf (truthy c.cacheHitTokens) .tokensTotal [model, runId, "cached"] ++
  recordIf (mode = "tito" && c.cacheDbQueryMs.isSome) .cacheLookups [model, runId, cacheResult] ++
  recordIf (0 < c.promptTokens.getD 0 + c.completionTokens.getD 0) .sequenceLengthTokens
    [model, runId] ++
  recordIf (c.isStream && c.ttftMs.isSome) .ttftSeconds [model, runId] ++
  recordIf c.isStream .streamCompletion [model, runId, streamResult c]

/-- The children a handler records under the run label it got. -/
def Event.children (runId : String) : Event → List Child
  | .requestCompleted context model outcome inferError =>
    onRequestCompleted context model outcome inferError runId
  | .concurrencyRejected model _ =>
    [⟨.semaphoreRejected, [model]⟩,
      ⟨.requestTotal, ["POST", model, "false", "error_rate_limit", runId, "direct", "unknown"]⟩]
  | .trajectoryStoreError model errorType _ =>
    [⟨.trajectoryStoreErrors, [model, errorType, runId]⟩]
  | .apiError route _ errorCategory => [⟨.apiErrors, [route, runId, errorCategory]⟩]
  | .trajectoryQueryCompleted route _ =>
    [⟨.trajectoryRecordCount, [route, runId]⟩, ⟨.trajectoryResponseSizeBytes, [route, runId]⟩]

variable {c : Child} {runId : String}

/-- The run label is `runId` where there is one. -/
def Labelled (runId : String) (c : Child) : Prop := ∀ label ∈ c.runLabel, label = runId

theorem labelled_singleton (same : c.runLabel = some runId) : ∀ c' ∈ [c], Labelled runId c' := by
  intro c' mem label own
  obtain rfl := List.mem_singleton.mp mem
  exact Option.some_inj.mp (own.symm.trans same)

theorem labelled_recordIf {condition : Bool} {metric : Metric} {values : List String}
    (same : (⟨metric, values⟩ : Child).runLabel = some runId) :
    ∀ c ∈ recordIf condition metric values, Labelled runId c := by
  unfold recordIf
  split_ifs
  · exact labelled_singleton same
  · exact List.forall_mem_nil _

/-- Every handler records under one run label. -/
theorem labelled_children (e : Event) (runId : String) :
    ∀ c ∈ e.children runId, Labelled runId c := by
  cases e with
  | requestCompleted context model outcome inferError =>
    have perPhase : ∀ c ∈ (phases context).flatMap fun phase =>
        recordIf phase.2.isSome .phaseDuration [model, phase.1, runId], Labelled runId c := by
      intro c mem
      obtain ⟨phase, -, mem⟩ := List.mem_flatMap.mp mem
      exact labelled_recordIf rfl c mem
    unfold Event.children onRequestCompleted
    simp only [List.forall_mem_append, and_assoc]
    exact ⟨labelled_singleton rfl, labelled_recordIf rfl, labelled_singleton rfl, perPhase,
      labelled_recordIf rfl, labelled_recordIf rfl, labelled_recordIf rfl, labelled_recordIf rfl,
      labelled_recordIf rfl, labelled_recordIf rfl, labelled_recordIf rfl, labelled_recordIf rfl⟩
  | concurrencyRejected model _ =>
    have plain : Labelled runId ⟨.semaphoreRejected, [model]⟩ := by
      intro label own
      nomatch own
    unfold Event.children
    rw [List.forall_mem_cons]
    exact ⟨plain, labelled_singleton rfl⟩
  | trajectoryStoreError model errorType _ => exact labelled_singleton rfl
  | apiError route _ errorCategory => exact labelled_singleton rfl
  | trajectoryQueryCompleted route _ =>
    unfold Event.children
    rw [List.forall_mem_cons]
    exact ⟨labelled_singleton rfl _ List.mem_cons_self, labelled_singleton rfl⟩

end Events

section Machine

def maxRunIdCardinality : Nat := 30

/-- A request between the two halves of `api_metrics_middleware`; the fields of its state
the handler may write are `metric_run_id` and `_api_error_emitted`. -/
structure ApiRequest where
  route : String
  method : String
  metricRunId : Option String
  apiErrorEmitted : Bool

structure Metrics where
  /-- `_KNOWN_RUN_IDS`, last used at the end -/
  known : OrderedDict String Unit
  live : List Child
  requests : OrderedDict Nat ApiRequest

/-- How `call_next` ends. -/
inductive Result
  | response (statusCode : String)
  | raised

/-- `_TRAJECTORY_ROUTES` -/
def trajectoryRoutes : List String := ["trajectory_list", "trajectory_detail", "trajectory_legacy"]

/-- The category the middleware reports itself. -/
def ApiRequest.fallbackError (r : ApiRequest) : Result → Option String
  | .raised => if r.route ∈ trajectoryRoutes then some "server_error" else none
  | .response code =>
    if r.route ∈ trajectoryRoutes ∧ code = "422" ∧ r.apiErrorEmitted = false then
      some "validation"
    else none

def Result.statusCode : Result → String
  | .response code => code
  | .raised => "500"

/-- What happens between two suspension points. -/
inductive Step
  | arrive (id : Nat) (route method : String) (runIdParam : Option String)
  /-- The handler sets `metric_run_id` to the empty text. -/
  | resetLabel (id : Nat)
  /-- The handler sets `metric_run_id` to the label of the run it found. -/
  | findLabel (id : Nat) (runId : String)
  | markEmitted (id : Nat)
  | event (e : Event)
  | finish (id : Nat) (result : Result)

/-- `cleanup_evicted_run_id` -/
def cleanupEvictedRunId (runId : String) (live : List Child) : List Child :=
  live.filter fun c =>
    !metricsWithRunId.any fun e => c.metric = e.1 && c.values[e.2]? = some runId

/-- `metric.labels(…)`: the child is made if it is not there. -/
def record (live : List Child) (c : Child) : List Child := if c ∈ live then live else live ++ [c]

namespace Metrics

def initial : Metrics := ⟨∅, [], ∅⟩

/-- The entry the full dictionary gives up. -/
def evict (s : Metrics) : Metrics :=
  match s.known.first with
  | some (evicted, _) =>
    { s with known := s.known.pop evicted, live := cleanupEvictedRunId evicted s.live }
  | none => s

/-- `safe_run_id_label`, which gives its argument back. -/
def safeRunIdLabel (s : Metrics) (runId : String) : Metrics :=
  if runId = "" then s
  else if runId ∈ s.known then { s with known := s.known.moveToEnd runId }
  else
    let s := if maxRunIdCardinality ≤ s.known.size then s.evict else s
    { s with known := s.known.setItem runId () }

def recordAll (s : Metrics) (children : List Child) : Metrics :=
  { s with live := children.foldl record s.live }

/-- A handler of an event. -/
def handle (s : Metrics) (e : Event) : Metrics :=
  (s.safeRunIdLabel e.runId).recordAll (e.children e.runId)

def update (s : Metrics) (id : Nat) (f : ApiRequest → ApiRequest) : Option Metrics :=
  (s.requests.get id).map fun r => { s with requests := s.requests.setItem id (f r) }

/-- The middleware before `call_next`. -/
def arrive (s : Metrics) (id : Nat) (route method : String) (runIdParam : Option String) :
    Metrics :=
  if route = "trajectory_list" then
    let runId := Serve.normalizeRunId runIdParam
    let s := s.safeRunIdLabel runId
    { s with requests := s.requests.setItem id ⟨route, method, some runId, false⟩ }
  else { s with requests := s.requests.setItem id ⟨route, method, none, false⟩ }

/-- The middleware after `call_next`. -/
def finish (s : Metrics) (id : Nat) (r : ApiRequest) (result : Result) : Metrics :=
  let label := r.metricRunId.getD ""
  let s := { s with requests := s.requests.pop id }
  let s := s.recordAll [⟨.apiRequestDuration, [r.route, label]⟩,
    ⟨.apiRequestsTotal, [r.route, r.method, result.statusCode, label]⟩]
  match r.fallbackError result with
  | some category => s.handle (.apiError r.route (some label) category)
  | none => s

def step (s : Metrics) : Step → Option Metrics
  | .arrive id route method runIdParam =>
    if id ∈ s.requests then none else some (s.arrive id route method runIdParam)
  | .resetLabel id => s.update id fun r => { r with metricRunId := some "" }
  | .findLabel id runId =>
    (s.safeRunIdLabel runId).update id fun r => { r with metricRunId := some runId }
  | .markEmitted id => s.update id fun r => { r with apiErrorEmitted := true }
  | .event e => some (s.handle e)
  | .finish id result => (s.requests.get id).map fun r => s.finish id r result

end Metrics

def machine : Machine Metrics Step := ⟨Metrics.step⟩

end Machine

section Size

variable {s s' : Metrics}

theorem size_evict (h : s.known.size ≤ maxRunIdCardinality)
    (full : maxRunIdCardinality ≤ s.known.size) : s.evict.known.size < maxRunIdCardinality := by
  have positive : 0 < maxRunIdCardinality := by decide
  unfold Metrics.evict
  rcases s.known.first_cases with ⟨none, empty⟩ | ⟨evicted, v, first, mem⟩
  · omega
  · rw [first]
    dsimp only
    rw [OrderedDict.size_pop, if_pos mem]
    omega

theorem size_safeRunIdLabel (h : s.known.size ≤ maxRunIdCardinality) (runId : String) :
    (s.safeRunIdLabel runId).known.size ≤ maxRunIdCardinality := by
  have add : ∀ known : OrderedDict String Unit, known.size < maxRunIdCardinality →
      (known.setItem runId ()).size ≤ maxRunIdCardinality :=
    fun known room => (OrderedDict.size_setItem_le known runId ()).trans room
  unfold Metrics.safeRunIdLabel
  split_ifs with empty known full
  · exact h
  · exact (OrderedDict.size_moveToEnd s.known runId).trans_le h
  · exact add _ (size_evict h full)
  · exact add _ (Nat.lt_of_not_le full)

theorem size_handle (h : s.known.size ≤ maxRunIdCardinality) (e : Event) :
    (s.handle e).known.size ≤ maxRunIdCardinality :=
  size_safeRunIdLabel h e.runId

theorem size_update {id : Nat} {f : ApiRequest → ApiRequest}
    (h : s.known.size ≤ maxRunIdCardinality) (taken : s.update id f = some s') :
    s'.known.size ≤ maxRunIdCardinality := by
  obtain ⟨r, -, rfl⟩ := Option.map_eq_some_iff.mp taken
  exact h

theorem size_step (s : Metrics) (a : Step) (s' : Metrics)
    (h : s.known.size ≤ maxRunIdCardinality) (taken : machine.step s a = some s') :
    s'.known.size ≤ maxRunIdCardinality := by
  cases a with
  | arrive id route method runIdParam =>
    simp only [machine, Metrics.step] at taken
    split_ifs at taken
    cases taken
    unfold Metrics.arrive
    split_ifs
    · exact size_safeRunIdLabel h _
    · exact h
  | resetLabel id => exact size_update h taken
  | findLabel id runId => exact size_update (size_safeRunIdLabel h runId) taken
  | markEmitted id => exact size_update h taken
  | event e =>
    cases taken
    exact size_handle h e
  | finish id result =>
    obtain ⟨r, -, rfl⟩ := Option.map_eq_some_iff.mp taken
    unfold Metrics.finish
    dsimp only
    split
    · refine size_handle ?_ _
      exact h
    · exact h

/-- The known run ids never exceed their bound, whatever the requests do. -/
theorem size_along (run : List Step) :
    machine.Along (fun s => s.known.size ≤ maxRunIdCardinality) .initial run :=
  Machine.along_of_step size_step (Nat.zero_le _) run

end Size

section Bounded

variable {s s' : Metrics} {runId label : String} {children : List Child} {c : Child}

/-- The value of a live child's run label is empty or a known run id. -/
def Known (s : Metrics) (label : String) : Prop := label = "" ∨ label ∈ s.known

/-- The bound on the series: thirty known run ids, and no label beside them but the empty
one. -/
structure Bounded (s : Metrics) : Prop where
  size : s.known.size ≤ maxRunIdCardinality
  labels : ∀ c ∈ s.live, ∀ label ∈ c.runLabel, Known s label
  series : (s.live.filterMap Child.runLabel).dedup.length ≤ maxRunIdCardinality + 1

theorem bounded_of_labels (size : s.known.size ≤ maxRunIdCardinality)
    (labels : ∀ c ∈ s.live, ∀ label ∈ c.runLabel, Known s label) : Bounded s := by
  refine ⟨size, labels, ?_⟩
  have subset : (s.live.filterMap Child.runLabel).dedup ⊆ "" :: s.known.keys := by
    intro label mem
    obtain ⟨c, live, own⟩ := List.mem_filterMap.mp (List.mem_dedup.mp mem)
    rcases labels c live label own with rfl | known
    · exact List.mem_cons_self
    · exact List.mem_cons_of_mem _ (AList.mem_keys.mp known)
  have le := (List.subperm_of_subset (List.nodup_dedup _) subset).length_le
  rw [List.length_cons, ← OrderedDict.size_eq] at le
  omega

/-- An evicted run id is on no child any more. -/
theorem mem_cleanup {live : List Child} (mem : c ∈ cleanupEvictedRunId runId live) :
    c ∈ live ∧ c.runLabel ≠ some runId := by
  obtain ⟨there, kept⟩ := List.mem_filter.mp mem
  refine ⟨there, fun own => ?_⟩
  rw [Child.runLabel, ← metricsWithRunId_spec, Option.bind_eq_some_iff] at own
  obtain ⟨i, place, value⟩ := own
  obtain ⟨e, found, rfl⟩ := Option.map_eq_some_iff.mp place
  have here := List.find?_some found
  have metric : e.1 = c.metric := of_decide_eq_true here
  rw [Bool.not_eq_true', List.any_eq_false] at kept
  refine kept e (List.mem_of_find?_eq_some found) ?_
  rw [metric, value]
  simp

/-- The bound but for one run id, which `safe_run_id_label` may still make known. -/
structure BoundedBut (runId : String) (s : Metrics) : Prop where
  size : s.known.size ≤ maxRunIdCardinality
  labels : ∀ c ∈ s.live, ∀ label ∈ c.runLabel, Known s label ∨ label = runId

theorem Bounded.but (h : Bounded s) (runId : String) : BoundedBut runId s :=
  ⟨h.size, fun c live label own => .inl (h.labels c live label own)⟩

theorem BoundedBut.bounded (h : BoundedBut runId s) (known : Known s runId) : Bounded s := by
  refine bounded_of_labels h.size ?_
  intro c live label own
  rcases h.labels c live label own with old | rfl
  · exact old
  · exact known

theorem evict_but (h : BoundedBut runId s) (full : maxRunIdCardinality ≤ s.known.size) :
    BoundedBut runId s.evict := by
  refine ⟨(size_evict h.size full).le, ?_⟩
  unfold Metrics.evict
  rcases s.known.first_cases with ⟨none, -⟩ | ⟨evicted, v, first, -⟩
  · rw [none]
    exact h.labels
  · rw [first]
    intro c live label own
    obtain ⟨there, other⟩ := mem_cleanup live
    refine (h.labels c there label own).imp_left (Or.imp_right fun known => ?_)
    refine (OrderedDict.mem_pop ..).mpr ⟨fun same => other ?_, known⟩
    rw [← same]
    exact own

theorem setItem_spec (h : BoundedBut runId s) (room : s.known.size < maxRunIdCardinality) :
    Bounded { s with known := s.known.setItem runId () } ∧
      Known { s with known := s.known.setItem runId () } runId := by
  have known : Known { s with known := s.known.setItem runId () } runId :=
    .inr ((OrderedDict.mem_setItem ..).mpr (.inl rfl))
  have but : BoundedBut runId { s with known := s.known.setItem runId () } := by
    refine ⟨(OrderedDict.size_setItem_le s.known runId ()).trans room, ?_⟩
    intro c live label own
    exact (h.labels c live label own).imp_left (Or.imp_right fun known =>
      (OrderedDict.mem_setItem ..).mpr (.inr known))
  exact ⟨but.bounded known, known⟩

/-- `safe_run_id_label` restores the bound and knows the run id it gives back. -/
theorem safeRunIdLabel_spec (h : BoundedBut runId s) :
    Bounded (s.safeRunIdLabel runId) ∧ Known (s.safeRunIdLabel runId) runId := by
  unfold Metrics.safeRunIdLabel
  split_ifs with empty known full
  · exact ⟨h.bounded (.inl empty), .inl empty⟩
  · have moved : Known { s with known := s.known.moveToEnd runId } runId :=
      .inr ((OrderedDict.mem_moveToEnd ..).mpr known)
    have but : BoundedBut runId { s with known := s.known.moveToEnd runId } := by
      refine ⟨(OrderedDict.size_moveToEnd s.known runId).trans_le h.size, ?_⟩
      intro c live label own
      exact (h.labels c live label own).imp_left
        (Or.imp_right (OrderedDict.mem_moveToEnd ..).mpr)
    exact ⟨but.bounded moved, moved⟩
  · exact setItem_spec (evict_but h full) (size_evict h.size full)
  · exact setItem_spec h (Nat.lt_of_not_le full)

theorem mem_record {live : List Child} {c' : Child} : c ∈ record live c' ↔ c ∈ live ∨ c = c' := by
  unfold record
  split_ifs with there
  · exact ⟨.inl, fun mem => mem.elim id fun same => same ▸ there⟩
  · rw [List.mem_append, List.mem_singleton]

theorem mem_recordAll : c ∈ (s.recordAll children).live ↔ c ∈ s.live ∨ c ∈ children := by
  unfold Metrics.recordAll
  induction children generalizing s with
  | nil => simp
  | cons c' children ih =>
    rw [List.foldl_cons, List.mem_cons, ← or_assoc, ← mem_record]
    exact ih (s := { s with live := record s.live c' })

theorem recordAll_but (h : Bounded s) (labelled : ∀ c ∈ children, Labelled runId c) :
    BoundedBut runId (s.recordAll children) := by
  refine ⟨h.size, ?_⟩
  intro c live label own
  rcases mem_recordAll.mp live with old | new
  · exact .inl (h.labels c old label own)
  · exact .inr (labelled c new label own)

theorem handle_bounded (e : Event) (h : BoundedBut e.runId s) : Bounded (s.handle e) := by
  obtain ⟨bounded, known⟩ := safeRunIdLabel_spec h
  exact (recordAll_but bounded (labelled_children e e.runId)).bounded known

/-- The middleware records under a label that is still known, or reports an error, which
makes it known again. -/
def Admitted (s : Metrics) : Step → Prop
  | .finish id result => ∀ r, s.requests.get id = some r →
      Known s (r.metricRunId.getD "") ∨ (r.fallbackError result).isSome
  | _ => True

theorem finish_bounded_iff (h : Bounded s) (id : Nat) (r : ApiRequest) (result : Result) :
    Bounded (s.finish id r result) ↔
      Known s (r.metricRunId.getD "") ∨ (r.fallbackError result).isSome := by
  let label := r.metricRunId.getD ""
  let ended : Metrics := { s with requests := s.requests.pop id }
  let children : List Child := [⟨.apiRequestDuration, [r.route, label]⟩,
    ⟨.apiRequestsTotal, [r.route, r.method, result.statusCode, label]⟩]
  have labelled : ∀ c ∈ children, Labelled label c :=
    List.forall_mem_cons.mpr ⟨labelled_singleton rfl _ List.mem_cons_self, labelled_singleton rfl⟩
  have still : Bounded ended := ⟨h.size, h.labels, h.series⟩
  have but : BoundedBut label (ended.recordAll children) := recordAll_but still labelled
  have finish : s.finish id r result = match r.fallbackError result with
      | some category => (ended.recordAll children).handle (.apiError r.route (some label) category)
      | none => ended.recordAll children := rfl
  rw [finish]
  cases r.fallbackError result with
  | some category => exact iff_of_true (handle_bounded _ but) (.inr rfl)
  | none =>
    rw [Option.isSome_none, or_iff_left Bool.false_ne_true]
    constructor
    · intro bounded
      have live : ⟨.apiRequestDuration, [r.route, label]⟩ ∈ (ended.recordAll children).live :=
        mem_recordAll.mpr (.inr List.mem_cons_self)
      exact bounded.labels _ live label rfl
    · exact but.bounded

theorem bounded_requests (requests : OrderedDict Nat ApiRequest) (h : Bounded s) :
    Bounded { s with requests := requests } :=
  ⟨h.size, h.labels, h.series⟩

theorem update_bounded {id : Nat} {f : ApiRequest → ApiRequest} (h : Bounded s)
    (taken : s.update id f = some s') : Bounded s' := by
  obtain ⟨r, -, rfl⟩ := Option.map_eq_some_iff.mp taken
  exact bounded_requests _ h

theorem step_bounded_iff (s : Metrics) (a : Step) (s' : Metrics) (h : Bounded s)
    (taken : machine.step s a = some s') : Bounded s' ↔ Admitted s a := by
  cases a with
  | arrive id route method runIdParam =>
    refine iff_of_true ?_ trivial
    simp only [machine, Metrics.step] at taken
    split_ifs at taken
    cases taken
    unfold Metrics.arrive
    split_ifs
    · exact bounded_requests _ (safeRunIdLabel_spec (h.but _)).1
    · exact bounded_requests _ h
  | resetLabel id => exact iff_of_true (update_bounded h taken) trivial
  | findLabel id runId =>
    exact iff_of_true (update_bounded (safeRunIdLabel_spec (h.but runId)).1 taken) trivial
  | markEmitted id => exact iff_of_true (update_bounded h taken) trivial
  | event e =>
    cases taken
    exact iff_of_true (handle_bounded e (h.but _)) trivial
  | finish id result =>
    obtain ⟨r, present, rfl⟩ := Option.map_eq_some_iff.mp taken
    rw [finish_bounded_iff h]
    constructor
    · intro admitted r' present'
      obtain rfl := Option.some_inj.mp (present.symm.trans present')
      exact admitted
    · exact fun admitted => admitted r present

theorem bounded_initial : Bounded .initial :=
  bounded_of_labels (Nat.zero_le _) (List.forall_mem_nil _)

/-- In every run the bound holds exactly while every request that ends still has a known
label. -/
theorem bounded_along_iff (run : List Step) :
    machine.Along Bounded .initial run ↔ machine.Guarded Admitted .initial run :=
  Machine.along_iff_guarded step_bounded_iff bounded_initial run

def listRequest (id : Nat) (runId : String) : Step :=
  .arrive id "trajectory_list" "GET" (some runId)

/-- A request whose label thirty others evict before it ends. -/
def evictedRun : List Step :=
  listRequest 0 "a" :: ((List.range maxRunIdCardinality).map fun n =>
    listRequest (n + 1) (String.ofList (List.replicate (n + 1) 'r'))) ++
  [.finish 0 (.response "200")]

theorem exec_evictedRun : (machine.exec .initial evictedRun).map (fun s =>
    decide (⟨.apiRequestDuration, ["trajectory_list", "a"]⟩ ∈ s.live ∧ "a" ∉ s.known)) =
      some true := by
  decide +kernel

theorem evicted_label_recorded : ¬∀ run : List Step, machine.Along Bounded .initial run := by
  intro all
  obtain ⟨s, reached, found⟩ := Option.map_eq_some_iff.mp exec_evictedRun
  obtain ⟨child, unknown⟩ := of_decide_eq_true found
  have bounded : Bounded s := (all evictedRun).exec reached
  rcases bounded.labels _ child "a" rfl with empty | known
  · exact absurd empty (by decide)
  · exact unknown known

end Bounded

end TrajProxy.Observability
