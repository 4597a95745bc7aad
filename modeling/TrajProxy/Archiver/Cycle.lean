import TrajProxy.Archiver.Path
import TrajProxy.Library.OrderedDict
import TrajProxy.Library.Transition
import Mathlib.Data.List.Dedup
import Mathlib.Data.List.Sort

/-! One archive cycle next to the writers of the two record tables.
Transactions are single steps: an insert, the selection of the expired runs,
the session list of a run, the cursor of one export, the upload of one file and
`_cleanup_run`. The coordinator hands sessions to workers in any order, a call
may be lost at any stage and retried or given up, and Ray may execute a call
again from its beginning.
`inserted`, `started` and `deleted` are histories that no step reads. -/

namespace TrajProxy.Archiver
open Transition

/-- A row of `request_metadata`. -/
structure Metadata where
  uniqueId : String
  runId : Option String
  sessionId : Option String
  archiveLocation : Option String

/-- A row of `request_details_active`; `payload` stands for the columns that
are only copied. -/
structure Detail (ρ : Type) where
  uniqueId : String
  createdAt : Nat
  payload : ρ

/-- The tables with their `UNIQUE` and `REFERENCES` constraints. -/
structure Tables (ρ : Type) where
  metadata : List Metadata
  details : List (Detail ρ)
  unique : (metadata.map Metadata.uniqueId).Nodup
  references : ∀ d ∈ details, d.uniqueId ∈ metadata.map Metadata.uniqueId

namespace Tables

variable {ρ : Type}

/-- The join condition of a detail row with the metadata of a session. -/
def Belongs (metadata : List Metadata) (d : Detail ρ) (runId sessionId : Option String) : Prop :=
  ∃ m ∈ metadata, m.uniqueId = d.uniqueId ∧ m.runId = runId ∧ m.sessionId = sessionId

instance (metadata : List Metadata) (d : Detail ρ) (runId sessionId : Option String) :
    Decidable (Belongs metadata d runId sessionId) :=
  inferInstanceAs (Decidable (∃ m ∈ metadata, _))

/-- The rows the cursor of `_export_session` runs over. -/
def sessionRows (db : Tables ρ) (t : ArchiveTask) : List (Detail ρ) :=
  (db.details.filter fun d => Belongs db.metadata d (some t.runId) t.sessionId).insertionSort
    fun d e => d.createdAt ≤ e.createdAt

/-- `RequestRepository.insert`: both rows in one transaction. -/
def insert (db : Tables ρ) (m : Metadata) (createdAt : Nat) (payload : ρ) : Tables ρ :=
  if used : m.uniqueId ∈ db.metadata.map Metadata.uniqueId then db
  else
    { metadata := db.metadata ++ [m]
      details := db.details ++ [⟨m.uniqueId, createdAt, payload⟩]
      unique := by
        rw [List.map_append, List.nodup_append]
        refine ⟨db.unique, by simp, ?_⟩
        intro a mem b mem' eq
        rw [List.map_singleton, List.mem_singleton] at mem'
        exact used (mem' ▸ eq ▸ mem)
      references := by
        intro d mem
        rw [List.map_append, List.mem_append]
        cases List.mem_append.mp mem with
        | inl old => exact .inl (db.references d old)
        | inr new => exact .inr (by simp [List.mem_singleton.mp new]) }

def joinedRuns (db : Tables ρ) : List (Option String × Nat) :=
  db.details.flatMap fun d =>
    (db.metadata.filter fun m => m.uniqueId = d.uniqueId).map fun m => (m.runId, d.createdAt)

/-- `_find_expired_runs` -/
def findExpiredRuns (db : Tables ρ) (threshold : Nat) : List {runId : String // runId ≠ ""} :=
  let runs := (db.joinedRuns.filterMap fun row =>
    match row.1 with
    | some runId => if h : runId ≠ "" then some ⟨runId, h⟩ else none
    | none => none).dedup
  runs.filter fun r => db.joinedRuns.all fun row => row.1 ≠ some r.1 ∨ row.2 < threshold

/-- `_get_run_sessions` -/
def getRunSessions (db : Tables ρ) (runId : String) : List (Option String) :=
  ((db.metadata.filter fun m => m.runId = some runId ∧
    ∃ d ∈ db.details, d.uniqueId = m.uniqueId).map Metadata.sessionId).dedup

/-- `_cleanup_run` deletes a row of one of the listed sessions. -/
def Cleaned (metadata : List Metadata) (runId : String) (sessions : List (Option String))
    (d : Detail ρ) : Prop :=
  ∃ m ∈ metadata, m.uniqueId = d.uniqueId ∧ m.runId = some runId ∧ m.sessionId ∈ sessions

instance (metadata : List Metadata) (runId : String) (sessions : List (Option String))
    (d : Detail ρ) : Decidable (Cleaned metadata runId sessions d) :=
  inferInstanceAs (Decidable (∃ m ∈ metadata, _))

def markArchived (location runId : String) (sessions : List (Option String)) (m : Metadata) :
    Metadata :=
  if m.runId = some runId ∧ m.sessionId ∈ sessions ∧ m.archiveLocation = none then
    { m with archiveLocation := some location }
  else m

@[simp] theorem markArchived_uniqueId (location runId : String) (sessions : List (Option String))
    (m : Metadata) : (markArchived location runId sessions m).uniqueId = m.uniqueId := by
  unfold markArchived
  split_ifs <;> rfl

@[simp] theorem markArchived_runId (location runId : String) (sessions : List (Option String))
    (m : Metadata) : (markArchived location runId sessions m).runId = m.runId := by
  unfold markArchived
  split_ifs <;> rfl

@[simp] theorem markArchived_sessionId (location runId : String)
    (sessions : List (Option String)) (m : Metadata) :
    (markArchived location runId sessions m).sessionId = m.sessionId := by
  unfold markArchived
  split_ifs <;> rfl

/-- `_cleanup_run` -/
def cleanupRun (db : Tables ρ) (runId location : String) (sessions : List (Option String)) :
    Tables ρ where
  metadata := db.metadata.map (markArchived location runId sessions)
  details := db.details.filter fun d => ¬Cleaned db.metadata runId sessions d
  unique := by
    have keys : (Metadata.uniqueId ∘ markArchived location runId sessions) =
        Metadata.uniqueId := by
      funext m
      exact markArchived_uniqueId ..
    rw [List.map_map, keys]
    exact db.unique
  references := by
    intro d mem
    have keys : (Metadata.uniqueId ∘ markArchived location runId sessions) =
        Metadata.uniqueId := by
      funext m
      exact markArchived_uniqueId ..
    rw [List.map_map, keys]
    exact db.references d (List.mem_of_mem_filter mem)

end Tables

structure Settings where
  tempRoot : List String
  compress : Bool
  locationPrefix : String

/-- How far one `archive` call has come. -/
inductive Stage | submitted | exported | uploaded
  deriving DecidableEq

/-- `_archive_run` of one run: the sessions to hand out and those collected. -/
structure Run where
  runId : String
  runId_ne : runId ≠ ""
  pending : List (Option String)
  successful : List (Option String)

def Run.task (run : Run) (sessionId : Option String) : ArchiveTask :=
  ⟨run.runId, sessionId, run.runId_ne⟩

theorem Run.task_eq {run : Run} {t : ArchiveTask} (own : t.runId = run.runId) :
    run.task t.sessionId = t := by
  cases t
  cases own
  rfl

structure Cycle (ρ : Type) where
  db : Tables ρ
  temp : OrderedDict (List String) (List (Detail ρ))
  storage : OrderedDict String (List (Detail ρ))
  /-- expired runs still to be archived, `none` before the selection -/
  runs : Option (List {runId : String // runId ≠ ""})
  current : Option Run
  jobs : OrderedDict ArchiveTask Stage
  /-- sessions with a record inserted since their last export -/
  inserted : List (Option String × Option String)
  started : List ArchiveTask
  deleted : List (Detail ρ)

inductive Event (ρ : Type)
  | insert (uniqueId : String) (sessionId runId : Option String) (createdAt : Nat) (payload : ρ)
  | findExpiredRuns (threshold : Nat)
  | startRun
  | dispatch (sessionId : Option String)
  | export (t : ArchiveTask)
  | upload (t : ArchiveTask)
  | collect (t : ArchiveTask)
  | restart (t : ArchiveTask)
  | lose (t : ArchiveTask) (unlinked retried : Bool)
  | abortRun
  | cleanup

section Steps

variable {ρ : Type} (cfg : Settings)

/-- `session_id or ""`, as the metadata row gets it. -/
def storedSession : Option String → Option String
  | some session => some session
  | none => some ""

/-- `_export_session` and the branch of `archive` on its count. -/
def Cycle.exportSession (s : Cycle ρ) (t : ArchiveTask) : Cycle ρ :=
  let rows := s.db.sessionRows t
  let path := t.tempPath cfg.tempRoot cfg.compress
  let s := { s with inserted := s.inserted.filter (· ≠ (some t.runId, t.sessionId)) }
  if rows.isEmpty then
    { s with temp := s.temp.pop path, jobs := s.jobs.setItem t .uploaded }
  else
    { s with temp := s.temp.setItem path rows, jobs := s.jobs.setItem t .exported }

def Cycle.cleanup (s : Cycle ρ) (run : Run) : Cycle ρ :=
  { s with
    db := s.db.cleanupRun run.runId (cfg.locationPrefix ++ safePath run.runId ++ "/")
      run.successful
    deleted := s.deleted ++
      s.db.details.filter fun d => Tables.Cleaned s.db.metadata run.runId run.successful d
    current := none }

def Cycle.step (s : Cycle ρ) : Event ρ → Option (Cycle ρ)
  | .insert uniqueId sessionId runId createdAt payload =>
    -- a second record of one `unique_id` is rolled back
    if uniqueId ∈ s.db.metadata.map Metadata.uniqueId then some s
    else some { s with
      db := s.db.insert ⟨uniqueId, runId, storedSession sessionId, none⟩ createdAt payload
      inserted := (runId, storedSession sessionId) :: s.inserted }
  | .findExpiredRuns threshold =>
    match s.runs with
    | none => some { s with runs := some (s.db.findExpiredRuns threshold) }
    | some _ => none
  | .startRun =>
    match s.runs, s.current with
    | some (r :: rest), none => some { s with
        runs := some rest
        current := some ⟨r.1, r.2, s.db.getRunSessions r.1, []⟩ }
    | _, _ => none
  | .dispatch sessionId =>
    match s.current with
    | some run =>
      if sessionId ∈ run.pending then some { s with
        current := some { run with pending := run.pending.erase sessionId }
        jobs := s.jobs.setItem (run.task sessionId) .submitted
        started := run.task sessionId :: s.started }
      else none
    | none => none
  | .export t =>
    match s.jobs.get t with
    | some .submitted => some (s.exportSession cfg t)
    | _ => none
  | .upload t =>
    match s.jobs.get t, s.temp.get (t.tempPath cfg.tempRoot cfg.compress) with
    | some .exported, some file => some { s with
        storage := s.storage.setItem (t.storageKey cfg.compress) file
        temp := s.temp.pop (t.tempPath cfg.tempRoot cfg.compress)
        jobs := s.jobs.setItem t .uploaded }
    | _, _ => none
  | .collect t =>
    match s.jobs.get t, s.current with
    | some .uploaded, some run =>
      if t.runId = run.runId then some { s with
        current := some { run with successful := run.successful ++ [t.sessionId] }
        jobs := s.jobs.pop t }
      else none
    | _, _ => none
  | .restart t =>
    match s.jobs.get t with
    | some _ => some { s with jobs := s.jobs.setItem t .submitted }
    | none => none
  | .lose t unlinked retried =>
    match s.jobs.get t with
    | some _ =>
      let path := t.tempPath cfg.tempRoot cfg.compress
      some { s with
        temp := if unlinked then s.temp.pop path else s.temp
        jobs := s.jobs.pop t
        current := s.current.map fun run =>
          if retried ∧ t.runId = run.runId then
            { run with pending := run.pending ++ [t.sessionId] }
          else run }
    | none => none
  | .abortRun => s.current.map fun _ => { s with current := none }
  | .cleanup =>
    match s.current with
    | some run =>
      -- the loop has ended: no call of this run is active
      if s.jobs.keys.all (·.runId ≠ run.runId) then some (s.cleanup cfg run) else none
    | none => none

/-- The cycle begins on any tables, files and archives. -/
def Cycle.begin (db : Tables ρ) (temp : OrderedDict (List String) (List (Detail ρ)))
    (storage : OrderedDict String (List (Detail ρ))) : Cycle ρ where
  db := db
  temp := temp
  storage := storage
  runs := none
  current := none
  jobs := ∅
  inserted := []
  started := []
  deleted := []

def machine : Machine (Cycle ρ) (Event ρ) where
  step := Cycle.step cfg

/-- The effect of each event. -/
inductive Cycle.Step (s : Cycle ρ) : Event ρ → Cycle ρ → Prop
  | rolledBack (uniqueId : String) (sessionId runId : Option String) (createdAt : Nat)
      (payload : ρ) :
      uniqueId ∈ s.db.metadata.map Metadata.uniqueId →
      Step s (.insert uniqueId sessionId runId createdAt payload) s
  | insert (uniqueId : String) (sessionId runId : Option String) (createdAt : Nat) (payload : ρ) :
      uniqueId ∉ s.db.metadata.map Metadata.uniqueId →
      Step s (.insert uniqueId sessionId runId createdAt payload) { s with
        db := s.db.insert ⟨uniqueId, runId, storedSession sessionId, none⟩ createdAt payload
        inserted := (runId, storedSession sessionId) :: s.inserted }
  | findExpiredRuns (threshold : Nat) :
      s.runs = none →
      Step s (.findExpiredRuns threshold) { s with
        runs := some (s.db.findExpiredRuns threshold) }
  | startRun (r : {runId : String // runId ≠ ""}) (rest : List {runId : String // runId ≠ ""}) :
      s.runs = some (r :: rest) → s.current = none →
      Step s .startRun { s with
        runs := some rest
        current := some ⟨r.1, r.2, s.db.getRunSessions r.1, []⟩ }
  | dispatch (sessionId : Option String) (run : Run) :
      s.current = some run → sessionId ∈ run.pending →
      Step s (.dispatch sessionId) { s with
        current := some { run with pending := run.pending.erase sessionId }
        jobs := s.jobs.setItem (run.task sessionId) .submitted
        started := run.task sessionId :: s.started }
  | exported (t : ArchiveTask) :
      s.jobs.get t = some .submitted → Step s (.export t) (s.exportSession cfg t)
  | upload (t : ArchiveTask) (file : List (Detail ρ)) :
      s.jobs.get t = some .exported →
      s.temp.get (t.tempPath cfg.tempRoot cfg.compress) = some file →
      Step s (.upload t) { s with
        storage := s.storage.setItem (t.storageKey cfg.compress) file
        temp := s.temp.pop (t.tempPath cfg.tempRoot cfg.compress)
        jobs := s.jobs.setItem t .uploaded }
  | collect (t : ArchiveTask) (run : Run) :
      s.jobs.get t = some .uploaded → s.current = some run → t.runId = run.runId →
      Step s (.collect t) { s with
        current := some { run with successful := run.successful ++ [t.sessionId] }
        jobs := s.jobs.pop t }
  | restart (t : ArchiveTask) (stage : Stage) :
      s.jobs.get t = some stage →
      Step s (.restart t) { s with jobs := s.jobs.setItem t .submitted }
  | lose (t : ArchiveTask) (unlinked retried : Bool) (stage : Stage) :
      s.jobs.get t = some stage →
      Step s (.lose t unlinked retried) { s with
        temp := if unlinked then s.temp.pop (t.tempPath cfg.tempRoot cfg.compress) else s.temp
        jobs := s.jobs.pop t
        current := s.current.map fun run =>
          if retried ∧ t.runId = run.runId then
            { run with pending := run.pending ++ [t.sessionId] }
          else run }
  | abortRun (run : Run) :
      s.current = some run → Step s .abortRun { s with current := none }
  | cleanup (run : Run) :
      s.current = some run → s.jobs.keys.all (·.runId ≠ run.runId) →
      Step s .cleanup (s.cleanup cfg run)

theorem Cycle.step_cases {cfg : Settings} {s s' : Cycle ρ} {e : Event ρ}
    (taken : s.step cfg e = some s') : s.Step cfg e s' := by
  cases e with
  | insert uniqueId sessionId runId createdAt payload =>
    rw [Cycle.step] at taken
    split_ifs at taken with used
    · obtain rfl := Option.some.inj taken
      exact .rolledBack uniqueId sessionId runId createdAt payload used
    · obtain rfl := Option.some.inj taken
      exact .insert uniqueId sessionId runId createdAt payload used
  | findExpiredRuns threshold =>
    rw [Cycle.step] at taken
    split at taken
    · rename_i first
      obtain rfl := Option.some.inj taken
      exact .findExpiredRuns threshold first
    · cases taken
  | startRun =>
    rw [Cycle.step] at taken
    split at taken
    · rename_i r rest runs idle
      obtain rfl := Option.some.inj taken
      exact .startRun r rest runs idle
    · cases taken
  | dispatch sessionId =>
    rw [Cycle.step] at taken
    split at taken
    · rename_i run now
      split_ifs at taken with mem
      obtain rfl := Option.some.inj taken
      exact .dispatch sessionId run now mem
    · cases taken
  | «export» t =>
    rw [Cycle.step] at taken
    split at taken
    · rename_i job
      obtain rfl := Option.some.inj taken
      exact .exported t job
    · cases taken
  | upload t =>
    rw [Cycle.step] at taken
    split at taken
    · rename_i file job present
      obtain rfl := Option.some.inj taken
      exact .upload t file job present
    · cases taken
  | collect t =>
    rw [Cycle.step] at taken
    split at taken
    · rename_i run job now
      split_ifs at taken with own
      obtain rfl := Option.some.inj taken
      exact .collect t run job now own
    · cases taken
  | restart t =>
    rw [Cycle.step] at taken
    split at taken
    · rename_i stage job
      obtain rfl := Option.some.inj taken
      exact .restart t stage job
    · cases taken
  | lose t unlinked retried =>
    rw [Cycle.step] at taken
    split at taken
    · rename_i stage job
      obtain rfl := Option.some.inj taken
      exact .lose t unlinked retried stage job
    · cases taken
  | abortRun =>
    rw [Cycle.step, Option.map_eq_some_iff] at taken
    obtain ⟨run, now, rfl⟩ := taken
    exact .abortRun run now
  | cleanup =>
    rw [Cycle.step] at taken
    split at taken
    · rename_i run now
      split_ifs at taken with ended
      obtain rfl := Option.some.inj taken
      exact .cleanup run now ended
    · cases taken

end Steps

end TrajProxy.Archiver
