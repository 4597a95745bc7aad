import TrajProxy.Library.Search
import TrajProxy.Library.Transition
import Mathlib.Algebra.GroupWithZero.Nat

/-! `ArchiveScheduler`: the loop task of `start`, the calls of `trigger_now` and
those of `stop`, interleaved at their awaits. `archive_details` is called by the
loop and by `trigger_now`; what its own calls answer is chosen by the run.
`calls` is a history that no step reads. -/

namespace TrajProxy.Archiver.Scheduler
open Transition

/-- The statistics of `_archive_run`. -/
structure RunStats where
  sessions : Nat
  records : Nat
  files : List String
  failedSessions : Nat

structure RunDetail where
  runId : String
  sessions : Nat
  records : Nat
  failedSessions : Nat

/-- The dictionary of `archive_details`. -/
structure Result where
  runsProcessed : Nat
  sessionsArchived : Nat
  recordsArchived : Nat
  partitionsCleaned : Nat
  archiveFiles : List String
  errors : List String
  details : List RunDetail
  workerRebuilds : Nat

def Result.initial : Result := ⟨0, 0, 0, 0, [], [], [], 0⟩

/-- What the calls of one `archive_details` answer, with the Workers they leave:
`_check_worker_health`, `_archive_run` for each expired run and
`_cleanup_empty_partitions`; `none` and `.error` stand for an exception. -/
structure Answers (ω : Type) where
  health : Option ω
  runs : List (String × Except String (ω × RunStats))
  cleaned : Option Nat

section ArchiveDetails

variable {ω : Type}

def archiveRun (state : ω × Result) (run : String × Except String (ω × RunStats)) : ω × Result :=
  match run.2 with
  | .ok (workers, stats) =>
    (workers,
      { state.2 with
        runsProcessed := state.2.runsProcessed + 1
        sessionsArchived := state.2.sessionsArchived + stats.sessions
        recordsArchived := state.2.recordsArchived + stats.records
        archiveFiles := state.2.archiveFiles ++ stats.files
        details := state.2.details ++
          [⟨run.1, stats.sessions, stats.records, stats.failedSessions⟩] })
  | .error e =>
    (state.1,
      { state.2 with errors := state.2.errors ++ ["归档 run '" ++ run.1 ++ "' 失败: " ++ e] })

def cleanPartitions (cleaned : Option Nat) (result : Result) : Result :=
  match cleaned with
  | some n => if 0 < result.runsProcessed then { result with partitionsCleaned := n } else result
  | none => result

/-- `archive_details` -/
def archiveDetails (workers : ω) (answers : Answers ω) : ω × Result :=
  let (workers, result) :=
    answers.runs.foldl archiveRun (answers.health.getD workers, .initial)
  (workers, cleanPartitions answers.cleaned result)

/-- The sums of a result are those of its `details`, and `count` runs are in it. -/
structure Result.Balanced (result : Result) (count : Nat) : Prop where
  runs : result.runsProcessed = result.details.length
  sessions : result.sessionsArchived = (result.details.map RunDetail.sessions).sum
  records : result.recordsArchived = (result.details.map RunDetail.records).sum
  total : result.runsProcessed + result.errors.length = count

theorem balanced_archiveRun {state : ω × Result} {count : Nat} (h : state.2.Balanced count)
    (run : String × Except String (ω × RunStats)) :
    (archiveRun state run).2.Balanced (count + 1) := by
  obtain ⟨runId, outcome⟩ := run
  cases outcome with
  | ok answer =>
    constructor
    · simp [archiveRun, h.runs]
    · simp [archiveRun, h.sessions]
    · simp [archiveRun, h.records]
    · have total := h.total
      simp only [archiveRun]
      omega
  | error e =>
    refine ⟨h.runs, h.sessions, h.records, ?_⟩
    have total := h.total
    simp only [archiveRun, List.length_append, List.length_singleton]
    omega

theorem balanced_foldl_archiveRun (runs : List (String × Except String (ω × RunStats)))
    {state : ω × Result} {count : Nat} (h : state.2.Balanced count) :
    (runs.foldl archiveRun state).2.Balanced (count + runs.length) := by
  induction runs generalizing state count with
  | nil => exact h
  | cons run runs ih =>
    have rest := ih (balanced_archiveRun h run)
    rw [Nat.add_assoc, Nat.add_comm 1] at rest
    exact rest

theorem balanced_archiveDetails (workers : ω) (answers : Answers ω) :
    (archiveDetails workers answers).2.Balanced answers.runs.length := by
  have start : (answers.health.getD workers, Result.initial).2.Balanced 0 :=
    ⟨rfl, rfl, rfl, rfl⟩
  have folded := balanced_foldl_archiveRun answers.runs start
  rw [Nat.zero_add] at folded
  change (cleanPartitions answers.cleaned _).Balanced _
  unfold cleanPartitions
  cases answers.cleaned with
  | none => exact folded
  | some n =>
    split_ifs
    · exact ⟨folded.runs, folded.sessions, folded.records, folded.total⟩
    · exact folded

end ArchiveDetails

/-- What a waiting loop task is resumed from: its creation or a `sleep`. -/
inductive Wait
  | created
  | retry
  | poll
  deriving DecidableEq

/-- Where a coroutine is suspended; `cancelled` says that a `CancelledError` is
thrown into it at its next turn. -/
inductive Coroutine (ω : Type)
  | loopWaiting (wait : Wait) (cancelled : Bool)
  | loopArchiving (workers : ω)
  | triggerArchiving (workers : ω)
  | stopWaiting (task : Nat)
  | ended

/-- A call of `archive_details`, and how it ended. -/
inductive Call (ω : Type)
  | called (workers : ω)
  | returned (answers : Answers ω)
  | raised

inductive Event (ω : Type)
  | resumed
  | cancelled
  | returned (answers : Answers ω) (now : Nat)
  | raised

inductive Action (ω : Type)
  | start (now : Nat)
  | triggerNow
  | stop
  | cancel (i : Nat)
  | resume (i : Nat) (e : Event ω)

/-- The fields of the scheduler; `task` is the index of `_task`. -/
structure State (ω : Type) where
  workers : ω
  running : Bool
  executing : Bool
  task : Option Nat
  startedAt : Option Nat
  lastRun : Option Nat
  lastResult : Option Result
  totalRuns : Nat
  totalRecordsArchived : Nat
  coroutines : List (Coroutine ω)
  calls : List (Call ω)

namespace Coroutine

variable {ω : Type}

/-- The Workers of an unfinished call of `archive_details`. -/
def archiving : Coroutine ω → Option ω
  | loopArchiving workers => some workers
  | triggerArchiving workers => some workers
  | _ => none

def isLoop : Coroutine ω → Bool
  | loopWaiting .. => true
  | loopArchiving _ => true
  | _ => false

def isStop : Coroutine ω → Bool
  | stopWaiting _ => true
  | _ => false

def isEnded : Coroutine ω → Bool
  | ended => true
  | _ => false

def cancel : Coroutine ω → Coroutine ω
  | loopWaiting wait _ => loopWaiting wait true
  | c => c

@[simp] theorem archiving_cancel (c : Coroutine ω) : c.cancel.archiving = c.archiving := by
  cases c <;> rfl

@[simp] theorem isLoop_cancel (c : Coroutine ω) : c.cancel.isLoop = c.isLoop := by
  cases c <;> rfl

@[simp] theorem isStop_cancel (c : Coroutine ω) : c.cancel.isStop = c.isStop := by
  cases c <;> rfl

theorem cancel_eq_stopWaiting {c : Coroutine ω} {task : Nat} :
    c.cancel = stopWaiting task ↔ c = stopWaiting task := by
  cases c <;> simp [cancel]

end Coroutine

namespace State

variable {ω : Type}

def initial (workers : ω) : State ω where
  workers := workers
  running := false
  executing := false
  task := none
  startedAt := none
  lastRun := none
  lastResult := none
  totalRuns := 0
  totalRecordsArchived := 0
  coroutines := []
  calls := []

def replace (s : State ω) (i : Nat) (c : Coroutine ω) : State ω :=
  { s with coroutines := s.coroutines.set i c }

def add (s : State ω) (c : Coroutine ω) : State ω := { s with coroutines := s.coroutines ++ [c] }

/-- `_execute_archive` up to the call of `archive_details`; `none` when it is
skipped. -/
def beginArchive (s : State ω) : Option (State ω) :=
  if s.executing then none
  else some { s with executing := true, calls := s.calls ++ [.called s.workers] }

/-- `_execute_archive` from the return of `archive_details`. -/
def finishArchive (s : State ω) (workers : ω) (answers : Answers ω) : State ω :=
  let (updated, result) := archiveDetails workers answers
  { s with
    workers := updated
    totalRecordsArchived := s.totalRecordsArchived + result.recordsArchived
    lastResult := some result
    executing := false
    calls := s.calls ++ [.returned answers] }

/-- The `finally` clause behind an exception of `archive_details`. -/
def abandonArchive (s : State ω) : State ω :=
  { s with executing := false, calls := s.calls ++ [.raised] }

/-- What the callers of `_execute_archive` do after a call that was not skipped. -/
def counted (s : State ω) (now : Nat) : State ω :=
  { s with lastRun := some now, totalRuns := s.totalRuns + 1 }

/-- `_run_loop` from the test of its `while`. -/
def runLoop (s : State ω) (i : Nat) : State ω :=
  if s.running then
    match s.beginArchive with
    | some s' => s'.replace i (.loopArchiving s.workers)
    | none => s.replace i (.loopWaiting .poll false)
  else s.replace i .ended

def start (s : State ω) (now : Nat) : State ω :=
  if s.running then s
  else
    { s with running := true, startedAt := some now, task := some s.coroutines.length }.add
      (.loopWaiting .created false)

def triggerNow (s : State ω) : State ω :=
  match s.beginArchive with
  | some s' => s'.add (.triggerArchiving s.workers)
  | none => s

def cancel (s : State ω) (i : Nat) : State ω :=
  match s.coroutines[i]? with
  | some c => s.replace i c.cancel
  | none => s

def hasEnded (s : State ω) (i : Nat) : Bool := (s.coroutines[i]?).any Coroutine.isEnded

/-- `stop` behind `_running = False`: a task that has ended is not waited for. -/
def join (s : State ω) : State ω :=
  match s.task with
  | some task =>
    let s := s.cancel task
    if s.hasEnded task then { s with task := none } else s.add (.stopWaiting task)
  | none => s

def stop (s : State ω) : State ω := if s.running then { s with running := false }.join else s

/-- Runs the coroutine `i` to its next suspension. -/
def resume (s : State ω) (i : Nat) : Coroutine ω → Event ω → Option (State ω)
  | .loopWaiting _ cancelled, .resumed => if cancelled then none else some (s.runLoop i)
  | .loopWaiting _ cancelled, .cancelled =>
    if cancelled then some (s.replace i .ended) else none
  | .loopArchiving workers, .returned answers now =>
    some (((s.finishArchive workers answers).counted now).replace i
      (if s.running then .loopWaiting .poll false else .ended))
  | .loopArchiving _, .raised =>
    some (s.abandonArchive.replace i (if s.running then .loopWaiting .retry false else .ended))
  | .loopArchiving _, .cancelled => some (s.abandonArchive.replace i .ended)
  | .triggerArchiving workers, .returned answers now =>
    some (((s.finishArchive workers answers).counted now).replace i .ended)
  | .triggerArchiving _, .raised => some (s.abandonArchive.replace i .ended)
  | .triggerArchiving _, .cancelled => some (s.abandonArchive.replace i .ended)
  | .stopWaiting task, .resumed =>
    if s.hasEnded task then some ({ s with task := none }.replace i .ended) else none
  | _, _ => none

def step (s : State ω) : Action ω → Option (State ω)
  | .start now => some (s.start now)
  | .triggerNow => some s.triggerNow
  | .stop => some s.stop
  | .cancel i => some (s.cancel i)
  | .resume i e => (s.coroutines[i]?).bind fun c => s.resume i c e

def machine : Machine (State ω) (Action ω) := ⟨step⟩

/-- The Workers of the calls of `archive_details` that have not ended. -/
def archiving (s : State ω) : List ω := s.coroutines.filterMap Coroutine.archiving

end State

end TrajProxy.Archiver.Scheduler
