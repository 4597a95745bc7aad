import TrajProxy.Library.OrderedDict
import TrajProxy.Library.Transition
import Mathlib.Data.List.Dedup
import Mathlib.Algebra.GroupWithZero.Nat

/-! The dispatch loop of `_archive_run` as a machine. Ray decides what each
`.remote` call does, which future `ray.wait` returns and how its result comes;
these are the labels. Between two of them the code runs on its own, to the next
`.remote` or `ray.wait`, which `Control` names. -/

namespace TrajProxy.Archiver.Dispatch
open Transition

local instance lawfulSessionId : LawfulBEq (Option String) := inferInstance

/-- An actor handle; a rebuilt Worker gets a new one. -/
abbrev Worker := Nat

/-- `(idx, session_id)` -/
structure Entry where
  idx : Nat
  sessionId : Option String
  deriving DecidableEq

/-- An item of `active`. -/
structure Task where
  future : Nat
  worker : Worker
  entry : Entry
  deriving DecidableEq

/-- An item of `failed_sessions`. -/
structure Failure where
  sessionId : Option String
  idx : Int
  error : String
  deriving DecidableEq

/-- What `SessionArchiveWorker.archive` returns. -/
structure Result where
  records : Nat
  file : Option String
  deriving DecidableEq

/-- Where the code stands: at the `.remote` call of one of the two loops over
Workers (with those left), at `ray.wait`, at the `.remote` call that gives a
Worker its next session, or past the loop. -/
inductive Control
  | initialFill (workers : List Worker)
  | fill (workers : List Worker)
  | wait
  | refill (worker : Worker)
  | left
  | indexError
  deriving DecidableEq

/-- The local variables of `_archive_run`. `actors` supplies handles; `started`
logs the session of each task. -/
structure State where
  availableWorkers : List Worker
  pending : List Entry
  active : List Task
  rawResults : List Result
  successfulSessionIds : List (Option String)
  failedSessions : List Failure
  sessionFailCounts : OrderedDict (Option String) Nat
  consecutiveRebuilds : Nat
  maxConsecutiveRebuilds : Nat
  actors : Nat
  started : List (Option String)
  control : Control

inductive Outcome
  | ok (result : Result)
  /-- `RayActorError` or `GetTimeoutError` -/
  | workerLost
  | error (message : String)

inductive Answer
  /-- `.remote` gives a future or raises `RayActorError` -/
  | submitted (ok : Bool)
  /-- `ray.wait` returns no future -/
  | timeout
  | finished (future : Nat) (outcome : Outcome)

def maxSessionRetries : Nat := 3

def rebuildLimit (limit : Nat) : String := "Worker 连续重建达到上限 " ++ toString limit

def retryLimit : String :=
  "session 连续失败 " ++ toString maxSessionRetries ++ " 次，超出重试上限"

namespace State

/-- `session_fail_counts.get(sid, 0)` -/
def failCount (s : State) (sessionId : Option String) : Nat :=
  (s.sessionFailCounts.get sessionId).getD 0

def countFailure (s : State) (sessionId : Option String) : State :=
  { s with
    sessionFailCounts := s.sessionFailCounts.setItem sessionId (s.failCount sessionId + 1) }

def fail (s : State) (sessionId : Option String) (idx : Int) (error : String) : State :=
  { s with failedSessions := s.failedSessions ++ [⟨sessionId, idx, error⟩] }

def enqueue (s : State) (e : Entry) : State := { s with pending := s.pending ++ [e] }

/-- `active[f] = (worker, session_id, idx)` -/
def submit (s : State) (worker : Worker) (e : Entry) : State :=
  { s with
    active := s.active ++ [⟨s.started.length, worker, e⟩]
    started := s.started ++ [e.sessionId] }

def failedIds (s : State) : List (Option String) := s.failedSessions.map Failure.sessionId

end State

/-- `_rebuild_worker_in_list`; `none` is the `IndexError` of the assignment. -/
def rebuildWorkerInList (workers : List Worker) (deadWorker newWorker : Worker) :
    Option (List Worker) :=
  let deadIdx := workers.idxOf deadWorker
  if deadIdx < workers.length then some (workers.set deadIdx newWorker) else none

namespace State

/-- `available_workers, worker = _rebuild_worker_in_list(…)` and what follows. -/
def rebuild (s : State) (deadWorker : Worker) (next : State → State) : State :=
  match rebuildWorkerInList s.availableWorkers deadWorker s.actors with
  | some workers => next { s with availableWorkers := workers, actors := s.actors + 1 }
  | none => { s with control := .indexError }

/-- The head of the `while` loop, up to its next `.remote` or `ray.wait`. -/
def loopHead (s : State) : State :=
  if s.active ≠ [] ∨ s.pending ≠ [] ∧ s.availableWorkers ≠ [] ∧
      s.consecutiveRebuilds < s.maxConsecutiveRebuilds then
    if s.active = [] ∧ s.pending ≠ [] ∧ s.availableWorkers ≠ [] then
      { s with control := .fill s.availableWorkers }
    else if s.active = [] then { s with control := .left }
    else { s with control := .wait }
  else { s with control := .left }

/-- The next round of the loop that gives every Worker its first session. -/
def nextInitial (s : State) (workers : List Worker) : State :=
  if workers ≠ [] ∧ s.pending ≠ [] then { s with control := .initialFill workers }
  else s.loopHead

/-- What follows the loop over the Workers when no session was active. -/
def endFill (s : State) : State :=
  if s.maxConsecutiveRebuilds ≤ s.consecutiveRebuilds then { s with control := .left }
  else
    let s := { s with
      pending := s.pending.filter fun e => s.failCount e.sessionId < maxSessionRetries }
    let exceeded := s.sessionFailCounts.keys.reverse.filter fun sid =>
      maxSessionRetries ≤ s.failCount sid ∧ sid ∉ s.failedIds
    (exceeded.foldl (fun s sid => s.fail sid (-1) retryLimit) s).loopHead

def nextFill (s : State) (workers : List Worker) : State :=
  if workers ≠ [] ∧ s.pending ≠ [] then { s with control := .fill workers } else s.endFill

/-- A failed session is queued again, or given up after its third failure. -/
def retry (s : State) (e : Entry) : State :=
  if s.failCount e.sessionId < maxSessionRetries then s.enqueue e
  else s.fail e.sessionId e.idx retryLimit

/-- The first submission to a Worker raised `RayActorError`. -/
def initialFailed (s : State) (worker : Worker) (e : Entry) (workers : List Worker) : State :=
  let s := { s with consecutiveRebuilds := s.consecutiveRebuilds + 1 }
  if s.maxConsecutiveRebuilds ≤ s.consecutiveRebuilds then
    let s := s.enqueue e
    let s := s.pending.foldl (fun s e => (s.countFailure e.sessionId).fail e.sessionId e.idx
      (rebuildLimit s.maxConsecutiveRebuilds ++ "，session 未处理")) s
    loopHead { s with pending := [] }
  else s.rebuild worker fun s => (s.enqueue e).nextInitial workers

/-- A submission of the inner loop over the Workers raised `RayActorError`. -/
def fillFailed (s : State) (worker : Worker) (e : Entry) (workers : List Worker) : State :=
  let s := { s with consecutiveRebuilds := s.consecutiveRebuilds + 1 }
  if s.maxConsecutiveRebuilds ≤ s.consecutiveRebuilds then (s.enqueue e).endFill
  else s.rebuild worker fun s =>
    ((s.countFailure e.sessionId).enqueue e).nextFill workers

/-- The submission after a success raised `RayActorError`. -/
def refillFailed (s : State) (worker : Worker) (e : Entry) : State :=
  let s := { s with consecutiveRebuilds := s.consecutiveRebuilds + 1 }
  if s.maxConsecutiveRebuilds ≤ s.consecutiveRebuilds then
    (s.fail e.sessionId e.idx (rebuildLimit s.maxConsecutiveRebuilds)).loopHead
  else s.rebuild worker fun s =>
    ((s.countFailure e.sessionId).retry e).loopHead

/-- The tasks of one Worker leave `active`; each goes through `settle`. -/
def cancelWorker (s : State) (worker : Worker) (settle : State → Entry → State) : State :=
  (s.active.filter (·.worker = worker)).foldl (fun s t => settle s t.entry)
    { s with active := s.active.filter (·.worker ≠ worker) }

/-- The Worker of a task died, or its result did not come. -/
def workerLost (s : State) (t : Task) : State :=
  let s := { s with consecutiveRebuilds := s.consecutiveRebuilds + 1 }
  let s := s.countFailure t.entry.sessionId
  if s.maxConsecutiveRebuilds ≤ s.consecutiveRebuilds then
    let s := s.fail t.entry.sessionId t.entry.idx (rebuildLimit s.maxConsecutiveRebuilds)
    (s.cancelWorker t.worker fun s e =>
      s.fail e.sessionId e.idx (rebuildLimit s.maxConsecutiveRebuilds)).loopHead
  else s.rebuild t.worker fun s =>
    ((s.retry t.entry).cancelWorker t.worker fun s e =>
      (s.countFailure e.sessionId).retry e).loopHead

/-- A session is archived; its Worker takes the next one. -/
def succeeded (s : State) (t : Task) (result : Result) : State :=
  let s := { s with
    rawResults := s.rawResults ++ [result]
    successfulSessionIds := s.successfulSessionIds ++ [t.entry.sessionId]
    consecutiveRebuilds := 0 }
  if s.pending = [] then s.loopHead else { s with control := .refill t.worker }

def finished (s : State) (t : Task) : Outcome → State
  | .ok result => s.succeeded t result
  | .workerLost => s.workerLost t
  | .error message => (s.fail t.entry.sessionId t.entry.idx message).loopHead

def step (s : State) : Answer → Option State
  | .submitted ok =>
    match s.control, s.pending with
    | .initialFill (worker :: workers), e :: pending =>
      let s := { s with pending := pending }
      some (if ok then (s.submit worker e).nextInitial workers
        else s.initialFailed worker e workers)
    | .fill (worker :: workers), e :: pending =>
      let s := { s with pending := pending }
      some (if ok then (s.submit worker e).nextFill workers else s.fillFailed worker e workers)
    | .refill worker, e :: pending =>
      let s := { s with pending := pending }
      some (if ok then (s.submit worker e).loopHead else s.refillFailed worker e)
    | _, _ => none
  | .timeout => if s.control = .wait then some s.loopHead else none
  | .finished future outcome =>
    match s.control, s.active.find? (·.future = future) with
    | .wait, some t =>
      some (finished { s with active := s.active.eraseP (·.future = future) } t outcome)
    | _, _ => none

/-- Sessions given up after the loop, each once. -/
def giveUp (s : State) (error : String) : State :=
  { s.pending.foldl (fun s e =>
      if e.sessionId ∈ s.failedIds then s else s.fail e.sessionId (-1) error) s with
    pending := [] }

/-- The code behind the loop, up to the check of the results. -/
def cleanUp (s : State) : State :=
  let s := if s.maxConsecutiveRebuilds ≤ s.consecutiveRebuilds ∧ s.pending ≠ [] then
      s.giveUp (rebuildLimit s.maxConsecutiveRebuilds ++ "，session 未处理")
    else s
  if s.pending ≠ [] ∧ s.availableWorkers = [] then
    s.giveUp "所有 Worker 已死亡且列表为空，session 未处理"
  else s

end State

/-- What `_archive_run` does after the loop: the sessions handed to
`_cleanup_run` and the returned statistics. -/
structure Archived where
  cleaned : List (Option String)
  files : List String
  records : Nat
  failedSessions : Nat

/-- `none` is the `RuntimeError`. -/
def State.archived (s : State) : Option Archived :=
  if s.rawResults = [] ∧ s.failedSessions ≠ [] then none
  else some
    { cleaned := s.successfulSessionIds
      files := s.rawResults.filterMap Result.file
      records := (s.rawResults.map Result.records).sum
      failedSessions := s.failedSessions.length }

/-- `_archive_run` up to the first `.remote`, for sessions and Workers. -/
def start (sessions : List (Option String)) (workers : List Worker) : State :=
  State.nextInitial
    { availableWorkers := workers
      pending := sessions.zipIdx.map fun e => ⟨e.2, e.1⟩
      active := []
      rawResults := []
      successfulSessionIds := []
      failedSessions := []
      sessionFailCounts := ∅
      consecutiveRebuilds := 0
      maxConsecutiveRebuilds := workers.length * 3
      actors := workers.foldr max 0 + 1
      started := []
      control := .left } workers

def machine : Machine State Answer where
  step := State.step

/-- The effect of each answer. -/
inductive Step (s : State) : Answer → State → Prop
  | initial (ok : Bool) (worker : Worker) (workers : List Worker) (e : Entry)
      (pending : List Entry) :
      s.control = .initialFill (worker :: workers) → s.pending = e :: pending →
      Step s (.submitted ok) (
        let s := { s with pending := pending }
        if ok then (s.submit worker e).nextInitial workers else s.initialFailed worker e workers)
  | fill (ok : Bool) (worker : Worker) (workers : List Worker) (e : Entry)
      (pending : List Entry) :
      s.control = .fill (worker :: workers) → s.pending = e :: pending →
      Step s (.submitted ok) (
        let s := { s with pending := pending }
        if ok then (s.submit worker e).nextFill workers else s.fillFailed worker e workers)
  | refill (ok : Bool) (worker : Worker) (e : Entry) (pending : List Entry) :
      s.control = .refill worker → s.pending = e :: pending →
      Step s (.submitted ok) (
        let s := { s with pending := pending }
        if ok then (s.submit worker e).loopHead else s.refillFailed worker e)
  | timeout : s.control = .wait → Step s .timeout s.loopHead
  | finished (t : Task) (outcome : Outcome) (active : List Task) :
      s.control = .wait → s.active.Perm (t :: active) →
      Step s (.finished t.future outcome) (State.finished { s with active := active } t outcome)

theorem perm_eraseP_of_find {α : Type} {p : α → Bool} {l : List α} {a : α}
    (found : l.find? p = some a) : l.Perm (a :: l.eraseP p) := by
  obtain ⟨holds, front, back, rfl, before⟩ := List.find?_eq_some_iff_append.mp found
  have none : ∀ b ∈ front, ¬p b := fun b mem => by simpa using before b mem
  rw [List.eraseP_append_right _ none, List.eraseP_cons_of_pos holds]
  exact List.perm_middle

theorem step_cases {s s' : State} {a : Answer} (taken : machine.step s a = some s') :
    Step s a s' := by
  change s.step a = some s' at taken
  cases a with
  | submitted ok =>
    rw [State.step] at taken
    split at taken
    · rename_i worker workers e pending there queue
      obtain rfl := Option.some.inj taken
      exact .initial ok worker workers e pending there queue
    · rename_i worker workers e pending there queue
      obtain rfl := Option.some.inj taken
      exact .fill ok worker workers e pending there queue
    · rename_i worker e pending there queue
      obtain rfl := Option.some.inj taken
      exact .refill ok worker e pending there queue
    · cases taken
  | timeout =>
    rw [State.step] at taken
    split_ifs at taken with waiting
    obtain rfl := Option.some.inj taken
    exact .timeout waiting
  | finished future outcome =>
    rw [State.step] at taken
    split at taken
    · rename_i t waiting found
      obtain rfl := Option.some.inj taken
      obtain rfl : t.future = future := by simpa using List.find?_some found
      exact .finished t outcome _ waiting (perm_eraseP_of_find found)
    · cases taken

end TrajProxy.Archiver.Dispatch
