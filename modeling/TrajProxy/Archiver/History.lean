import TrajProxy.Archiver.NoLoss

/-! Archive cycles one after the other.
Between cycles records are inserted; a cycle runs on the tables, temp files and
archives its predecessors left, with its workers in any order. An archive is
named by the ids alone and each upload replaces the object, so a cycle that
meets a session again writes over the rows an earlier cycle has deleted.
`Fresh` excludes this, and two sessions of one cycle under one name. -/

namespace TrajProxy.Archiver
open Transition

variable {ρ : Type} (cfg : Settings)

/-- An event of a cycle in which nothing fails for good: a lost call is handed
out again, and a run is cleaned up once all its sessions are collected. -/
def Succeeds (s : Cycle ρ) : Event ρ → Prop
  | .insert .. => False
  | .abortRun => False
  | .lose _ _ retried => retried = true
  | .cleanup => s.current.all (·.pending.isEmpty) = true
  | _ => True

instance (s : Cycle ρ) : DecidablePred (Succeeds s) := fun e => by
  cases e <;> unfold Succeeds <;> infer_instance

/-- Cycles that succeed. -/
def successful : Machine (Cycle ρ) (Event ρ) where
  step s e := if Succeeds s e then s.step cfg e else none

theorem runId_ne (r : {runId : String // runId ≠ ""}) : r.1 ≠ "" := r.2

/-- The sessions of the expired runs. -/
def cycleTasks (db : Tables ρ) (threshold : Nat) : List ArchiveTask :=
  (db.findExpiredRuns threshold).flatMap fun r =>
    (db.getRunSessions r.1).map fun sessionId => ⟨r.1, sessionId, runId_ne r⟩

structure History (ρ : Type) where
  db : Tables ρ
  temp : OrderedDict (List String) (List (Detail ρ))
  storage : OrderedDict String (List (Detail ρ))
  deleted : List (Detail ρ)

namespace History

inductive Label (ρ : Type)
  | insert (uniqueId : String) (sessionId runId : Option String) (createdAt : Nat) (payload : ρ)
  | cycle (threshold : Nat) (schedule : List (Event ρ))

def begin (db : Tables ρ) (temp : OrderedDict (List String) (List (Detail ρ)))
    (storage : OrderedDict String (List (Detail ρ))) : History ρ :=
  ⟨db, temp, storage, []⟩

/-- A cycle that has archived all expired runs. -/
def finish (h : History ρ) (s : Cycle ρ) : Option (History ρ) :=
  if s.runs.all (·.isEmpty) ∧ s.current.isNone then
    some ⟨s.db, s.temp, s.storage, h.deleted ++ s.deleted⟩
  else none

def step (h : History ρ) : Label ρ → Option (History ρ)
  | .insert uniqueId sessionId runId createdAt payload =>
    some { h with
      db := h.db.insert ⟨uniqueId, runId, storedSession sessionId, none⟩ createdAt payload }
  | .cycle threshold schedule =>
    ((successful cfg).exec (Cycle.begin h.db h.temp h.storage)
      (.findExpiredRuns threshold :: schedule)).bind h.finish

def machine : Machine (History ρ) (Label ρ) where
  step := step cfg

end History

theorem mem_getRunSessions {db : Tables ρ} {runId : String} {sessionId : Option String} :
    sessionId ∈ db.getRunSessions runId ↔
      ∃ d ∈ db.details, Tables.Belongs db.metadata d (some runId) sessionId := by
  simp only [Tables.getRunSessions, List.mem_dedup, List.mem_map, List.mem_filter,
    decide_eq_true_eq]
  constructor
  · rintro ⟨m, ⟨mem, run, d, row, key⟩, session⟩
    exact ⟨d, row, m, mem, key.symm, run, session⟩
  · rintro ⟨d, row, m, mem, key, run, session⟩
    exact ⟨m, ⟨mem, run, d, row, key.symm⟩, session⟩

theorem mem_cycleTasks {db : Tables ρ} {threshold : Nat} {t : ArchiveTask} :
    t ∈ cycleTasks db threshold ↔
      ⟨t.runId, t.runId_ne⟩ ∈ db.findExpiredRuns threshold ∧
        t.sessionId ∈ db.getRunSessions t.runId := by
  simp only [cycleTasks, List.mem_flatMap, List.mem_map]
  constructor
  · rintro ⟨r, expired, sessionId, listed, rfl⟩
    exact ⟨expired, listed⟩
  · rintro ⟨expired, listed⟩
    exact ⟨_, expired, t.sessionId, listed, rfl⟩

/-- What a cycle on `before` has touched, when no record is inserted: the tables
lose rows only, and only archives of the cycle's sessions are written. -/
structure Quiet (before : History ρ) (threshold : Nat) (s : Cycle ρ) : Prop where
  inserted : s.inserted = []
  belongs : ∀ (d : Detail ρ) run session, Tables.Belongs s.db.metadata d run session ↔
    Tables.Belongs before.db.metadata d run session
  details : ∀ d ∈ s.db.details, d ∈ before.db.details
  runs : ∃ rest, s.runs = some rest ∧ ∀ r ∈ rest, r ∈ before.db.findExpiredRuns threshold
  pending : ∀ run, s.current = some run →
    ⟨run.runId, run.runId_ne⟩ ∈ before.db.findExpiredRuns threshold ∧
      ∀ sessionId ∈ run.pending, run.task sessionId ∈ cycleTasks before.db threshold
  jobs : ∀ t stage, s.jobs.get t = some stage → t ∈ cycleTasks before.db threshold
  started : ∀ t ∈ s.started, t ∈ cycleTasks before.db threshold
  storage : ∀ key, (∀ t ∈ cycleTasks before.db threshold, t.storageKey cfg.compress ≠ key) →
    s.storage.get key = before.storage.get key

/-- The cycle after its selection of the expired runs. -/
def selected (before : History ρ) (threshold : Nat) : Cycle ρ :=
  { Cycle.begin before.db before.temp before.storage with
    runs := some (before.db.findExpiredRuns threshold) }

namespace Quiet

variable {cfg} {before : History ρ} {threshold : Nat} {s s' : Cycle ρ} {t : ArchiveTask}

theorem start (before : History ρ) (threshold : Nat) :
    Quiet cfg before threshold (selected before threshold) where
  inserted := rfl
  belongs _ _ _ := Iff.rfl
  details _ mem := mem
  runs := ⟨_, rfl, fun _ mem => mem⟩
  pending _ none := nomatch none
  jobs t stage job := by simp [selected, Cycle.begin] at job
  started _ none := nomatch none
  storage _ _ := rfl

theorem startRun (h : Quiet cfg before threshold s) {r : {runId : String // runId ≠ ""}}
    {rest : List {runId : String // runId ≠ ""}} (runs : s.runs = some (r :: rest)) :
    Quiet cfg before threshold { s with
      runs := some rest
      current := some ⟨r.1, r.2, s.db.getRunSessions r.1, []⟩ } := by
  obtain ⟨_, same, expired⟩ := h.runs
  rw [runs, Option.some_inj] at same
  subst same
  refine ⟨h.inserted, h.belongs, h.details, ⟨rest, rfl, fun r' mem => expired r' (.tail _ mem)⟩,
    ?_, h.jobs, h.started, h.storage⟩
  intro run now
  cases now
  refine ⟨expired r List.mem_cons_self, ?_⟩
  intro sessionId listed
  obtain ⟨d, row, belongs⟩ := mem_getRunSessions.mp listed
  have listed' : sessionId ∈ before.db.getRunSessions r.1 :=
    mem_getRunSessions.mpr ⟨d, h.details d row, (h.belongs ..).mp belongs⟩
  exact mem_cycleTasks.mpr ⟨expired r List.mem_cons_self, listed'⟩

theorem dispatch (h : Quiet cfg before threshold s) {run : Run} (now : s.current = some run)
    {sessionId : Option String} (mem : sessionId ∈ run.pending) :
    Quiet cfg before threshold { s with
      current := some { run with pending := run.pending.erase sessionId }
      jobs := s.jobs.setItem (run.task sessionId) .submitted
      started := run.task sessionId :: s.started } := by
  obtain ⟨expired, tasks⟩ := h.pending run now
  refine ⟨h.inserted, h.belongs, h.details, h.runs, ?_, ?_, ?_, h.storage⟩
  · intro run' same
    cases same
    exact ⟨expired, fun id left => tasks id (List.mem_of_mem_erase left)⟩
  · intro t stage job
    rw [OrderedDict.get_setItem] at job
    split_ifs at job with eq
    · rw [eq]
      exact tasks sessionId mem
    · exact h.jobs t stage job
  · intro t begun
    rcases List.mem_cons.mp begun with rfl | old
    · exact tasks sessionId mem
    · exact h.started t old

/-- A step that only moves a call from one stage to another. -/
theorem moved (h : Quiet cfg before threshold s) {stage : Stage}
    (job : s.jobs.get t = some stage) (db : s'.db = s.db) (runs : s'.runs = s.runs)
    (current : s'.current = s.current) (started : s'.started = s.started)
    (inserted : s'.inserted = []) (jobs : ∃ next, s'.jobs = s.jobs.setItem t next)
    (storage : ∀ key, t.storageKey cfg.compress ≠ key → s'.storage.get key = s.storage.get key) :
    Quiet cfg before threshold s' where
  inserted := inserted
  belongs := db ▸ h.belongs
  details := db ▸ h.details
  runs := runs ▸ h.runs
  pending := current ▸ h.pending
  jobs := by
    intro u stage' job'
    obtain ⟨next, jobs⟩ := jobs
    rw [jobs, OrderedDict.get_setItem] at job'
    split_ifs at job' with eq
    · exact eq ▸ h.jobs t stage job
    · exact h.jobs u stage' job'
  started := started ▸ h.started
  storage := by
    intro key other
    rw [storage key (other t (h.jobs t stage job))]
    exact h.storage key other

/-- A call ends: its session is collected or handed out again. -/
theorem ended (h : Quiet cfg before threshold s) {stage : Stage}
    (job : s.jobs.get t = some stage) (db : s'.db = s.db) (runs : s'.runs = s.runs)
    (started : s'.started = s.started) (inserted : s'.inserted = s.inserted)
    (jobs : s'.jobs = s.jobs.pop t) (storage : s'.storage = s.storage)
    (current : ∀ run', s'.current = some run' →
      ∃ run, s.current = some run ∧ run.Ended t stage run') :
    Quiet cfg before threshold s' where
  inserted := inserted.trans h.inserted
  belongs := db ▸ h.belongs
  details := db ▸ h.details
  runs := runs ▸ h.runs
  pending := by
    intro run' now'
    obtain ⟨run, now, ended⟩ := current run' now'
    obtain ⟨expired, tasks⟩ := h.pending run now
    refine ⟨by simpa only [ended.runId] using expired, ?_⟩
    intro id mem
    rw [ended.task]
    rcases ended.mem_pending mem with old | ⟨own, -⟩
    · exact tasks id old
    · exact own.symm ▸ h.jobs t stage job
  jobs := by
    intro u stage' job'
    rw [jobs, OrderedDict.get_pop] at job'
    split_ifs at job'
    exact h.jobs u stage' job'
  started := started ▸ h.started
  storage := storage ▸ h.storage

theorem cleanup (h : Quiet cfg before threshold s) (run : Run) :
    Quiet cfg before threshold (s.cleanup cfg run) where
  inserted := h.inserted
  belongs d id session := belongs_cleanup.trans (h.belongs d id session)
  details d mem := h.details d (List.mem_of_mem_filter mem)
  runs := h.runs
  pending _ none := nomatch none
  jobs := h.jobs
  started := h.started
  storage := h.storage

/-- A step of a cycle that succeeds stays within the cycle's sessions. -/
theorem step (h : Quiet cfg before threshold s) (e : Event ρ)
    (taken : (successful cfg).step s e = some s') : Quiet cfg before threshold s' := by
  change (if Succeeds s e then s.step cfg e else none) = some s' at taken
  split_ifs at taken with succeeds
  cases Cycle.step_cases taken with
  | rolledBack => exact succeeds.elim
  | insert => exact succeeds.elim
  | abortRun => exact succeeds.elim
  | findExpiredRuns threshold' first =>
    obtain ⟨rest, runs, -⟩ := h.runs
    rw [first] at runs
    cases runs
  | startRun r rest runs => exact h.startRun runs
  | dispatch sessionId run now mem => exact h.dispatch now mem
  | exported t job =>
    have none : s.inserted.filter (· ≠ (some t.runId, t.sessionId)) = [] := by
      rw [h.inserted, List.filter_nil]
    unfold Cycle.exportSession
    simp only
    split_ifs
    · exact h.moved job rfl rfl rfl rfl none ⟨_, rfl⟩ fun _ _ => rfl
    · exact h.moved job rfl rfl rfl rfl none ⟨_, rfl⟩ fun _ _ => rfl
  | upload t file job present =>
    exact h.moved job rfl rfl rfl rfl h.inserted ⟨_, rfl⟩
      fun key ne => OrderedDict.get_setItem_ne _ _ ne.symm
  | restart t stage job => exact h.moved job rfl rfl rfl rfl h.inserted ⟨_, rfl⟩ fun _ _ => rfl
  | collect t run job now own =>
    refine h.ended job rfl rfl rfl rfl rfl rfl ?_
    intro run' same
    cases same
    exact ⟨run, now, .done (Run.task_eq own) rfl⟩
  | lose t unlinked retried stage job =>
    exact h.ended job rfl rfl rfl rfl rfl rfl fun _ => Run.Ended.of_lose
  | cleanup run now => exact h.cleanup run

/-- Sessions with names of their own meet the condition of a single cycle. -/
theorem admitted (h : Quiet cfg before threshold s)
    (distinct : ∀ t ∈ cycleTasks before.db threshold, ∀ u ∈ cycleTasks before.db threshold,
      Conflated t u → t = u) (e : Event ρ) (taken : (successful cfg).step s e = some s') :
    Admitted s e := by
  change (if Succeeds s e then s.step cfg e else none) = some s' at taken
  split_ifs at taken
  cases e with
  | dispatch sessionId =>
    intro run now u begun same
    obtain ⟨run', now', mem⟩ : ∃ run', s.current = some run' ∧ sessionId ∈ run'.pending := by
      cases Cycle.step_cases taken with
      | dispatch _ run' now' mem => exact ⟨run', now', mem⟩
    obtain rfl := Option.some.inj (now.symm.trans now')
    exact (distinct _ ((h.pending run now).2 sessionId mem) u (h.started u begun) same).symm
  | cleanup =>
    intro run now sessionId _ late
    rw [Late, h.inserted] at late
    cases late
  | _ => trivial

end Quiet

namespace History

variable {cfg}

private def empty : History Unit := begin noTables ∅ ∅

end History
end TrajProxy.Archiver
