import TrajProxy.Archiver.Cycle

/-! No record is deleted that the archive does not hold.
`Sound` follows each session from its export to the cleanup of its run. The
export of a session answers for the rows the session then has; a record
inserted later ends that (`Late`), and another session with the same names may
overwrite the file. `Admitted` excludes these two and nothing else. -/

namespace TrajProxy.Archiver
open Transition

variable {ρ : Type} (cfg : Settings)

/-- A record has been inserted into the session since its last export. -/
def Late (s : Cycle ρ) (t : ArchiveTask) : Prop := (some t.runId, t.sessionId) ∈ s.inserted

/-- The archive file of the session holds all rows of the session. -/
def Archived (s : Cycle ρ) (t : ArchiveTask) : Prop :=
  ∀ d ∈ s.db.sessionRows t, ∃ file, s.storage.get (t.storageKey cfg.compress) = some file ∧ d ∈ file

/-- What a call at some stage has put on file. -/
def Filed (s : Cycle ρ) (t : ArchiveTask) : Stage → Prop
  | .submitted => True
  | .exported => ∃ file, s.temp.get (t.tempPath cfg.tempRoot cfg.compress) = some file ∧
      (¬Late s t → ∀ d ∈ s.db.sessionRows t, d ∈ file)
  | .uploaded => ¬Late s t → Archived cfg s t

/-- A deleted row with its session, whose run the cycle has done with. -/
structure Settled (s : Cycle ρ) (t : ArchiveTask) (d : Detail ρ) : Prop where
  started : t ∈ s.started
  belongs : Tables.Belongs s.db.metadata d (some t.runId) t.sessionId
  held : ∃ file, s.storage.get (t.storageKey cfg.compress) = some file ∧ d ∈ file
  idle : s.jobs.get t = none
  notCurrent : ∀ run, s.current = some run → run.runId ≠ t.runId
  notAhead : ∀ rest, s.runs = some rest → ∀ r ∈ rest, r.1 ≠ t.runId

structure Sound (s : Cycle ρ) : Prop where
  distinct : ∀ t ∈ s.started, ∀ u ∈ s.started, Conflated t u → t = u
  jobStarted : ∀ t stage, s.jobs.get t = some stage → t ∈ s.started
  filed : ∀ t stage, s.jobs.get t = some stage → Filed cfg s t stage
  pendingNodup : ∀ run, s.current = some run → run.pending.Nodup
  pendingIdle : ∀ run, s.current = some run → ∀ sessionId ∈ run.pending,
    s.jobs.get (run.task sessionId) = none ∧ sessionId ∉ run.successful
  collected : ∀ run, s.current = some run → ∀ sessionId ∈ run.successful,
    run.task sessionId ∈ s.started ∧ s.jobs.get (run.task sessionId) = none ∧
      (¬Late s (run.task sessionId) → Archived cfg s (run.task sessionId))
  unselected : s.runs = none → s.current = none ∧ (∀ t, s.jobs.get t = none) ∧ s.deleted = []
  aheadNodup : ∀ rest, s.runs = some rest → rest.Nodup
  ahead : ∀ rest, s.runs = some rest → ∀ r ∈ rest,
    (∀ t stage, s.jobs.get t = some stage → t.runId ≠ r.1) ∧
      ∀ run, s.current = some run → run.runId ≠ r.1
  settled : ∀ d ∈ s.deleted, ∃ t, Settled cfg s t d

/-- No session is handed out whose names an earlier one of the cycle has, and no
run is cleaned up with records inserted behind the last export of a session. -/
def Admitted (s : Cycle ρ) : Event ρ → Prop
  | .dispatch sessionId => ∀ run, s.current = some run → ∀ u ∈ s.started,
      Conflated (run.task sessionId) u → u = run.task sessionId
  | .cleanup => ∀ run, s.current = some run → ∀ sessionId ∈ run.successful,
      ¬Late s (run.task sessionId)
  | _ => True

/-- Every deleted row is in the archive file of the session it belongs to. -/
def NoLoss (s : Cycle ρ) : Prop :=
  ∀ d ∈ s.deleted, ∃ t : ArchiveTask,
    Tables.Belongs s.db.metadata d (some t.runId) t.sessionId ∧
      ∃ file, s.storage.get (t.storageKey cfg.compress) = some file ∧ d ∈ file

variable {cfg} {s s' : Cycle ρ} {t u : ArchiveTask}

theorem Sound.noLoss (h : Sound cfg s) : NoLoss cfg s := by
  intro d mem
  obtain ⟨t, settled⟩ := h.settled d mem
  exact ⟨t, settled.belongs, settled.held⟩

theorem mem_sessionRows {db : Tables ρ} {d : Detail ρ} :
    d ∈ db.sessionRows t ↔
      d ∈ db.details ∧ Tables.Belongs db.metadata d (some t.runId) t.sessionId := by
  simp [Tables.sessionRows, List.mem_insertionSort, List.mem_filter]

theorem Sound.path_ne (h : Sound cfg s) (ht : t ∈ s.started) (hu : u ∈ s.started) (ne : t ≠ u) :
    t.tempPath cfg.tempRoot cfg.compress ≠ u.tempPath cfg.tempRoot cfg.compress := by
  intro same
  exact ne (h.distinct t ht u hu ((tempPath_eq_iff ..).mp same))

theorem Sound.key_ne (h : Sound cfg s) (ht : t ∈ s.started) (hu : u ∈ s.started) (ne : t ≠ u) :
    t.storageKey cfg.compress ≠ u.storageKey cfg.compress := by
  intro same
  exact ne (h.distinct t ht u hu ((storageKey_eq_iff ..).mp same))

/-- A step leaves the files of a session and, unless a record is inserted into
it, the rows it has to account for. -/
structure Undisturbed (cfg : Settings) (s s' : Cycle ρ) (t : ArchiveTask) : Prop where
  temp : s'.temp.get (t.tempPath cfg.tempRoot cfg.compress) =
    s.temp.get (t.tempPath cfg.tempRoot cfg.compress)
  storage : s'.storage.get (t.storageKey cfg.compress) = s.storage.get (t.storageKey cfg.compress)
  rows : ¬Late s' t → ¬Late s t ∧ ∀ d ∈ s'.db.sessionRows t, d ∈ s.db.sessionRows t

theorem Undisturbed.archived (h : Undisturbed cfg s s' t)
    (archived : ¬Late s t → Archived cfg s t) :
    ¬Late s' t → Archived cfg s' t := by
  intro fresh d mem
  obtain ⟨before, kept⟩ := h.rows fresh
  rw [h.storage]
  exact archived before d (kept d mem)

theorem Undisturbed.filed (h : Undisturbed cfg s s' t) {stage : Stage}
    (filed : Filed cfg s t stage) : Filed cfg s' t stage := by
  cases stage with
  | submitted => trivial
  | exported =>
    obtain ⟨file, present, holds⟩ := filed
    refine ⟨file, h.temp.trans present, fun fresh d mem => ?_⟩
    obtain ⟨before, kept⟩ := h.rows fresh
    exact holds before d (kept d mem)
  | uploaded => exact h.archived filed

theorem Sound.begin (db : Tables ρ) (temp : OrderedDict (List String) (List (Detail ρ)))
    (storage : OrderedDict String (List (Detail ρ))) : Sound cfg (Cycle.begin db temp storage) where
  distinct t mem := by cases mem
  jobStarted t stage h := by simp [Cycle.begin] at h
  filed t stage h := by simp [Cycle.begin] at h
  pendingNodup run h := by cases h
  pendingIdle run h := by cases h
  collected run h := by cases h
  unselected _ := ⟨rfl, fun t => OrderedDict.get_empty t, rfl⟩
  aheadNodup rest h := by cases h
  ahead rest h := by cases h
  settled d mem := by cases mem

theorem belongs_insert {db : Tables ρ} {m : Metadata} {createdAt : Nat} {payload : ρ}
    {d : Detail ρ} {runId sessionId : Option String}
    (h : Tables.Belongs db.metadata d runId sessionId) :
    Tables.Belongs (db.insert m createdAt payload).metadata d runId sessionId := by
  unfold Tables.insert
  split_ifs
  · exact h
  · obtain ⟨n, mem, facts⟩ := h
    exact ⟨n, List.mem_append_left _ mem, facts⟩

/-- An insert gives rows to its own session only: a new `unique_id` is on no
older row. -/
theorem mem_sessionRows_insert {db : Tables ρ} {m : Metadata} {createdAt : Nat} {payload : ρ}
    {d : Detail ρ} (other : (m.runId, m.sessionId) ≠ (some t.runId, t.sessionId))
    (h : d ∈ (db.insert m createdAt payload).sessionRows t) : d ∈ db.sessionRows t := by
  rw [mem_sessionRows] at h ⊢
  unfold Tables.insert at h
  split_ifs at h with used
  · exact h
  · obtain ⟨mem, n, joined, key, run, session⟩ := h
    have old : n ∈ db.metadata := by
      cases List.mem_append.mp joined with
      | inl old => exact old
      | inr new =>
        rw [List.mem_singleton] at new
        subst new
        exact absurd (by rw [run, session]) other
    have row : d ∈ db.details := by
      cases List.mem_append.mp mem with
      | inl row => exact row
      | inr new =>
        rw [List.mem_singleton] at new
        subst new
        exact absurd (List.mem_map.mpr ⟨n, old, key⟩) used
    exact ⟨row, n, old, key, run, session⟩

theorem belongs_cleanup {db : Tables ρ} {runId location : String}
    {sessions : List (Option String)} {d : Detail ρ} {run session : Option String} :
    Tables.Belongs (db.cleanupRun runId location sessions).metadata d run session ↔
      Tables.Belongs db.metadata d run session := by
  unfold Tables.Belongs Tables.cleanupRun
  simp

theorem mem_sessionRows_cleanup {db : Tables ρ} {runId location : String}
    {sessions : List (Option String)} {d : Detail ρ}
    (h : d ∈ (db.cleanupRun runId location sessions).sessionRows t) : d ∈ db.sessionRows t := by
  rw [mem_sessionRows, belongs_cleanup] at h
  rw [mem_sessionRows]
  exact ⟨List.mem_of_mem_filter h.1, h.2⟩

namespace Sound

theorem insert (h : Sound cfg s) (uniqueId : String) (sessionId runId : Option String)
    (createdAt : Nat) (payload : ρ) :
    Sound cfg { s with
      db := s.db.insert ⟨uniqueId, runId, storedSession sessionId, none⟩ createdAt payload
      inserted := (runId, storedSession sessionId) :: s.inserted } := by
  have still : ∀ t, Undisturbed cfg s { s with
      db := s.db.insert ⟨uniqueId, runId, storedSession sessionId, none⟩ createdAt payload
      inserted := (runId, storedSession sessionId) :: s.inserted } t := by
    intro t
    refine ⟨rfl, rfl, fun fresh => ?_⟩
    simp only [Late, List.mem_cons, not_or] at fresh
    exact ⟨fresh.2, fun d mem => mem_sessionRows_insert (Ne.symm fresh.1) mem⟩
  refine ⟨h.distinct, h.jobStarted, fun t stage job => (still t).filed (h.filed t stage job),
    h.pendingNodup, h.pendingIdle, fun run current id mem => ?_, h.unselected, h.aheadNodup,
    h.ahead, fun d mem => ?_⟩
  · obtain ⟨started, idle, archived⟩ := h.collected run current id mem
    exact ⟨started, idle, (still _).archived archived⟩
  · obtain ⟨t, settled⟩ := h.settled d mem
    exact ⟨t, settled.started, belongs_insert settled.belongs, settled.held, settled.idle,
      settled.notCurrent, settled.notAhead⟩

theorem findExpiredRuns (h : Sound cfg s) (first : s.runs = none) (threshold : Nat) :
    Sound cfg { s with runs := some (s.db.findExpiredRuns threshold) } := by
  obtain ⟨current, jobs, deleted⟩ := h.unselected first
  refine ⟨h.distinct, h.jobStarted, h.filed, h.pendingNodup, h.pendingIdle, h.collected,
    (fun none => nomatch none), fun rest runs => ?_, fun rest runs r mem => ?_, fun d mem => ?_⟩
  · cases runs
    exact List.Nodup.filter _ (List.nodup_dedup _)
  · refine ⟨fun t stage job => ?_, fun run now => ?_⟩
    · simp only [jobs t] at job
      cases job
    · simp only [current] at now
      cases now
  · simp only [deleted] at mem
    cases mem

theorem startRun (h : Sound cfg s) {r : {runId : String // runId ≠ ""}}
    {rest : List {runId : String // runId ≠ ""}} (runs : s.runs = some (r :: rest)) :
    Sound cfg { s with
      runs := some rest
      current := some ⟨r.1, r.2, s.db.getRunSessions r.1, []⟩ } := by
  have next := h.ahead _ runs r List.mem_cons_self
  have unique := List.nodup_cons.mp (h.aheadNodup _ runs)
  refine ⟨h.distinct, h.jobStarted, h.filed, fun run now => ?_, fun run now id mem => ?_,
    fun run now id mem => ?_, (fun none => nomatch none), fun rest' same => ?_,
    fun rest' same r' mem => ?_, fun d mem => ?_⟩
  · cases now
    exact List.nodup_dedup _
  · cases now
    refine ⟨?_, by simp⟩
    cases job : s.jobs.get (Run.task ⟨r.1, r.2, s.db.getRunSessions r.1, []⟩ id) with
    | none => rfl
    | some stage => exact absurd rfl (next.1 _ stage job)
  · cases now
    cases mem
  · cases same
    exact unique.2
  · cases same
    refine ⟨(h.ahead _ runs r' (.tail _ mem)).1, fun run now => ?_⟩
    cases now
    intro eq
    exact unique.1 (Subtype.ext eq ▸ mem)
  · obtain ⟨t, settled⟩ := h.settled d mem
    refine ⟨t, settled.started, settled.belongs, settled.held, settled.idle, fun run now => ?_,
      fun rest' same r' mem => ?_⟩
    · cases now
      exact settled.notAhead _ runs r List.mem_cons_self
    · cases same
      exact settled.notAhead _ runs r' (.tail _ mem)

theorem dispatch (h : Sound cfg s) {run : Run} (now : s.current = some run)
    {sessionId : Option String} (mem : sessionId ∈ run.pending)
    (admitted : ∀ u ∈ s.started, Conflated (run.task sessionId) u → u = run.task sessionId) :
    Sound cfg { s with
      current := some { run with pending := run.pending.erase sessionId }
      jobs := s.jobs.setItem (run.task sessionId) .submitted
      started := run.task sessionId :: s.started } := by
  have free := h.pendingIdle run now sessionId mem
  have nodup := h.pendingNodup run now
  have task_ne : ∀ {id}, id ≠ sessionId → run.task id ≠ run.task sessionId := by
    intro id ne eq
    exact ne (congrArg ArchiveTask.sessionId eq)
  have job : ∀ {t stage}, (s.jobs.setItem (run.task sessionId) Stage.submitted).get t = some stage →
      t = run.task sessionId ∧ stage = .submitted ∨ s.jobs.get t = some stage := by
    intro t stage here
    rw [OrderedDict.get_setItem] at here
    split_ifs at here with eq
    · cases here
      exact .inl ⟨eq, rfl⟩
    · exact .inr here
  constructor
  case distinct =>
    intro t ht u hu same
    cases List.mem_cons.mp ht with
    | inl new =>
      cases List.mem_cons.mp hu with
      | inl new' => rw [new, new']
      | inr old => exact new.trans (admitted u old (new ▸ same)).symm
    | inr old =>
      cases List.mem_cons.mp hu with
      | inl new =>
        have back : Conflated u t := by
          rw [conflated_iff] at same ⊢
          exact ⟨same.1.symm, same.2.symm⟩
        exact (admitted t old (new ▸ back)).trans new.symm
      | inr old' => exact h.distinct t old u old' same
  case jobStarted =>
    intro t stage here
    cases job here with
    | inl new => exact new.1 ▸ List.mem_cons_self
    | inr old => exact .tail _ (h.jobStarted t stage old)
  case filed =>
    intro t stage here
    cases job here with
    | inl new =>
      rw [new.2]
      trivial
    | inr old => exact h.filed t stage old
  case pendingNodup =>
    intro run' same
    cases same
    exact nodup.erase _
  case pendingIdle =>
    intro run' same id left
    cases same
    have kept := (List.Nodup.mem_erase_iff nodup).mp left
    have before := h.pendingIdle run now id kept.2
    exact ⟨(OrderedDict.get_setItem_ne _ _ (task_ne kept.1)).trans before.1, before.2⟩
  case collected =>
    intro run' same id done
    cases same
    obtain ⟨started, idle, archived⟩ := h.collected run now id done
    have other : id ≠ sessionId := fun eq => free.2 (eq ▸ done)
    exact ⟨.tail _ started, (OrderedDict.get_setItem_ne _ _ (task_ne other)).trans idle, archived⟩
  case unselected =>
    intro none
    have none' := (h.unselected none).1
    rw [now] at none'
    cases none'
  case aheadNodup => exact h.aheadNodup
  case ahead =>
    intro rest runs r later
    obtain ⟨jobs, current⟩ := h.ahead rest runs r later
    refine ⟨fun t stage here => ?_, fun run' same => ?_⟩
    · cases job here with
      | inl new => exact new.1 ▸ current run now
      | inr old => exact jobs t stage old
    · cases same
      exact current run now
  case settled =>
    intro d gone
    obtain ⟨t, settled⟩ := h.settled d gone
    have other : t ≠ run.task sessionId :=
      fun eq => settled.notCurrent run now (congrArg ArchiveTask.runId eq).symm
    refine ⟨t, .tail _ settled.started, settled.belongs, settled.held, ?_, fun run' same => ?_,
      settled.notAhead⟩
    · rw [OrderedDict.get_setItem_ne _ _ other]
      exact settled.idle
    · cases same
      exact settled.notCurrent run now

/-- The common part of the steps of one call: another stage for it, and files
and rows of the other sessions left alone. -/
theorem advance (h : Sound cfg s) {old new : Stage} (job : s.jobs.get t = some old)
    (db : s'.db = s.db) (runs : s'.runs = s.runs) (current : s'.current = s.current)
    (jobs : s'.jobs = s.jobs.setItem t new) (started : s'.started = s.started)
    (deleted : s'.deleted = s.deleted)
    (others : ∀ u ∈ s.started, u ≠ t → Undisturbed cfg s s' u) (filed : Filed cfg s' t new) :
    Sound cfg s' := by
  have get : ∀ u, u ≠ t → s'.jobs.get u = s.jobs.get u := by
    intro u ne
    rw [jobs, OrderedDict.get_setItem_ne _ _ ne]
  have busy : ∀ {u}, s.jobs.get u = none → u ≠ t := by
    intro u idle eq
    rw [eq, job] at idle
    cases idle
  have running : ∀ {u stage}, s'.jobs.get u = some stage →
      ∃ stage', s.jobs.get u = some stage' := by
    intro u stage here
    by_cases eq : u = t
    · exact ⟨old, eq ▸ job⟩
    · exact ⟨stage, get u eq ▸ here⟩
  constructor
  case distinct => exact started ▸ h.distinct
  case jobStarted =>
    intro u stage here
    obtain ⟨stage', before⟩ := running here
    exact started ▸ h.jobStarted u stage' before
  case filed =>
    intro u stage here
    by_cases eq : u = t
    · subst eq
      rw [jobs, OrderedDict.get_setItem_self] at here
      cases here
      exact filed
    · rw [get u eq] at here
      exact (others u (h.jobStarted u stage here) eq).filed (h.filed u stage here)
  case pendingNodup => exact current ▸ h.pendingNodup
  case pendingIdle =>
    intro run now id mem
    rw [current] at now
    have before := h.pendingIdle run now id mem
    exact ⟨by rw [get _ (busy before.1)]; exact before.1, before.2⟩
  case collected =>
    intro run now id mem
    rw [current] at now
    obtain ⟨begun, idle, archived⟩ := h.collected run now id mem
    refine ⟨started ▸ begun, by rw [get _ (busy idle)]; exact idle, ?_⟩
    exact (others _ begun (busy idle)).archived archived
  case unselected =>
    intro none
    rw [runs] at none
    have jobs := (h.unselected none).2.1 t
    rw [job] at jobs
    cases jobs
  case aheadNodup => exact runs ▸ h.aheadNodup
  case ahead =>
    intro rest later r mem
    rw [runs] at later
    obtain ⟨ahead, notCurrent⟩ := h.ahead rest later r mem
    refine ⟨fun u stage here => ?_, current ▸ notCurrent⟩
    obtain ⟨stage', before⟩ := running here
    exact ahead u stage' before
  case settled =>
    intro d mem
    rw [deleted] at mem
    obtain ⟨u, settled⟩ := h.settled d mem
    have other := busy settled.idle
    refine ⟨u, started ▸ settled.started, db ▸ settled.belongs, ?_, ?_,
      current ▸ settled.notCurrent,
      runs ▸ settled.notAhead⟩
    · rw [(others u settled.started other).storage]
      exact settled.held
    · rw [get u other]
      exact settled.idle

theorem exportSession (h : Sound cfg s) (job : s.jobs.get t = some .submitted) :
    Sound cfg (s.exportSession cfg t) := by
  have begun := h.jobStarted t _ job
  have late : ∀ u, u ≠ t →
      (some u.runId, u.sessionId) ∉ s.inserted.filter (· ≠ (some t.runId, t.sessionId)) →
        ¬Late s u := by
    intro u ne fresh mem
    refine fresh (List.mem_filter.mpr ⟨mem, ?_⟩)
    rw [decide_eq_true_eq]
    intro eq
    simp only [Prod.mk.injEq, Option.some_inj] at eq
    cases u
    cases t
    cases eq.1
    cases eq.2
    exact ne rfl
  unfold Cycle.exportSession
  simp only
  split_ifs with empty
  · refine h.advance job rfl rfl rfl rfl rfl rfl (fun u hu ne => ?_) ?_
    · exact ⟨by simp only [OrderedDict.get_pop, h.path_ne hu begun ne, if_false], rfl,
        fun fresh => ⟨late u ne fresh, fun d mem => mem⟩⟩
    · intro fresh d mem
      rw [List.isEmpty_iff] at empty
      change d ∈ s.db.sessionRows t at mem
      rw [empty] at mem
      cases mem
  · refine h.advance job rfl rfl rfl rfl rfl rfl (fun u hu ne => ?_) ?_
    · exact ⟨OrderedDict.get_setItem_ne _ _ (h.path_ne hu begun ne), rfl,
        fun fresh => ⟨late u ne fresh, fun d mem => mem⟩⟩
    · exact ⟨s.db.sessionRows t, OrderedDict.get_setItem_self .., fun fresh d mem => mem⟩

theorem upload (h : Sound cfg s) (job : s.jobs.get t = some .exported) {file : List (Detail ρ)}
    (present : s.temp.get (t.tempPath cfg.tempRoot cfg.compress) = some file) :
    Sound cfg { s with
      storage := s.storage.setItem (t.storageKey cfg.compress) file
      temp := s.temp.pop (t.tempPath cfg.tempRoot cfg.compress)
      jobs := s.jobs.setItem t .uploaded } := by
  have begun := h.jobStarted t _ job
  refine h.advance job rfl rfl rfl rfl rfl rfl (fun u hu ne => ?_) ?_
  · exact ⟨by simp only [OrderedDict.get_pop, h.path_ne hu begun ne, if_false],
      OrderedDict.get_setItem_ne _ _ (h.key_ne hu begun ne), fun fresh => ⟨fresh, fun d mem => mem⟩⟩
  · intro fresh d mem
    obtain ⟨file', present', holds⟩ := h.filed t _ job
    rw [present, Option.some_inj] at present'
    subst present'
    exact ⟨file, OrderedDict.get_setItem_self .., holds fresh d mem⟩

theorem restart (h : Sound cfg s) {stage : Stage} (job : s.jobs.get t = some stage) :
    Sound cfg { s with jobs := s.jobs.setItem t .submitted } :=
  h.advance job rfl rfl rfl rfl rfl rfl
    (fun _ _ _ => ⟨rfl, rfl, fun fresh => ⟨fresh, fun _ mem => mem⟩⟩) trivial

end Sound

/-- What the end of a call leaves of the run in progress: its session may be
handed out again or done. -/
inductive Run.Ended (run : Run) (t : ArchiveTask) (stage : Stage) : Run → Prop
  | left : Ended run t stage run
  | back (own : run.task t.sessionId = t) :
      Ended run t stage { run with pending := run.pending ++ [t.sessionId] }
  | done (own : run.task t.sessionId = t) (uploaded : stage = .uploaded) :
      Ended run t stage { run with successful := run.successful ++ [t.sessionId] }

namespace Run.Ended

variable {run run' : Run} {stage : Stage} {id : Option String}

theorem runId (h : run.Ended t stage run') : run'.runId = run.runId := by
  cases h <;> rfl

theorem task (h : run.Ended t stage run') (id : Option String) : run'.task id = run.task id := by
  cases h <;> rfl

theorem mem_pending (h : run.Ended t stage run') (mem : id ∈ run'.pending) :
    id ∈ run.pending ∨ run.task id = t ∧ run'.successful = run.successful := by
  cases h with
  | left => exact .inl mem
  | back own =>
    rcases List.mem_append.mp mem with old | new
    · exact .inl old
    · rw [List.mem_singleton.mp new]
      exact .inr ⟨own, rfl⟩
  | done own uploaded => exact .inl mem

theorem mem_successful (h : run.Ended t stage run') (mem : id ∈ run'.successful) :
    id ∈ run.successful ∨ run.task id = t ∧ stage = .uploaded := by
  cases h with
  | left => exact .inl mem
  | back own => exact .inl mem
  | done own uploaded =>
    rcases List.mem_append.mp mem with old | new
    · exact .inl old
    · rw [List.mem_singleton.mp new]
      exact .inr ⟨own, uploaded⟩

/-- A call ends whose session is not waiting to be handed out. -/
theorem pendingNodup (h : run.Ended t stage run') (nodup : run.pending.Nodup)
    (busy : ∀ id ∈ run.pending, run.task id ≠ t) : run'.pending.Nodup := by
  cases h with
  | left => exact nodup
  | back own =>
    rw [List.nodup_append]
    refine ⟨nodup, List.nodup_singleton _, fun id mem id' mem' same => ?_⟩
    rw [List.mem_singleton.mp mem'] at same
    exact busy id mem (same ▸ own)
  | done own uploaded => exact nodup

theorem of_lose {current : Option Run} {retried : Bool}
    (h : (current.map fun run =>
      if retried ∧ t.runId = run.runId then
        { run with pending := run.pending ++ [t.sessionId] }
      else run) = some run') : ∃ run, current = some run ∧ run.Ended t stage run' := by
  obtain ⟨run, now, made⟩ := Option.map_eq_some_iff.mp h
  refine ⟨run, now, ?_⟩
  split_ifs at made with back
  · subst made
    exact .back (Run.task_eq back.2)
  · subst made
    exact .left

end Run.Ended

namespace Sound

/-- The common part of the steps that end a call: its session may be done or
go back to the sessions to hand out. -/
theorem finish (h : Sound cfg s) {stage : Stage} (job : s.jobs.get t = some stage)
    (db : s'.db = s.db) (storage : s'.storage = s.storage) (runs : s'.runs = s.runs)
    (jobs : s'.jobs = s.jobs.pop t) (inserted : s'.inserted = s.inserted)
    (started : s'.started = s.started) (deleted : s'.deleted = s.deleted)
    (temp : ∀ u ∈ s.started, u ≠ t → s'.temp.get (u.tempPath cfg.tempRoot cfg.compress) =
      s.temp.get (u.tempPath cfg.tempRoot cfg.compress))
    (current : ∀ run', s'.current = some run' →
      ∃ run, s.current = some run ∧ run.Ended t stage run') :
    Sound cfg s' := by
  have begun := h.jobStarted t _ job
  have late : ∀ u, Late s' u ↔ Late s u := by
    intro u
    rw [Late, inserted, Late]
  have archived : ∀ u, Archived cfg s' u ↔ Archived cfg s u := by
    intro u
    rw [Archived, db, storage, Archived]
  have get : ∀ u, u ≠ t → s'.jobs.get u = s.jobs.get u := by
    intro u ne
    rw [jobs, OrderedDict.get_pop, if_neg ne]
  have gone : s'.jobs.get t = none := by rw [jobs, OrderedDict.get_pop_self]
  have running : ∀ {u stage}, s'.jobs.get u = some stage → u ≠ t ∧ s.jobs.get u = some stage := by
    intro u stage here
    have ne : u ≠ t := by
      intro eq
      rw [eq, gone] at here
      cases here
    exact ⟨ne, get u ne ▸ here⟩
  have idle : ∀ {u}, s.jobs.get u = none → u ≠ t ∧ s'.jobs.get u = none := by
    intro u before
    have ne : u ≠ t := by
      intro eq
      rw [eq, job] at before
      cases before
    exact ⟨ne, (get u ne).trans before⟩
  constructor
  case distinct => exact started ▸ h.distinct
  case jobStarted =>
    intro u stage here
    exact started ▸ h.jobStarted u stage (running here).2
  case filed =>
    intro u stage here
    obtain ⟨ne, before⟩ := running here
    refine Undisturbed.filed ⟨temp u (h.jobStarted u stage before) ne, by rw [storage],
      fun fresh => ⟨(late u).not.mp fresh, fun d mem => db ▸ mem⟩⟩ (h.filed u stage before)
  case pendingNodup =>
    intro run' now
    obtain ⟨run, before, ended⟩ := current run' now
    exact ended.pendingNodup (h.pendingNodup run before)
      fun id mem => (idle (h.pendingIdle run before id mem).1).1
  case pendingIdle =>
    intro run' now id mem
    obtain ⟨run, before, ended⟩ := current run' now
    rw [ended.task]
    rcases ended.mem_pending mem with old | ⟨own, kept⟩
    · obtain ⟨free, open'⟩ := h.pendingIdle run before id old
      refine ⟨(idle free).2, fun done => ?_⟩
      rcases ended.mem_successful done with old | ⟨own, -⟩
      · exact open' old
      · exact (idle free).1 own
    · refine ⟨own.symm ▸ gone, fun done => ?_⟩
      rw [kept] at done
      exact (idle (h.collected run before id done).2.1).1 own
  case collected =>
    intro run' now id mem
    obtain ⟨run, before, ended⟩ := current run' now
    rw [ended.task, late, archived, started]
    rcases ended.mem_successful mem with old | ⟨own, uploaded⟩
    · obtain ⟨begun, free, filed⟩ := h.collected run before id old
      exact ⟨begun, (idle free).2, filed⟩
    · have filed := h.filed t stage job
      rw [uploaded] at filed
      rw [own]
      exact ⟨begun, gone, filed⟩
  case unselected =>
    intro none
    rw [runs] at none
    have jobs := (h.unselected none).2.1 t
    rw [job] at jobs
    cases jobs
  case aheadNodup => exact runs ▸ h.aheadNodup
  case ahead =>
    intro rest later r mem
    rw [runs] at later
    obtain ⟨ahead, notCurrent⟩ := h.ahead rest later r mem
    refine ⟨fun u stage here => ahead u stage (running here).2, fun run' now => ?_⟩
    obtain ⟨run, before, ended⟩ := current run' now
    exact ended.runId ▸ notCurrent run before
  case settled =>
    intro d mem
    rw [deleted] at mem
    obtain ⟨u, settled⟩ := h.settled d mem
    refine ⟨u, started ▸ settled.started, db ▸ settled.belongs, storage ▸ settled.held,
      (idle settled.idle).2, fun run' now => ?_, runs ▸ settled.notAhead⟩
    obtain ⟨run, before, ended⟩ := current run' now
    exact ended.runId ▸ settled.notCurrent run before

theorem collect (h : Sound cfg s) (job : s.jobs.get t = some .uploaded) {run : Run}
    (now : s.current = some run) (own : t.runId = run.runId) :
    Sound cfg { s with
      current := some { run with successful := run.successful ++ [t.sessionId] }
      jobs := s.jobs.pop t } := by
  refine h.finish job rfl rfl rfl rfl rfl rfl rfl (fun _ _ _ => rfl) fun run' same => ?_
  cases same
  exact ⟨run, now, .done (Run.task_eq own) rfl⟩

theorem lose (h : Sound cfg s) {stage : Stage} (job : s.jobs.get t = some stage)
    (unlinked retried : Bool) :
    Sound cfg { s with
      temp := if unlinked then s.temp.pop (t.tempPath cfg.tempRoot cfg.compress) else s.temp
      jobs := s.jobs.pop t
      current := s.current.map fun run =>
        if retried ∧ t.runId = run.runId then
          { run with pending := run.pending ++ [t.sessionId] }
        else run } := by
  have begun := h.jobStarted t _ job
  refine h.finish job rfl rfl rfl rfl rfl rfl rfl (fun u hu ne => ?_) fun _ => Run.Ended.of_lose
  simp only
  split_ifs
  · rw [OrderedDict.get_pop, if_neg (h.path_ne hu begun ne)]
  · rfl

theorem abortRun (h : Sound cfg s) {run : Run} (now : s.current = some run) :
    Sound cfg { s with current := none } := by
  refine ⟨h.distinct, h.jobStarted, h.filed, (fun _ none => nomatch none),
    (fun _ none => nomatch none), (fun _ none => nomatch none), fun runs => ?_, h.aheadNodup,
    fun rest runs r mem => ⟨(h.ahead rest runs r mem).1, (fun _ none => nomatch none)⟩,
    fun d mem => ?_⟩
  · have none := (h.unselected runs).1
    rw [now] at none
    cases none
  · obtain ⟨t, settled⟩ := h.settled d mem
    exact ⟨t, settled.started, settled.belongs, settled.held, settled.idle,
      (fun _ none => nomatch none), settled.notAhead⟩

theorem cleanup (h : Sound cfg s) {run : Run} (now : s.current = some run)
    (admitted : ∀ sessionId ∈ run.successful, ¬Late s (run.task sessionId)) :
    Sound cfg (s.cleanup cfg run) := by
  have still : ∀ t, Undisturbed cfg s (s.cleanup cfg run) t :=
    fun t => ⟨rfl, rfl, fun fresh => ⟨fresh, fun d mem => mem_sessionRows_cleanup mem⟩⟩
  refine ⟨h.distinct, h.jobStarted, fun t stage job => (still t).filed (h.filed t stage job),
    (fun _ none => nomatch none), (fun _ none => nomatch none), (fun _ none => nomatch none),
    fun runs => ?_, h.aheadNodup,
    fun rest runs r mem => ⟨(h.ahead rest runs r mem).1, (fun _ none => nomatch none)⟩,
    fun d mem => ?_⟩
  · have none := (h.unselected runs).1
    rw [now] at none
    cases none
  · cases List.mem_append.mp mem with
    | inl old =>
      obtain ⟨t, settled⟩ := h.settled d old
      exact ⟨t, settled.started, belongs_cleanup.mpr settled.belongs, settled.held, settled.idle,
        (fun _ none => nomatch none), settled.notAhead⟩
    | inr new =>
      rw [List.mem_filter, decide_eq_true_eq] at new
      obtain ⟨row, m, joined, key, runId, listed⟩ := new
      obtain ⟨begun, idle, archived⟩ := h.collected run now m.sessionId listed
      have belongs : Tables.Belongs s.db.metadata d (some run.runId) m.sessionId :=
        ⟨m, joined, key, runId, rfl⟩
      have held := archived (admitted _ listed) d (mem_sessionRows.mpr ⟨row, belongs⟩)
      refine ⟨run.task m.sessionId, begun, belongs_cleanup.mpr belongs, held, idle,
        (fun _ none => nomatch none), fun rest runs r mem => ?_⟩
      exact ((h.ahead rest runs r mem).2 run now).symm

end Sound

/-- An admitted event keeps the invariant. -/
theorem step_sound (s : Cycle ρ) (e : Event ρ) (s' : Cycle ρ) (h : Sound cfg s)
    (admitted : Admitted s e) (taken : (machine cfg).step s e = some s') : Sound cfg s' := by
  cases Cycle.step_cases taken with
  | rolledBack => exact h
  | insert uniqueId sessionId runId createdAt payload =>
    exact h.insert uniqueId sessionId runId createdAt payload
  | findExpiredRuns threshold first => exact h.findExpiredRuns first threshold
  | startRun r rest runs => exact h.startRun runs
  | dispatch sessionId run now mem => exact h.dispatch now mem (admitted run now)
  | exported t job => exact h.exportSession job
  | upload t file job present => exact h.upload job present
  | collect t run job now own => exact h.collect job now own
  | restart t stage job => exact h.restart job
  | lose t unlinked retried stage job => exact h.lose job unlinked retried
  | abortRun run now => exact h.abortRun now
  | cleanup run now => exact h.cleanup now (admitted run now)

/-- In a cycle whose events are all admitted no row is deleted that the archive
file of its session does not hold. -/
theorem run_noLoss (cfg : Settings) (db : Tables ρ)
    (temp : OrderedDict (List String) (List (Detail ρ)))
    (storage : OrderedDict String (List (Detail ρ))) (events : List (Event ρ))
    (h : (machine cfg).Guarded Admitted (Cycle.begin db temp storage) events) :
    (machine cfg).Along (NoLoss cfg) (Cycle.begin db temp storage) events :=
  (Machine.along_of_guarded step_sound (Sound.begin db temp storage) h).mono
    fun _ => Sound.noLoss

def noTables : Tables Unit := ⟨[], [], List.nodup_nil, by simp⟩

def settings : Settings := ⟨["/tmp"], true, "/data/"⟩

def session : ArchiveTask := ⟨"run", some "s", by decide⟩

/-- One record is inserted and its session exported, uploaded and collected. -/
private def archived : List (Event Unit) :=
  [.insert "u" (some "s") (some "run") 0 (), .findExpiredRuns 1, .startRun,
    .dispatch (some "s"), .export session, .upload session, .collect session]

theorem run_noLoss_quiet :
    (machine settings).Along (NoLoss settings) (Cycle.begin noTables ∅ ∅)
      (archived ++ [.cleanup]) := by
  refine run_noLoss settings noTables ∅ ∅ _ ?_
  refine Machine.guarded_cons rfl trivial (Machine.guarded_cons rfl trivial
    (Machine.guarded_cons rfl trivial (Machine.guarded_cons rfl ?_ (Machine.guarded_cons rfl trivial
    (Machine.guarded_cons rfl trivial (Machine.guarded_cons rfl trivial
    (Machine.guarded_cons rfl ?_ trivial)))))))
  · intro run now u mem
    cases mem
  · intro run now sessionId mem late
    exact List.not_mem_nil late

/-- The record `v`, inserted behind the export, is deleted and in no file. -/
theorem late_record_lost :
    ¬∀ (cfg : Settings) (db : Tables Unit) (temp : OrderedDict (List String) (List (Detail Unit)))
      (storage : OrderedDict String (List (Detail Unit))) (events : List (Event Unit)),
      (machine cfg).Along (NoLoss cfg) (Cycle.begin db temp storage) events := by
  intro all
  let events := archived ++ [.insert "v" (some "s") (some "run") 1 (), .cleanup]
  obtain ⟨s, ran, deleted, stored⟩ : ∃ s,
      (machine settings).exec (Cycle.begin noTables ∅ ∅) events = some s ∧
      s.deleted = [⟨"u", 0, ()⟩, ⟨"v", 1, ()⟩] ∧
      s.storage = OrderedDict.setItem ∅ (session.storageKey true) [⟨"u", 0, ()⟩] :=
    ⟨_, rfl, rfl, rfl⟩
  have noLoss := (all settings noTables ∅ ∅ events).exec ran
  obtain ⟨t, -, file, present, held⟩ := noLoss ⟨"v", 1, ()⟩ (by simp [deleted])
  rw [stored, OrderedDict.get_setItem] at present
  split_ifs at present
  · cases present
    simp at held
  · rw [OrderedDict.get_empty] at present
    cases present

end TrajProxy.Archiver
