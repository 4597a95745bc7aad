import TrajProxy.Archiver.Scheduler

/-! Whatever the loop, `trigger_now` and `stop` do to each other, `archive_details`
is called as by one caller: a call starts when the one before has ended, with the
Workers that the last call to return has left, and the counters are those of the
calls that returned. -/

namespace TrajProxy.Archiver.Scheduler
open Transition

variable {ω : Type}

/-- One archive after the other. -/
structure Serial (ω : Type) where
  workers : ω
  busy : Bool
  results : List Result

namespace Serial

def initial (workers : ω) : Serial ω := ⟨workers, false, []⟩

def step [DecidableEq ω] (s : Serial ω) : Call ω → Option (Serial ω)
  | .called workers =>
    if s.busy = false ∧ workers = s.workers then some { s with busy := true } else none
  | .returned answers =>
    if s.busy then
      let (updated, result) := archiveDetails s.workers answers
      some ⟨updated, false, s.results ++ [result]⟩
    else none
  | .raised => if s.busy then some { s with busy := false } else none

def machine [DecidableEq ω] : Machine (Serial ω) (Call ω) := ⟨step⟩

def totalRecords (s : Serial ω) : Nat :=
  ((s.results.flatMap Result.details).map RunDetail.records).sum

theorem totalRecords_append (workers : ω) (busy : Bool) (results : List Result) (r : Result) :
    totalRecords ⟨workers, busy, results ++ [r]⟩ =
      totalRecords ⟨workers, busy, results⟩ + (r.details.map RunDetail.records).sum := by
  simp [totalRecords]

end Serial

/-- What the calls of `archive_details` change, and the Workers of those that
have not ended. -/
structure Books (ω : Type) where
  workers : ω
  executing : Bool
  lastResult : Option Result
  totalRuns : Nat
  totalRecordsArchived : Nat
  calls : List (Call ω)
  archiving : List ω

namespace State

variable {s s' : State ω} {i : Nat} {c c' : Coroutine ω}

def books (s : State ω) : Books ω :=
  ⟨s.workers, s.executing, s.lastResult, s.totalRuns, s.totalRecordsArchived, s.calls,
    s.archiving⟩

/-- `_executing` says whether a call has not ended; there is no second one, and it
has the Workers of the scheduler. -/
def Alone (s : State ω) : Prop := s.archiving = if s.executing then [s.workers] else []

/-- What a step does to the books. -/
inductive Accounts (s s' : State ω) : Prop
  | keeps (books : s'.books = s.books)
  | begins (free : s.executing = false)
      (books : s'.books =
        { s.books with
          executing := true
          calls := s.calls ++ [.called s.workers]
          archiving := [s.workers] })
  | returns (answers : Answers ω) (busy : s.executing = true)
      (books : s'.books =
        { workers := (archiveDetails s.workers answers).1
          executing := false
          lastResult := some (archiveDetails s.workers answers).2
          totalRuns := s.totalRuns + 1
          totalRecordsArchived :=
            s.totalRecordsArchived + (archiveDetails s.workers answers).2.recordsArchived
          calls := s.calls ++ [.returned answers]
          archiving := [] })
  | raises (busy : s.executing = true)
      (books : s'.books =
        { s.books with
          executing := false
          calls := s.calls ++ [.raised]
          archiving := [] })

theorem archiving_replace (there : s.coroutines[i]? = some c)
    (same : c'.archiving = c.archiving) : (s.replace i c').archiving = s.archiving :=
  Search.filterMap_set_of_eq there same

/-- A coroutine that waited starts to archive. -/
theorem archiving_replace_begins (there : s.coroutines[i]? = some c) {workers : ω}
    (before : c.archiving = none) (after : c'.archiving = some workers)
    (free : s.archiving = []) : (s.replace i c').archiving = [workers] := by
  obtain ⟨front, back, old, new⟩ := Search.filterMap_set Coroutine.archiving there c'
  have split : front ++ c.archiving.toList ++ back = [] := old.symm.trans free
  rw [before, Option.toList_none, List.append_nil, List.append_eq_nil_iff] at split
  refine new.trans ?_
  rw [split.1, split.2, after]
  rfl

/-- The only coroutine that archives stops to. -/
theorem archiving_replace_ends (there : s.coroutines[i]? = some c) {workers : ω}
    (before : c.archiving = some workers) (after : c'.archiving = none)
    (only : s.archiving = [workers]) : (s.replace i c').archiving = [] := by
  obtain ⟨front, back, old, new⟩ := Search.filterMap_set Coroutine.archiving there c'
  have split : front ++ c.archiving.toList ++ back = [workers] := old.symm.trans only
  have size := congrArg List.length split
  simp only [before, Option.toList_some, List.length_append, List.length_cons,
    List.length_nil] at size
  have front_nil : front = [] := List.eq_nil_of_length_eq_zero (by omega)
  have back_nil : back = [] := List.eq_nil_of_length_eq_zero (by omega)
  refine new.trans ?_
  rw [front_nil, back_nil, after]
  rfl

theorem archiving_add (s : State ω) (c : Coroutine ω) :
    (s.add c).archiving = s.archiving ++ c.archiving.toList := by
  unfold State.archiving add
  rw [List.filterMap_append]
  cases same : c.archiving <;> simp [same]

theorem books_replace (there : s.coroutines[i]? = some c)
    (same : c'.archiving = c.archiving) : (s.replace i c').books = s.books := by
  unfold books
  rw [archiving_replace there same]
  rfl

theorem books_add (idle : c.archiving = none) : (s.add c).books = s.books := by
  unfold books
  rw [archiving_add, idle, Option.toList_none, List.append_nil]
  rfl

theorem books_cancel (s : State ω) (i : Nat) : (s.cancel i).books = s.books := by
  unfold cancel
  cases there : s.coroutines[i]? with
  | none => rfl
  | some c => exact books_replace there c.archiving_cancel

theorem books_start (s : State ω) (now : Nat) : (s.start now).books = s.books := by
  unfold start
  split_ifs
  · rfl
  · exact books_add rfl

theorem books_join (s : State ω) : s.join.books = s.books := by
  unfold join
  cases s.task with
  | none => rfl
  | some task =>
    dsimp only
    split_ifs
    · exact books_cancel s task
    · exact (books_add rfl).trans (books_cancel s task)

theorem books_stop (s : State ω) : s.stop.books = s.books := by
  unfold stop
  split_ifs
  · exact books_join { s with running := false }
  · rfl

namespace Alone

theorem free (alone : s.Alone) (free : s.executing = false) : s.archiving = [] := by
  rw [Alone, free] at alone
  exact alone

/-- The one call that has not ended. -/
theorem busy (alone : s.Alone) (there : s.coroutines[i]? = some c) {workers : ω}
    (value : c.archiving = some workers) :
    s.executing = true ∧ workers = s.workers ∧ s.archiving = [s.workers] := by
  have mem : workers ∈ s.archiving := Search.mem_filterMap_of_getElem? there value
  rw [Alone] at alone
  cases executing : s.executing with
  | true =>
    rw [executing, if_pos rfl] at alone
    rw [alone, List.mem_singleton] at mem
    exact ⟨rfl, mem, alone⟩
  | false =>
    rw [executing, if_neg Bool.false_ne_true] at alone
    rw [alone] at mem
    cases mem

theorem accounts_triggerNow (alone : s.Alone) : Accounts s s.triggerNow := by
  unfold triggerNow beginArchive
  split_ifs with executing
  · exact .keeps rfl
  · have free := Bool.eq_false_iff.mpr executing
    refine .begins free ?_
    unfold books
    rw [archiving_add]
    exact congrArg (Books.mk s.workers true _ _ _ _) (congrArg (· ++ [s.workers]) (alone.free free))

theorem accounts_runLoop (alone : s.Alone) (there : s.coroutines[i]? = some c)
    (idle : c.archiving = none) : Accounts s (s.runLoop i) := by
  unfold runLoop beginArchive
  split_ifs with running executing
  · exact .keeps (books_replace there idle.symm)
  · have free := Bool.eq_false_iff.mpr executing
    refine .begins free ?_
    exact congrArg (Books.mk s.workers true _ _ _ _)
      (archiving_replace_begins there idle rfl (alone.free free))
  · exact .keeps (books_replace there idle.symm)

theorem accounts_returned (alone : s.Alone) (there : s.coroutines[i]? = some c) {workers : ω}
    (value : c.archiving = some workers) (idle : c'.archiving = none) (answers : Answers ω)
    (now : Nat) :
    Accounts s (((s.finishArchive workers answers).counted now).replace i c') := by
  obtain ⟨busy, rfl, only⟩ := alone.busy there value
  refine .returns answers busy ?_
  exact congrArg (Books.mk _ false _ _ _ _) (archiving_replace_ends there value idle only)

theorem accounts_raised (alone : s.Alone) (there : s.coroutines[i]? = some c) {workers : ω}
    (value : c.archiving = some workers) (idle : c'.archiving = none) :
    Accounts s (s.abandonArchive.replace i c') := by
  obtain ⟨busy, rfl, only⟩ := alone.busy there value
  refine .raises busy ?_
  exact congrArg (Books.mk _ false _ _ _ _) (archiving_replace_ends there value idle only)

theorem accounts_resume (alone : s.Alone) (there : s.coroutines[i]? = some c) {e : Event ω}
    (taken : s.resume i c e = some s') : Accounts s s' := by
  cases c with
  | loopWaiting wait cancelled =>
    cases e <;> simp only [resume, reduceCtorEq] at taken
    case resumed =>
      split_ifs at taken
      obtain rfl := Option.some_inj.mp taken
      exact alone.accounts_runLoop there rfl
    case cancelled =>
      split_ifs at taken
      obtain rfl := Option.some_inj.mp taken
      exact .keeps (books_replace there rfl)
  | loopArchiving workers =>
    have idle (wait : Wait) : (if s.running then .loopWaiting wait false else .ended :
        Coroutine ω).archiving = none := by
      split_ifs <;> rfl
    cases e <;> simp only [resume, reduceCtorEq, Option.some_inj] at taken
    case cancelled =>
      subst taken
      exact alone.accounts_raised there rfl rfl
    case returned answers now =>
      subst taken
      exact alone.accounts_returned there rfl (idle .poll) answers now
    case raised =>
      subst taken
      exact alone.accounts_raised there rfl (idle .retry)
  | triggerArchiving workers =>
    cases e <;> simp only [resume, reduceCtorEq, Option.some_inj] at taken
    case returned answers now =>
      subst taken
      exact alone.accounts_returned there rfl rfl answers now
    all_goals
      subst taken
      exact alone.accounts_raised there rfl rfl
  | stopWaiting task =>
    cases e <;> simp only [resume, reduceCtorEq] at taken
    case resumed =>
      split_ifs at taken
      obtain rfl := Option.some_inj.mp taken
      exact .keeps (books_replace there rfl)
  | ended => cases e <;> cases taken

/-- Every step keeps the books, begins a call or ends the only one. -/
theorem accounts_step (alone : s.Alone) {a : Action ω} (taken : s.step a = some s') :
    Accounts s s' := by
  cases a with
  | start now =>
    obtain rfl := Option.some_inj.mp taken
    exact .keeps (books_start s now)
  | triggerNow =>
    obtain rfl := Option.some_inj.mp taken
    exact alone.accounts_triggerNow
  | stop =>
    obtain rfl := Option.some_inj.mp taken
    exact .keeps (books_stop s)
  | cancel i =>
    obtain rfl := Option.some_inj.mp taken
    exact .keeps (books_cancel s i)
  | resume i e =>
    obtain ⟨c, there, taken⟩ := Option.bind_eq_some_iff.mp taken
    exact alone.accounts_resume there taken

end Alone

/-- The scheduler is where one caller is after the same calls. -/
structure Serves (t : Serial ω) (s : State ω) : Prop where
  workers : s.workers = t.workers
  busy : s.executing = t.busy
  lastResult : s.lastResult = t.results.getLast?
  totalRuns : s.totalRuns = t.results.length
  totalRecords : s.totalRecordsArchived = t.totalRecords
  alone : s.Alone

theorem Serves.initial (workers : ω) : Serves (.initial workers) (State.initial workers) :=
  ⟨rfl, rfl, rfl, rfl, rfl, rfl⟩

variable {t : Serial ω}

/-- The calls a step adds are the next ones of the one caller. -/
theorem Serves.step [DecidableEq ω] (h : Serves t s) (accounts : Accounts s s') :
    ∃ calls t', s'.calls = s.calls ++ calls ∧ Serial.machine.exec t calls = some t' ∧
      Serves t' s' := by
  obtain ⟨workers, busy, lastResult, totalRuns, totalRecords, alone⟩ := h
  cases accounts with
  | keeps books =>
    injection books with h₁ h₂ h₃ h₄ h₅ h₆ h₇
    refine ⟨[], t, by rw [h₆, List.append_nil], rfl, h₁.trans workers, h₂.trans busy,
      h₃.trans lastResult, h₄.trans totalRuns, h₅.trans totalRecords, ?_⟩
    rw [Alone, h₇, h₂, h₁]
    exact alone
  | begins free books =>
    injection books with h₁ h₂ h₃ h₄ h₅ h₆ h₇
    refine ⟨[.called s.workers], { t with busy := true }, h₆, ?_, h₁.trans workers, h₂,
      h₃.trans lastResult, h₄.trans totalRuns, h₅.trans totalRecords, ?_⟩
    · have idle : t.busy = false := busy.symm.trans free
      simp [Machine.exec, Serial.machine, Serial.step, idle, workers]
    · rw [Alone, h₇, h₂, h₁]
      rfl
  | returns answers running books =>
    injection books with h₁ h₂ h₃ h₄ h₅ h₆ h₇
    obtain ⟨tworkers, tbusy, results⟩ := t
    obtain rfl : s.workers = tworkers := workers
    refine ⟨[.returned answers], ⟨(archiveDetails s.workers answers).1, false,
      results ++ [(archiveDetails s.workers answers).2]⟩, h₆, ?_, h₁, h₂, ?_, ?_, ?_, ?_⟩
    · have going : tbusy = true := busy.symm.trans running
      simp [Machine.exec, Serial.machine, Serial.step, going]
    · rw [h₃, List.getLast?_concat]
    · rw [h₄, totalRuns, List.length_append, List.length_singleton]
    · rw [h₅, totalRecords, Serial.totalRecords_append,
        (balanced_archiveDetails s.workers answers).records]
      rfl
    · rw [Alone, h₇, h₂]
      rfl
  | raises running books =>
    injection books with h₁ h₂ h₃ h₄ h₅ h₆ h₇
    refine ⟨[.raised], { t with busy := false }, h₆, ?_, h₁.trans workers, h₂,
      h₃.trans lastResult, h₄.trans totalRuns, h₅.trans totalRecords, ?_⟩
    · have going : t.busy = true := busy.symm.trans running
      simp [Machine.exec, Serial.machine, Serial.step, going]
    · rw [Alone, h₇, h₂]
      rfl

end State

section Runs

variable [DecidableEq ω]

/-- The calls made so far are those of one caller that is where the scheduler is. -/
def Serialised (workers : ω) (s : State ω) : Prop :=
  ∃ t, Serial.machine.exec (.initial workers) s.calls = some t ∧ s.Serves t

theorem serialised_step {workers : ω} {s s' : State ω} {a : Action ω}
    (h : Serialised workers s) (taken : State.machine.step s a = some s') :
    Serialised workers s' := by
  obtain ⟨t, so_far, serves⟩ := h
  obtain ⟨calls, t', same, next, serves'⟩ := serves.step (serves.alone.accounts_step taken)
  refine ⟨t', ?_, serves'⟩
  rw [same, Machine.exec_append, so_far]
  exact next

/-- In every run the calls of `archive_details` are those of one caller, at most one
is unfinished, and Workers and counters are what the calls that returned left. -/
theorem archives_serially (workers : ω) (as : List (Action ω)) :
    State.machine.Along (fun s =>
      ∃ t, Serial.machine.exec (.initial workers) s.calls = some t ∧ s.workers = t.workers ∧
        s.executing = t.busy ∧ s.archiving = (if t.busy then [t.workers] else []) ∧
        s.lastResult = t.results.getLast? ∧ s.totalRuns = t.results.length ∧
        s.totalRecordsArchived =
          ((t.results.flatMap Result.details).map RunDetail.records).sum)
      (State.initial workers) as := by
  have start : Serialised workers (State.initial workers) := ⟨_, rfl, .initial workers⟩
  have along : State.machine.Along (Serialised workers) (State.initial workers) as :=
    Machine.along_of_step (fun _ _ _ => serialised_step) start as
  refine along.mono fun s ⟨t, calls, serves⟩ => ⟨t, calls, serves.workers, serves.busy,
    ?_, serves.lastResult, serves.totalRuns, serves.totalRecords⟩
  rw [serves.alone, serves.busy, serves.workers]

end Runs

end TrajProxy.Archiver.Scheduler
