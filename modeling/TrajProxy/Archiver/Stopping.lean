import TrajProxy.Archiver.Scheduler

/-! `stop` waits for the loop task. As long as `start` is not called while a `stop`
waits, there is one loop at most, and none when the wait is over. -/

namespace TrajProxy.Archiver.Scheduler
open Transition Coroutine

variable {ω : Type}

namespace State

variable {s s' : State ω} {i j : Nat} {c c' : Coroutine ω} {task : Nat}

/-- A `stop` waits for the loop task. -/
def Stopping (s : State ω) : Prop := ∃ (i task : Nat), s.coroutines[i]? = some (stopWaiting task)

/-- What `_task` and `_running` say about the coroutines. -/
structure Orderly (s : State ω) : Prop where
  loops : ∀ (i : Nat) c, s.coroutines[i]? = some c → c.isLoop = true → s.task = some i
  waits : ∀ (i task : Nat), s.coroutines[i]? = some (stopWaiting task) →
    s.running = false ∧ s.task = some task
  once : ∀ (i j task task' : Nat), s.coroutines[i]? = some (stopWaiting task) →
    s.coroutines[j]? = some (stopWaiting task') → i = j
  waited : s.running = false → s.task ≠ none → s.Stopping

theorem hasEnded_iff : s.hasEnded i = true ↔ s.coroutines[i]? = some ended := by
  unfold hasEnded
  cases s.coroutines[i]? with
  | none => simp
  | some c => cases c <;> simp [isEnded]

theorem getElem?_replace (there : s.coroutines[i]? = some c) (c' : Coroutine ω) (j : Nat) :
    (s.replace i c').coroutines[j]? = if i = j then some c' else s.coroutines[j]? := by
  have inside : i < s.coroutines.length := (List.getElem?_eq_some_iff.mp there).1
  rw [replace, List.getElem?_set]
  split_ifs <;> rfl

theorem getElem?_add : (s.add c).coroutines[j]? = some c' ↔
    s.coroutines[j]? = some c' ∨ j = s.coroutines.length ∧ c' = c := by
  unfold add
  rcases lt_trichotomy j s.coroutines.length with less | rfl | greater
  · simp [List.getElem?_append_left less, less.ne]
  · simp [eq_comm]
  · have past : s.coroutines.length ≤ j := greater.le
    have beyond : ¬j - s.coroutines.length = 0 := by omega
    simp [List.getElem?_append_right past, past, greater.ne', beyond]

theorem join_of_none (unset : s.task = none) : s.join = s := by
  unfold join
  rw [unset]

theorem join_of_some (named : s.task = some task) :
    s.join =
      if (s.cancel task).hasEnded task then { s.cancel task with task := none }
      else (s.cancel task).add (stopWaiting task) := by
  unfold join
  rw [named]

namespace Orderly

theorem congr (h : s.Orderly) (coroutines : s'.coroutines = s.coroutines)
    (task : s'.task = s.task) (running : s'.running = s.running) : s'.Orderly := by
  obtain ⟨loops, waits, once, waited⟩ := h
  constructor
  · rwa [coroutines, task]
  · rwa [coroutines, task, running]
  · rwa [coroutines]
  · unfold Stopping at waited ⊢
    rwa [coroutines, task, running]

/-- A coroutine goes on or ends, and no `stop` is involved. -/
theorem replace (h : s.Orderly) (there : s.coroutines[i]? = some c)
    (loop : c'.isLoop = true → c.isLoop = true)
    (stop : ∀ task, c' = stopWaiting task ↔ c = stopWaiting task) :
    (s.replace i c').Orderly := by
  have waiting {j task : Nat} :
      (s.replace i c').coroutines[j]? = some (stopWaiting task) ↔
        s.coroutines[j]? = some (stopWaiting task) := by
    rw [getElem?_replace there]
    split_ifs with same
    · rw [← same, there, Option.some_inj, Option.some_inj]
      exact stop task
    · rfl
  constructor
  · intro j d at_ isLoop
    rw [getElem?_replace there] at at_
    split_ifs at at_ with same
    · obtain rfl := Option.some_inj.mp at_
      exact same ▸ h.loops i c there (loop isLoop)
    · exact h.loops j d at_ isLoop
  · exact fun j task at_ => h.waits j task (waiting.mp at_)
  · exact fun j k task task' at_ at_' => h.once j k task task' (waiting.mp at_) (waiting.mp at_')
  · intro stopped named
    obtain ⟨j, task, at_⟩ := h.waited stopped named
    exact ⟨j, task, waiting.mpr at_⟩

theorem add (h : s.Orderly) (loop : c.isLoop = false) (stop : ∀ task, c ≠ stopWaiting task) :
    (s.add c).Orderly := by
  have waiting {j task : Nat} : (s.add c).coroutines[j]? = some (stopWaiting task) ↔
      s.coroutines[j]? = some (stopWaiting task) := by
    rw [getElem?_add, or_iff_left]
    exact fun new => stop task new.2.symm
  constructor
  · intro j d at_ isLoop
    obtain at_ | ⟨-, rfl⟩ := getElem?_add.mp at_
    · exact h.loops j d at_ isLoop
    · rw [loop] at isLoop
      cases isLoop
  · exact fun j task at_ => h.waits j task (waiting.mp at_)
  · exact fun j k task task' at_ at_' => h.once j k task task' (waiting.mp at_) (waiting.mp at_')
  · intro stopped named
    obtain ⟨j, task, at_⟩ := h.waited stopped named
    exact ⟨j, task, waiting.mpr at_⟩

theorem cancel (h : s.Orderly) (i : Nat) : (s.cancel i).Orderly := by
  unfold State.cancel
  cases there : s.coroutines[i]? with
  | none => exact h
  | some c =>
    refine h.replace there ?_ fun task => cancel_eq_stopWaiting
    rw [isLoop_cancel]
    exact id

/-- No loop is alive where `_task` is not set. -/
theorem no_loop (h : s.Orderly) (unset : s.task = none) (there : s.coroutines[i]? = some c) :
    c.isLoop = false := by
  refine Bool.eq_false_iff.mpr fun isLoop => ?_
  have named := h.loops i c there isLoop
  rw [unset] at named
  cases named

theorem start (h : s.Orderly) (calm : ¬s.Stopping) (now : Nat) : (s.start now).Orderly := by
  unfold State.start
  split_ifs with running
  · exact h
  have stopped := Bool.eq_false_iff.mpr running
  have unset : s.task = none := by
    by_contra named
    exact calm (h.waited stopped named)
  have waiting {j task : Nat} (at_ : (State.add
      { s with running := true, startedAt := some now, task := some s.coroutines.length }
      (loopWaiting .created false)).coroutines[j]? = some (stopWaiting task)) : False := by
    obtain at_ | ⟨-, new⟩ := getElem?_add.mp at_
    · exact calm ⟨j, task, at_⟩
    · cases new
  constructor
  · intro j d at_ isLoop
    obtain at_ | ⟨rfl, -⟩ := getElem?_add.mp at_
    · rw [h.no_loop unset at_] at isLoop
      cases isLoop
    · rfl
  · exact fun j task at_ => (waiting at_).elim
  · exact fun j k task task' at_ _ => (waiting at_).elim
  · exact nofun

theorem of_idle (loops : ∀ c ∈ s.coroutines, c.isLoop = false) (calm : ¬s.Stopping)
    (unset : s.task = none) : s.Orderly := by
  constructor
  · intro i c there isLoop
    rw [loops c (List.mem_of_getElem? there)] at isLoop
    cases isLoop
  · exact fun i task there => (calm ⟨i, task, there⟩).elim
  · exact fun i j task task' there _ => (calm ⟨i, task, there⟩).elim
  · exact fun _ named => absurd unset named

/-- The task that `_task` names is the only loop. -/
theorem no_loop_of_ended (h : s.Orderly) (named : s.task = some task)
    (finished : s.hasEnded task = true) (mem : c ∈ s.coroutines) : c.isLoop = false := by
  refine Bool.eq_false_iff.mpr fun isLoop => ?_
  obtain ⟨i, there⟩ := List.mem_iff_getElem?.mp mem
  obtain rfl := Option.some_inj.mp (named.symm.trans (h.loops i c there isLoop))
  obtain rfl := Option.some_inj.mp (there.symm.trans (hasEnded_iff.mp finished))
  cases isLoop

theorem task_cancel (s : State ω) (i : Nat) : (s.cancel i).task = s.task := by
  unfold State.cancel
  cases s.coroutines[i]? <;> rfl

theorem cancel_running (s : State ω) (i : Nat) (running : Bool) :
    State.cancel { s with running } i = { s.cancel i with running } := by
  unfold State.cancel
  cases s.coroutines[i]? <;> rfl

theorem running_cancel (s : State ω) (i : Nat) : (s.cancel i).running = s.running := by
  unfold State.cancel
  cases s.coroutines[i]? <;> rfl

theorem calm (h : s.Orderly) (running : s.running = true) : ¬s.Stopping := by
  rintro ⟨i, task, there⟩
  rw [(h.waits i task there).1] at running
  cases running

theorem stop (h : s.Orderly) : s.stop.Orderly := by
  unfold State.stop
  split_ifs with running
  swap
  · exact h
  obtain named | ⟨task, named⟩ := Option.eq_none_or_eq_some s.task
  · have joined : State.join { s with running := false } = { s with running := false } :=
      join_of_none named
    rw [joined]
    have loops (c : Coroutine ω) (mem : c ∈ s.coroutines) : c.isLoop = false := by
      obtain ⟨i, there⟩ := List.mem_iff_getElem?.mp mem
      exact h.no_loop named there
    exact of_idle loops (h.calm running) named
  · have cancelled := h.cancel task
    have named' : (s.cancel task).task = some task := (task_cancel s task).trans named
    have calm := cancelled.calm ((running_cancel s task).trans running)
    have same : ({ s with running := false } : State ω).task = some task := named
    rw [join_of_some same, cancel_running]
    split_ifs with finished
    · exact of_idle (fun c mem => cancelled.no_loop_of_ended named' finished mem) calm rfl
    · have waiting {j task' : Nat} (at_ : (State.add { s.cancel task with running := false }
          (stopWaiting task)).coroutines[j]? = some (stopWaiting task')) :
          j = (s.cancel task).coroutines.length ∧ task' = task := by
        obtain at_ | ⟨last, new⟩ := getElem?_add.mp at_
        · exact (calm ⟨j, task', at_⟩).elim
        · exact ⟨last, Coroutine.stopWaiting.inj new⟩
      constructor
      · intro j d at_ isLoop
        obtain at_ | ⟨-, rfl⟩ := getElem?_add.mp at_
        · exact cancelled.loops j d at_ isLoop
        · cases isLoop
      · intro j task' at_
        obtain ⟨-, rfl⟩ := waiting at_
        exact ⟨rfl, named'⟩
      · intro j k task' task'' at_ at_'
        exact (waiting at_).1.trans (waiting at_').1.symm
      · exact fun _ _ => ⟨_, task, getElem?_add.mpr (.inr ⟨rfl, rfl⟩)⟩

theorem triggerNow (h : s.Orderly) : s.triggerNow.Orderly := by
  unfold State.triggerNow beginArchive
  split_ifs
  · exact h
  · have called : Orderly { s with executing := true, calls := s.calls ++ [.called s.workers] } :=
      h.congr rfl rfl rfl
    exact called.add rfl nofun

/-- A loop goes on as a loop or ends. -/
theorem loop_goes (h : s.Orderly) (there : s.coroutines[i]? = some c) (loop : c.isLoop = true)
    (coroutines : s'.coroutines = s.coroutines) (task : s'.task = s.task)
    (running : s'.running = s.running) (still : c'.isLoop = true ∨ c' = ended) :
    (s'.replace i c').Orderly := by
  have same := h.congr coroutines task running
  refine same.replace (coroutines ▸ there) (fun _ => loop) fun task => ?_
  constructor
  · rintro rfl
    cases still with
    | inl isLoop => cases isLoop
    | inr finished => cases finished
  · rintro rfl
    cases loop

theorem resume (h : s.Orderly) (there : s.coroutines[i]? = some c) {e : Event ω}
    (taken : s.resume i c e = some s') : s'.Orderly := by
  cases c with
  | loopWaiting wait cancelled =>
    cases e <;> simp only [State.resume, reduceCtorEq] at taken
    case resumed =>
      split_ifs at taken
      obtain rfl := Option.some_inj.mp taken
      unfold runLoop beginArchive
      split_ifs
      · exact h.loop_goes there rfl rfl rfl rfl (.inl rfl)
      · exact h.loop_goes there rfl rfl rfl rfl (.inl rfl)
      · exact h.loop_goes there rfl rfl rfl rfl (.inr rfl)
    case cancelled =>
      split_ifs at taken
      obtain rfl := Option.some_inj.mp taken
      exact h.loop_goes there rfl rfl rfl rfl (.inr rfl)
  | loopArchiving workers =>
    have still (wait : Wait) : (if s.running then loopWaiting wait false else ended :
        Coroutine ω).isLoop = true ∨ (if s.running then loopWaiting wait false else ended :
        Coroutine ω) = ended := by
      split_ifs
      · exact .inl rfl
      · exact .inr rfl
    cases e <;> simp only [State.resume, reduceCtorEq, Option.some_inj] at taken
    case cancelled =>
      subst taken
      exact h.loop_goes there rfl rfl rfl rfl (.inr rfl)
    case returned answers now =>
      subst taken
      exact h.loop_goes there rfl rfl rfl rfl (still .poll)
    case raised =>
      subst taken
      exact h.loop_goes there rfl rfl rfl rfl (still .retry)
  | triggerArchiving workers =>
    have ends (s' : State ω) (coroutines : s'.coroutines = s.coroutines)
        (task : s'.task = s.task) (running : s'.running = s.running) :
        (s'.replace i ended).Orderly :=
      (h.congr coroutines task running).replace (coroutines ▸ there) nofun fun _ => by simp
    cases e <;> simp only [State.resume, reduceCtorEq, Option.some_inj] at taken
    all_goals
      subst taken
      exact ends _ rfl rfl rfl
  | stopWaiting task =>
    cases e <;> simp only [State.resume, reduceCtorEq] at taken
    case resumed =>
      split_ifs at taken with finished
      obtain rfl := Option.some_inj.mp taken
      have named := (h.waits i task there).2
      refine of_idle (fun c mem => ?_) ?_ rfl
      · rcases List.mem_or_eq_of_mem_set mem with old | rfl
        · exact h.no_loop_of_ended named finished old
        · rfl
      · rintro ⟨j, task', at_⟩
        have after := (getElem?_replace there ended j).symm.trans at_
        split_ifs at after with same
        · cases after
        · exact same (h.once i j task task' there after)
  | ended => cases e <;> cases taken

theorem step (h : s.Orderly) {a : Action ω} (calm : ∀ now, a = .start now → ¬s.Stopping)
    (taken : s.step a = some s') : s'.Orderly := by
  cases a with
  | start now =>
    obtain rfl := Option.some_inj.mp taken
    exact h.start (calm now rfl) now
  | triggerNow =>
    obtain rfl := Option.some_inj.mp taken
    exact h.triggerNow
  | stop =>
    obtain rfl := Option.some_inj.mp taken
    exact h.stop
  | cancel i =>
    obtain rfl := Option.some_inj.mp taken
    exact h.cancel i
  | resume i e =>
    obtain ⟨c, there, taken⟩ := Option.bind_eq_some_iff.mp taken
    exact h.resume there taken

theorem initial (workers : ω) : (State.initial workers).Orderly :=
  of_idle nofun (fun ⟨_, _, there⟩ => nomatch there) rfl

end Orderly

/-- A loop that is resumed while `_running` is not set ends, and one can always be. -/
theorem loop_ends (stopped : s.running = false) (there : s.coroutines[i]? = some c)
    (loop : c.isLoop = true) :
    (∃ e s', s.resume i c e = some s') ∧
      ∀ e s', s.resume i c e = some s' → s'.hasEnded i = true := by
  have finished (s' : State ω) (same : s'.coroutines = s.coroutines) :
      (s'.replace i ended).hasEnded i = true := by
    rw [hasEnded_iff, getElem?_replace (same ▸ there), if_pos rfl]
  cases c with
  | loopWaiting wait cancelled =>
    have wakes : s.runLoop i = s.replace i ended := by simp [runLoop, stopped]
    refine ⟨?_, ?_⟩
    · cases cancelled with
      | true => exact ⟨.cancelled, _, rfl⟩
      | false => exact ⟨.resumed, _, rfl⟩
    · intro e s' taken
      cases e <;> simp only [State.resume, reduceCtorEq] at taken
      all_goals
        split_ifs at taken
        obtain rfl := Option.some_inj.mp taken
      · exact wakes ▸ finished s rfl
      · exact finished s rfl
  | loopArchiving workers =>
    refine ⟨⟨.cancelled, _, rfl⟩, ?_⟩
    intro e s' taken
    cases e <;>
      simp only [State.resume, stopped, Bool.false_eq_true, if_false, reduceCtorEq,
        Option.some_inj] at taken
    all_goals
      subst taken
      exact finished _ rfl
  | triggerArchiving => cases loop
  | stopWaiting => cases loop
  | ended => cases loop

end State

/-- As long as `start` is not called while a `stop` waits, `_task` names every loop, a
waiting `stop` waits for a loop that ends at its next turn, and none is left when no
`stop` waits any more. -/
theorem stop_leaves_no_loop (workers : ω) (as : List (Action ω))
    (calm : State.machine.Guarded (fun s a => ∀ now, a = .start now → ¬s.Stopping)
      (State.initial workers) as) :
    State.machine.Along (fun s =>
      (∀ (i : Nat) c, s.coroutines[i]? = some c → c.isLoop = true → s.task = some i) ∧
        (∀ (i task : Nat), s.coroutines[i]? = some (stopWaiting task) →
          s.task = some task ∧ ∀ c, s.coroutines[task]? = some c → c.isLoop = true →
            (∃ e s', s.resume task c e = some s') ∧
              ∀ e s', s.resume task c e = some s' → s'.hasEnded task = true) ∧
        (s.running = false → ¬s.Stopping →
          s.task = none ∧ ∀ c ∈ s.coroutines, c.isLoop = false))
      (State.initial workers) as := by
  have along : State.machine.Along State.Orderly (State.initial workers) as :=
    Machine.along_of_guarded (fun _ _ _ h admitted taken => h.step admitted taken)
      (State.Orderly.initial workers) calm
  refine along.mono fun s h => ⟨h.loops, fun i task there => ?_, fun stopped still => ?_⟩
  · obtain ⟨stopped, named⟩ := h.waits i task there
    exact ⟨named, fun c at_ loop => State.loop_ends stopped at_ loop⟩
  · have unset : s.task = none := by
      by_contra named
      exact still (h.waited stopped named)
    refine ⟨unset, fun c mem => ?_⟩
    obtain ⟨i, there⟩ := List.mem_iff_getElem?.mp mem
    exact h.no_loop unset there

/-- A loop that is stopped while it archives. -/
theorem stop_leaves_no_loop_archiving :
    ∃ s, State.machine.exec (State.initial ())
        [.start 0, .resume 0 .resumed, .stop, .resume 0 .cancelled, .resume 1 .resumed] = some s ∧
      s.task = none ∧ ∀ c ∈ s.coroutines, c.isLoop = false := by
  have calm : State.machine.Guarded (fun s a => ∀ now, a = .start now → ¬s.Stopping)
      (State.initial ())
      [.start 0, .resume 0 .resumed, .stop, .resume 0 .cancelled, .resume 1 .resumed] := by
    refine Machine.guarded_cons rfl (fun _ _ ⟨i, task, there⟩ => by cases there) ?_
    refine Machine.guarded_cons rfl (fun _ other => by cases other) ?_
    refine Machine.guarded_cons rfl (fun _ other => by cases other) ?_
    refine Machine.guarded_cons rfl (fun _ other => by cases other) ?_
    exact Machine.guarded_cons rfl (fun _ other => by cases other) trivial
  refine ⟨_, rfl, ((stop_leaves_no_loop () _ calm).exec rfl).2.2 rfl ?_⟩
  rintro ⟨i, task, there⟩
  have mem : stopWaiting task ∈ ([ended, ended] : List (Coroutine Unit)) :=
    List.mem_of_getElem? there
  simp at mem

end TrajProxy.Archiver.Scheduler
