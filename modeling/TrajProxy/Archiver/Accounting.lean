import TrajProxy.Archiver.Dispatch
import Mathlib.Algebra.Order.Group.Multiset

/-! Every session of a run is in one place: queued, with a Worker, done or
failed. Two submissions of the inner loop over the Workers break this: one that
fails at the limit of rebuilds while an earlier one of the same loop is out, and
one that takes up a session that has failed three times in that loop.
`Admitted` excludes these two. -/

namespace TrajProxy.Archiver.Dispatch
open Transition

attribute [local instance] lawfulSessionId

variable {s : State} {sessions : List (Option String)} {e : Entry}

namespace State

def pendingIds (s : State) : List (Option String) := s.pending.map Entry.sessionId

def activeIds (s : State) : List (Option String) := s.active.map fun t => t.entry.sessionId

/-- The sessions of a run, wherever they are. -/
def ids (s : State) : Multiset (Option String) :=
  s.pendingIds + s.activeIds + s.successfulSessionIds + s.failedIds

/-- The sessions given up behind the inner loop over the Workers. -/
def exceeded (s : State) : List (Option String) :=
  s.sessionFailCounts.keys.reverse.filter fun sid =>
    maxSessionRetries ≤ s.failCount sid ∧ sid ∉ s.failedIds

/-- Sessions that have failed too often are given up. -/
def Settled (s : State) : Prop :=
  ∀ sid, maxSessionRetries ≤ s.failCount sid → sid ∈ s.failedIds

end State

open State

section Operations

private theorem coe_concat (ids : List (Option String)) (sid : Option String) :
    (ids ++ [sid] : List (Option String)) = sid ::ₘ (ids : Multiset (Option String)) :=
  Multiset.coe_eq_coe.mpr (List.perm_append_singleton sid ids)

@[simp] theorem failCount_countFailure (s : State) (sid sid' : Option String) :
    (s.countFailure sid).failCount sid' =
      if sid' = sid then s.failCount sid + 1 else s.failCount sid' := by
  unfold failCount countFailure
  rw [OrderedDict.get_setItem]
  split_ifs <;> rfl

@[simp] theorem failCount_fail (s : State) (sid sid' : Option String) (idx : Int)
    (error : String) : (s.fail sid idx error).failCount sid' = s.failCount sid' := rfl

@[simp] theorem failedIds_fail (s : State) (sid : Option String) (idx : Int) (error : String) :
    (s.fail sid idx error).failedIds = s.failedIds ++ [sid] := by
  simp [failedIds, State.fail]

@[simp] theorem ids_countFailure (s : State) (sid : Option String) :
    (s.countFailure sid).ids = s.ids := rfl

@[simp] theorem ids_fail (s : State) (sid : Option String) (idx : Int) (error : String) :
    (s.fail sid idx error).ids = sid ::ₘ s.ids := by
  unfold ids
  rw [failedIds_fail, coe_concat, Multiset.add_cons]
  rfl

theorem pendingIds_enqueue (s : State) (e : Entry) :
    (s.enqueue e).pendingIds = s.pendingIds ++ [e.sessionId] := by
  simp [pendingIds, enqueue]

@[simp] theorem ids_enqueue (s : State) (e : Entry) :
    (s.enqueue e).ids = e.sessionId ::ₘ s.ids := by
  unfold ids
  rw [pendingIds_enqueue, coe_concat]
  simp only [Multiset.cons_add]
  rfl

theorem activeIds_submit (s : State) (worker : Worker) (e : Entry) :
    (s.submit worker e).activeIds = s.activeIds ++ [e.sessionId] := by
  simp [activeIds, submit]

theorem ids_submit (s : State) (worker : Worker) (e : Entry) :
    (s.submit worker e).ids = e.sessionId ::ₘ s.ids := by
  unfold ids
  rw [activeIds_submit, coe_concat]
  simp only [Multiset.cons_add, Multiset.add_cons]
  rfl

theorem pendingIds_take {pending : List Entry} (queue : s.pending = e :: pending) :
    s.pendingIds = e.sessionId :: { s with pending := pending }.pendingIds := by
  rw [pendingIds, queue, List.map_cons]
  rfl

theorem ids_take {pending : List Entry} (queue : s.pending = e :: pending) :
    s.ids = e.sessionId ::ₘ { s with pending := pending }.ids := by
  unfold ids
  rw [pendingIds_take queue, ← Multiset.cons_coe]
  simp only [Multiset.cons_add]
  rfl

theorem activeIds_pop {t : Task} {active : List Task} (perm : s.active.Perm (t :: active)) :
    s.activeIds.Perm (t.entry.sessionId :: { s with active := active }.activeIds) :=
  perm.map _

theorem ids_pop {t : Task} {active : List Task} (perm : s.active.Perm (t :: active)) :
    s.ids = t.entry.sessionId ::ₘ { s with active := active }.ids := by
  unfold ids
  rw [Multiset.coe_eq_coe.mpr (activeIds_pop perm), ← Multiset.cons_coe]
  simp only [Multiset.cons_add, Multiset.add_cons]
  rfl

theorem ids_retry (s : State) (e : Entry) : (s.retry e).ids = e.sessionId ::ₘ s.ids := by
  unfold retry
  split_ifs
  · exact ids_enqueue s e
  · exact ids_fail s _ _ _

theorem Settled.fail (h : s.Settled) (sid : Option String) (idx : Int) (error : String) :
    (s.fail sid idx error).Settled := by
  intro sid' spent
  rw [failedIds_fail]
  exact List.mem_append_left _ (h sid' spent)

/-- A failure is counted, and its session given up at the third. -/
theorem Settled.countFailure_retry (h : s.Settled) (e : Entry) :
    ((s.countFailure e.sessionId).retry e).Settled := by
  intro sid spent
  have counted : maxSessionRetries ≤ (s.countFailure e.sessionId).failCount sid := by
    unfold retry at spent
    split_ifs at spent <;> exact spent
  unfold retry
  split_ifs with left
  · rw [failCount_countFailure] at counted
    split_ifs at counted with same
    · rw [failCount_countFailure, if_pos rfl] at left
      omega
    · exact h sid counted
  · rw [failedIds_fail, List.mem_append, List.mem_singleton]
    rw [failCount_countFailure] at counted
    split_ifs at counted with same
    · exact .inr same
    · exact .inl (h sid counted)

theorem Settled.countFailure_fail (h : s.Settled) (sid : Option String) (idx : Int)
    (error : String) : ((s.countFailure sid).fail sid idx error).Settled := by
  intro sid' spent
  rw [failCount_fail, failCount_countFailure] at spent
  rw [failedIds_fail, List.mem_append, List.mem_singleton]
  split_ifs at spent with same
  · exact .inr same
  · exact .inl (h sid' spent)

/-- Sessions are settled one after the other. -/
theorem settle_all {settle : State → Entry → State}
    (ids : ∀ s e, (settle s e).ids = e.sessionId ::ₘ s.ids)
    (settled : ∀ s e, Settled s → (settle s e).Settled) (entries : List Entry) (s : State) :
    (entries.foldl settle s).ids = (entries.map Entry.sessionId : List (Option String)) + s.ids ∧
      (s.Settled → (entries.foldl settle s).Settled) := by
  induction entries generalizing s with
  | nil => exact ⟨(Multiset.zero_add _).symm, id⟩
  | cons e entries ih =>
    obtain ⟨rest, kept⟩ := ih (settle s e)
    refine ⟨?_, fun h => kept (settled s e h)⟩
    rw [List.foldl_cons, rest, ids, List.map_cons, ← Multiset.cons_coe, Multiset.cons_add,
      Multiset.add_cons]

theorem ids_clear (s : State) :
    s.ids = (s.pendingIds : Multiset (Option String)) + { s with pending := [] }.ids := by
  unfold ids
  rw [← Multiset.add_assoc, ← Multiset.add_assoc, ← Multiset.add_assoc]
  exact congrArg (· + _ + _ + _) (Multiset.add_zero _).symm

theorem pending_foldl_fail (error : State → String) (entries : List Entry) (s : State) :
    (entries.foldl (fun s e => (s.countFailure e.sessionId).fail e.sessionId e.idx (error s))
      s).pending = s.pending := by
  induction entries generalizing s with
  | nil => rfl
  | cons e entries ih => exact ih _

theorem foldl_fail (sids : List (Option String)) (idx : Int) (error : String) (s : State) :
    sids.foldl (fun s sid => s.fail sid idx error) s =
      { s with failedSessions := s.failedSessions ++ sids.map fun sid => ⟨sid, idx, error⟩ } := by
  induction sids generalizing s with
  | nil => rw [List.map_nil, List.append_nil]; rfl
  | cons sid sids ih =>
    rw [List.foldl_cons, ih, List.map_cons]
    simp [State.fail]

theorem failedIds_giveUp (s : State) (pending : List Entry) (sids : List (Option String))
    (error : String) :
    failedIds { s with
      pending := pending
      failedSessions := s.failedSessions ++ sids.map fun sid => ⟨sid, -1, error⟩ } =
      s.failedIds ++ sids := by
  simp [failedIds, Function.comp_def]

/-- Sessions of the queue are given up. -/
theorem ids_giveUp {pending : List Entry} {sids : List (Option String)} (error : String)
    (parted : s.pendingIds.Perm (pending.map Entry.sessionId ++ sids)) :
    ids { s with
      pending := pending
      failedSessions := s.failedSessions ++ sids.map fun sid => ⟨sid, -1, error⟩ } = s.ids := by
  have move (p a d f x : Multiset (Option String)) : p + a + d + (f + x) = p + x + a + d + f := by
    ac_rfl
  unfold ids
  rw [failedIds_giveUp, ← Multiset.coe_add, Multiset.coe_eq_coe.mpr parted, ← Multiset.coe_add]
  exact move _ _ _ _ _

theorem endFill_of_lt (room : s.consecutiveRebuilds < s.maxConsecutiveRebuilds) :
    s.endFill = loopHead { s with
      pending := s.pending.filter fun e => s.failCount e.sessionId < maxSessionRetries
      failedSessions := s.failedSessions ++ s.exceeded.map fun sid => ⟨sid, -1, retryLimit⟩ } := by
  unfold endFill
  rw [if_neg (Nat.not_le.mpr room)]
  exact congrArg loopHead (foldl_fail _ _ _ _)

theorem endFill_of_le (limit : s.maxConsecutiveRebuilds ≤ s.consecutiveRebuilds) :
    s.endFill = { s with control := .left } :=
  if_pos limit

/-- No session is queued twice, or queued and failed. -/
theorem nodup_pending_failed (apart : s.ids.Nodup) : (s.pendingIds ++ s.failedIds).Nodup := by
  unfold ids at apart
  rw [Multiset.coe_add, Multiset.coe_add, Multiset.coe_add, Multiset.coe_nodup] at apart
  refine apart.sublist (List.Sublist.append_right ?_ _)
  rw [List.append_assoc]
  exact List.sublist_append_left _ _

theorem mem_keys_of_failed {sid : Option String} (spent : maxSessionRetries ≤ s.failCount sid) :
    sid ∈ s.sessionFailCounts.keys := by
  by_contra absent
  rw [failCount, OrderedDict.get_eq_none.mpr (fun mem => absent (AList.mem_keys.mp mem))] at spent
  cases spent

end Operations

/-- All sessions are in one place, and those that failed too often are given up. -/
structure Balanced (sessions : List (Option String)) (s : State) : Prop where
  ids : s.ids = sessions
  settled : s.Settled

/-- In the inner loop over the Workers a session that has failed three times may
still be queued. -/
structure Filling (sessions : List (Option String)) (s : State) : Prop where
  ids : s.ids = sessions
  exhausted : ∀ sid, maxSessionRetries ≤ s.failCount sid → sid ∈ s.failedIds ∨ sid ∈ s.pendingIds
  rebuilds : s.consecutiveRebuilds < s.maxConsecutiveRebuilds

/-- Past the loop no task is out, and what is queued will be given up. -/
structure Drained (sessions : List (Option String)) (s : State) : Prop where
  ids : s.ids = sessions
  active : s.active = []
  queued : s.pending = [] ∨ s.availableWorkers = [] ∨
    s.maxConsecutiveRebuilds ≤ s.consecutiveRebuilds

def Accounted (sessions : List (Option String)) (s : State) : Prop :=
  match s.control with
  | .initialFill _ | .wait | .refill _ => Balanced sessions s
  | .fill _ => Filling sessions s
  | .left => Drained sessions s
  | .indexError => True

/-- The two submissions that lose count of a session. -/
def Admitted (s : State) : Answer → Prop
  | .submitted true => ∀ workers, s.control = .fill workers →
      ∀ e ∈ s.pending.head?, s.failCount e.sessionId < maxSessionRetries
  | .submitted false => ∀ workers, s.control = .fill workers →
      s.maxConsecutiveRebuilds ≤ s.consecutiveRebuilds + 1 → s.active = []
  | _ => True

/-- Rebuilding a Worker moves no session. -/
theorem accounted_rebuild (worker : Worker) {next : State → State}
    (rest : ∀ workers actors, Accounted sessions
      (next { s with availableWorkers := workers, actors := actors })) :
    Accounted sessions (s.rebuild worker next) := by
  unfold State.rebuild
  split
  · exact rest _ _
  · trivial

namespace Balanced

theorem loopHead (h : Balanced sessions s) : Accounted sessions s.loopHead := by
  unfold State.loopHead
  split_ifs with goes fills idle
  · change Filling sessions _
    refine ⟨h.ids, fun sid spent => .inl (h.settled sid spent), ?_⟩
    rcases goes with busy | ⟨-, -, rebuilds⟩
    · exact absurd fills.1 busy
    · exact rebuilds
  · change Drained sessions _
    refine ⟨h.ids, idle, ?_⟩
    rcases goes with busy | ⟨queued, there, -⟩
    · exact absurd idle busy
    · exact absurd ⟨idle, queued, there⟩ fills
  · change Balanced sessions _
    exact ⟨h.ids, h.settled⟩
  · rw [not_or, not_not] at goes
    change Drained sessions _
    refine ⟨h.ids, goes.1, ?_⟩
    by_contra more
    rw [not_or, not_or, Nat.not_le] at more
    exact goes.2 more

theorem nextInitial (h : Balanced sessions s) (workers : List Worker) :
    Accounted sessions (s.nextInitial workers) := by
  unfold State.nextInitial
  split_ifs
  · change Balanced sessions _
    exact ⟨h.ids, h.settled⟩
  · exact h.loopHead

theorem cancelWorker (h : Balanced sessions s) (worker : Worker)
    {settle : State → Entry → State}
    (ids : ∀ s e, (settle s e).ids = e.sessionId ::ₘ s.ids)
    (settled : ∀ s e, Settled s → (settle s e).Settled) :
    Balanced sessions (s.cancelWorker worker settle) := by
  have split : s.active.Perm (s.active.filter (·.worker = worker) ++
      s.active.filter (·.worker ≠ worker)) := by
    simpa using (List.filter_append_perm (fun t => decide (t.worker = worker)) s.active).symm
  have parted : (s.activeIds : Multiset (Option String)) =
      ((s.active.filter (·.worker = worker)).map fun t => t.entry.sessionId :
        List (Option String)) +
      ((s.active.filter (·.worker ≠ worker)).map fun t => t.entry.sessionId :
        List (Option String)) := by
    rw [Multiset.coe_add, ← List.map_append]
    exact Multiset.coe_eq_coe.mpr (split.map _)
  obtain ⟨all, kept⟩ := settle_all ids settled
    ((s.active.filter (·.worker = worker)).map Task.entry)
    { s with active := s.active.filter (·.worker ≠ worker) }
  rw [List.foldl_map] at all kept
  refine ⟨?_, kept h.settled⟩
  rw [State.cancelWorker, all, ← h.ids, List.map_map]
  unfold State.ids
  rw [parted, ← Multiset.add_assoc, ← Multiset.add_assoc, ← Multiset.add_assoc,
    ← Multiset.add_assoc, Multiset.add_comm (s.pendingIds : Multiset (Option String))]
  rfl

/-- A session that failed is counted and queued again, or given up. -/
theorem countFailure_retry {e : Entry} (ids : e.sessionId ::ₘ s.ids = sessions)
    (settled : Settled s) : Balanced sessions ((s.countFailure e.sessionId).retry e) :=
  ⟨by rw [ids_retry, ids_countFailure, ids], Settled.countFailure_retry settled e⟩

theorem fail {e : Entry} {error : String} (ids : e.sessionId ::ₘ s.ids = sessions)
    (settled : Settled s) : Balanced sessions (s.fail e.sessionId e.idx error) :=
  ⟨by rw [ids_fail, ids], Settled.fail settled _ _ _⟩

/-- The whole queue is given up. -/
theorem failQueue (h : Balanced sessions s) (error : State → String) :
    Balanced sessions { s.pending.foldl (fun s e =>
      (s.countFailure e.sessionId).fail e.sessionId e.idx (error s)) s with pending := [] } := by
  obtain ⟨all, kept⟩ := settle_all (fun s e => by rw [ids_fail, ids_countFailure])
    (fun s e h => Settled.countFailure_fail h e.sessionId e.idx (error s)) s.pending s
  refine ⟨?_, kept h.settled⟩
  rw [ids_clear, pendingIds, pending_foldl_fail] at all
  exact (add_left_cancel all).trans h.ids

end Balanced

namespace Filling

/-- The sessions that failed three times are those in the queue. -/
theorem exceeded_perm (h : Filling sessions s) (distinct : sessions.Nodup) :
    s.exceeded.Perm
      ((s.pending.filter fun e => maxSessionRetries ≤ s.failCount e.sessionId).map
        Entry.sessionId) := by
  have apart : s.ids.Nodup := h.ids ▸ Multiset.coe_nodup.mpr distinct
  obtain ⟨queued, -, notFailed⟩ := List.nodup_append'.mp (nodup_pending_failed apart)
  have once : (s.sessionFailCounts.keys.reverse).Nodup :=
    List.nodup_reverse.mpr s.sessionFailCounts.keys_nodup
  refine (List.perm_ext_iff_of_nodup (once.filter _) ?_).mpr fun sid => ?_
  · exact queued.sublist (List.filter_sublist.map _)
  · rw [List.mem_filter, List.mem_reverse, List.mem_map, decide_eq_true_eq]
    constructor
    · rintro ⟨-, spent, fresh⟩
      obtain failed | mem := h.exhausted sid spent
      · exact absurd failed fresh
      · obtain ⟨e, there, rfl⟩ := List.mem_map.mp mem
        exact ⟨e, List.mem_filter.mpr ⟨there, by simpa using spent⟩, rfl⟩
    · rintro ⟨e, there, rfl⟩
      obtain ⟨mem, spent⟩ := List.mem_filter.mp there
      have spent : maxSessionRetries ≤ s.failCount e.sessionId := by simpa using spent
      exact ⟨mem_keys_of_failed spent, spent,
        fun failed => notFailed (List.mem_map_of_mem mem) failed⟩

/-- Behind the inner loop the sessions that failed three times move from the
queue to the failed ones. -/
theorem endFill (h : Filling sessions s) (distinct : sessions.Nodup) :
    Accounted sessions s.endFill := by
  rw [endFill_of_lt h.rebuilds]
  refine Balanced.loopHead ⟨?_, fun sid spent => ?_⟩
  · refine (ids_giveUp retryLimit
      (.trans ?_ (.append_left _ (h.exceeded_perm distinct).symm))).trans h.ids
    rw [← List.map_append]
    refine .map _ ?_
    simpa only [← decide_not, Nat.not_lt] using (List.filter_append_perm
      (fun e => decide (s.failCount e.sessionId < maxSessionRetries)) s.pending).symm
  · rw [failedIds_giveUp, List.mem_append]
    change maxSessionRetries ≤ s.failCount sid at spent
    obtain failed | mem := h.exhausted sid spent
    · exact .inl failed
    · obtain ⟨e, there, rfl⟩ := List.mem_map.mp mem
      refine .inr ((h.exceeded_perm distinct).mem_iff.mpr (List.mem_map_of_mem ?_))
      exact List.mem_filter.mpr ⟨there, decide_eq_true spent⟩

theorem nextFill (h : Filling sessions s) (distinct : sessions.Nodup) (workers : List Worker) :
    Accounted sessions (s.nextFill workers) := by
  unfold State.nextFill
  split_ifs
  · change Filling sessions _
    exact ⟨h.ids, h.exhausted, h.rebuilds⟩
  · exact h.endFill distinct

end Filling

/-! What follows an answer, with the session it is about taken out of its place. -/

theorem initialFailed_accounted (placed : e.sessionId ::ₘ s.ids = sessions) (settled : s.Settled)
    (worker : Worker) (workers : List Worker) :
    Accounted sessions (s.initialFailed worker e workers) := by
  have queued : (s.enqueue e).ids = sessions := (ids_enqueue s e).trans placed
  unfold State.initialFailed
  dsimp only
  split_ifs with limit
  · refine Balanced.loopHead (Balanced.failQueue ?_ fun s =>
      rebuildLimit s.maxConsecutiveRebuilds ++ "，session 未处理")
    exact ⟨queued, settled⟩
  · refine accounted_rebuild worker fun workers' actors => Balanced.nextInitial ?_ workers
    exact ⟨queued, settled⟩

theorem fillFailed_accounted (placed : e.sessionId ::ₘ s.ids = sessions)
    (exhausted : ∀ sid, maxSessionRetries ≤ s.failCount sid →
      sid ∈ s.failedIds ∨ sid ∈ e.sessionId :: s.pendingIds)
    (idle : s.maxConsecutiveRebuilds ≤ s.consecutiveRebuilds + 1 → s.active = [])
    (distinct : sessions.Nodup) (worker : Worker) (workers : List Worker) :
    Accounted sessions (s.fillFailed worker e workers) := by
  have queued : (s.enqueue e).ids = sessions := (ids_enqueue s e).trans placed
  unfold State.fillFailed
  dsimp only
  split_ifs with limit
  · rw [endFill_of_le limit]
    change Drained sessions _
    exact ⟨queued, idle limit, .inr (.inr limit)⟩
  · refine accounted_rebuild worker fun workers' actors => Filling.nextFill ?_ distinct workers
    refine ⟨queued, fun sid spent => ?_, Nat.not_le.mp limit⟩
    change maxSessionRetries ≤ (s.countFailure e.sessionId).failCount sid at spent
    change sid ∈ s.failedIds ∨ sid ∈ (s.enqueue e).pendingIds
    rw [failCount_countFailure] at spent
    rw [pendingIds_enqueue, List.mem_append, List.mem_singleton]
    split_ifs at spent with same
    · exact .inr (.inr same)
    · obtain failed | mem := exhausted sid spent
      · exact .inl failed
      · exact .inr (.inl (List.mem_of_ne_of_mem same mem))

theorem refillFailed_accounted (placed : e.sessionId ::ₘ s.ids = sessions) (settled : s.Settled)
    (worker : Worker) : Accounted sessions (s.refillFailed worker e) := by
  unfold State.refillFailed
  dsimp only
  split_ifs with limit
  · exact Balanced.loopHead (Balanced.fail placed settled)
  · exact accounted_rebuild worker fun workers' actors =>
      Balanced.loopHead (Balanced.countFailure_retry placed settled)

theorem workerLost_accounted {t : Task} (placed : t.entry.sessionId ::ₘ s.ids = sessions)
    (settled : s.Settled) : Accounted sessions (s.workerLost t) := by
  unfold State.workerLost
  dsimp only
  split_ifs with limit
  · refine Balanced.loopHead (Balanced.cancelWorker ⟨?_, ?_⟩ _ (fun s e => ids_fail s _ _ _)
      fun s e h => Settled.fail h _ _ _)
    · rw [ids_fail, ids_countFailure]
      exact placed
    · exact Settled.countFailure_fail settled _ _ _
  · refine accounted_rebuild t.worker fun workers actors => Balanced.loopHead ?_
    refine Balanced.cancelWorker ?_ _ ?_ ?_
    · exact Balanced.countFailure_retry (s := { s with
        consecutiveRebuilds := s.consecutiveRebuilds + 1
        availableWorkers := workers
        actors := actors }) placed settled
    · intro s e
      rw [ids_retry, ids_countFailure]
    · exact fun s e h => Settled.countFailure_retry h e

theorem succeeded_accounted {t : Task} (placed : t.entry.sessionId ::ₘ s.ids = sessions)
    (settled : s.Settled) (result : Result) : Accounted sessions (s.succeeded t result) := by
  have done : Balanced sessions { s with
      rawResults := s.rawResults ++ [result]
      successfulSessionIds := s.successfulSessionIds ++ [t.entry.sessionId]
      consecutiveRebuilds := 0 } := by
    refine ⟨?_, settled⟩
    rw [← placed]
    unfold State.ids
    rw [coe_concat, Multiset.add_cons, Multiset.cons_add]
    rfl
  unfold State.succeeded
  dsimp only
  split_ifs
  · exact done.loopHead
  · change Balanced sessions _
    exact ⟨done.ids, done.settled⟩

theorem finished_accounted {t : Task} (placed : t.entry.sessionId ::ₘ s.ids = sessions)
    (settled : s.Settled) (outcome : Outcome) : Accounted sessions (s.finished t outcome) := by
  cases outcome with
  | ok result => exact succeeded_accounted placed settled result
  | workerLost => exact workerLost_accounted placed settled
  | error message => exact Balanced.loopHead (Balanced.fail placed settled)

theorem step_accounted {s' : State} {a : Answer} (distinct : sessions.Nodup)
    (h : Accounted sessions s) (admitted : Admitted s a) (taken : machine.step s a = some s') :
    Accounted sessions s' := by
  cases step_cases taken with
  | initial ok worker workers e pending there queue =>
    rw [Accounted, there] at h
    have placed := (ids_take queue).symm.trans h.ids
    cases ok with
    | false => exact initialFailed_accounted placed h.settled worker workers
    | true =>
      exact Balanced.nextInitial ⟨(ids_submit _ worker e).trans placed, h.settled⟩ workers
  | fill ok worker workers e pending there queue =>
    rw [Accounted, there] at h
    have placed := (ids_take queue).symm.trans h.ids
    have exhausted := h.exhausted
    rw [pendingIds_take queue] at exhausted
    cases ok with
    | false =>
      exact fillFailed_accounted placed exhausted (admitted _ there) distinct worker workers
    | true =>
      refine Filling.nextFill ⟨(ids_submit _ worker e).trans placed, fun sid spent => ?_,
        h.rebuilds⟩ distinct workers
      have fresh := admitted _ there e (by rw [queue]; rfl)
      obtain failed | mem := exhausted sid spent
      · exact .inl failed
      · refine .inr (List.mem_of_ne_of_mem ?_ mem)
        rintro rfl
        exact Nat.not_lt.mpr spent fresh
  | refill ok worker e pending there queue =>
    rw [Accounted, there] at h
    have placed := (ids_take queue).symm.trans h.ids
    cases ok with
    | false => exact refillFailed_accounted placed h.settled worker
    | true => exact Balanced.loopHead ⟨(ids_submit _ worker e).trans placed, h.settled⟩
  | timeout waiting =>
    rw [Accounted, waiting] at h
    exact h.loopHead
  | finished t outcome active waiting perm =>
    rw [Accounted, waiting] at h
    exact finished_accounted ((ids_pop perm).symm.trans h.ids) h.settled outcome

/-- The queue of `start`. -/
theorem sessionIds_enumerate (sessions : List (Option String)) :
    (sessions.zipIdx.map fun e => (⟨e.2, e.1⟩ : Entry)).map Entry.sessionId = sessions := by
  rw [List.map_map]
  exact List.zipIdx_map_fst 0 sessions

theorem start_accounted (sessions : List (Option String)) (workers : List Worker) :
    Accounted sessions (start sessions workers) := by
  refine Balanced.nextInitial ⟨?_, fun sid spent => ?_⟩ workers
  · unfold State.ids
    rw [pendingIds, sessionIds_enumerate]
    simp [activeIds, failedIds]
  · exact absurd (mem_keys_of_failed spent) (List.not_mem_nil)

/-- Sessions that are not yet failed are given up one after the other. -/
theorem foldl_giveUp (error : String) (entries : List Entry) (s : State)
    (fresh : (entries.map Entry.sessionId ++ s.failedIds).Nodup) :
    entries.foldl (fun s e =>
        if e.sessionId ∈ s.failedIds then s else s.fail e.sessionId (-1) error) s =
      (entries.map Entry.sessionId).foldl (fun s sid => s.fail sid (-1) error) s := by
  induction entries generalizing s with
  | nil => rfl
  | cons e entries ih =>
    rw [List.map_cons, List.cons_append, List.nodup_cons, List.mem_append, not_or] at fresh
    rw [List.foldl_cons, List.map_cons, List.foldl_cons, if_neg fresh.1.2]
    refine ih _ ?_
    rw [failedIds_fail, ← List.append_assoc, List.nodup_append_comm, List.singleton_append,
      List.nodup_cons, List.mem_append, not_or]
    exact fresh

theorem giveUp_eq (apart : s.ids.Nodup) (error : String) :
    s.giveUp error = { s with
      pending := []
      failedSessions := s.failedSessions ++ s.pendingIds.map fun sid => ⟨sid, -1, error⟩ } := by
  rw [giveUp, foldl_giveUp error s.pending s (nodup_pending_failed apart), foldl_fail]
  rfl

theorem perm_of_ids (ids : s.ids = sessions) (pending : s.pending = []) (active : s.active = []) :
    (s.successfulSessionIds ++ s.failedIds).Perm sessions := by
  refine Multiset.coe_eq_coe.mp (.trans ?_ ids)
  unfold State.ids pendingIds activeIds
  rw [pending, active, ← Multiset.coe_add]
  simp

/-- What is queued behind the loop is given up, and nothing is given up twice. -/
theorem Drained.cleanUp (h : Drained sessions s) (distinct : sessions.Nodup) :
    (s.cleanUp.successfulSessionIds ++ s.cleanUp.failedIds).Perm sessions := by
  have apart : s.ids.Nodup := h.ids ▸ Multiset.coe_nodup.mpr distinct
  have given (error : String) :
      ((s.giveUp error).successfulSessionIds ++ (s.giveUp error).failedIds).Perm sessions := by
    rw [giveUp_eq apart]
    exact perm_of_ids ((ids_giveUp error (List.Perm.refl _)).trans h.ids) rfl h.active
  unfold State.cleanUp
  dsimp only
  split_ifs with limit queued gone
  · exact absurd rfl queued.1
  · exact given _
  · exact given _
  · refine perm_of_ids h.ids ?_ h.active
    by_contra queued
    rcases h.queued with none | none | reached
    · exact queued none
    · exact gone ⟨queued, none⟩
    · exact limit ⟨reached, queued⟩

/-- What the statistics of a run and its clean-up rest on. -/
def AccountedFor (sessions : List (Option String)) (s : State) : Prop :=
  s.control = .left →
    (s.cleanUp.successfulSessionIds ++ s.cleanUp.failedIds).Perm sessions ∧
      ∀ archived, s.cleanUp.archived = some archived → ∀ sid ∈ archived.cleaned,
        sid ∈ s.cleanUp.successfulSessionIds ∧ sid ∉ s.cleanUp.failedIds

theorem Accounted.accountedFor (h : Accounted sessions s) (distinct : sessions.Nodup) :
    AccountedFor sessions s := by
  intro left
  rw [Accounted, left] at h
  have all := h.cleanUp distinct
  refine ⟨all, fun archived returned sid mem => ?_⟩
  rw [State.archived] at returned
  split_ifs at returned
  obtain rfl := Option.some.inj returned
  obtain ⟨-, -, apart⟩ := List.nodup_append'.mp (all.nodup_iff.mpr distinct)
  exact ⟨mem, fun failed => apart mem failed⟩

/-- Without the two submissions each session ends in exactly one of the lists,
once, and only archived sessions are cleaned up. -/
theorem run_accounted (sessions : List (Option String)) (workers : List Worker)
    (answers : List Answer) (distinct : sessions.Nodup)
    (admitted : machine.Guarded Admitted (start sessions workers) answers) :
    machine.Along (AccountedFor sessions) (start sessions workers) answers := by
  have run := Machine.along_of_guarded (fun s a s' h ok taken =>
    step_accounted distinct h ok taken) (start_accounted sessions workers) admitted
  exact run.mono fun s h => h.accountedFor distinct

/-- One Worker takes two sessions; the second fails at its first submission. -/
theorem run_accounted_refilled :
    machine.Along (AccountedFor [some "a", none]) (start [some "a", none] [0])
      [.submitted true, .finished 0 (.ok ⟨4, some "a.jsonl"⟩), .submitted false,
        .submitted true, .timeout, .finished 1 (.error "upload")] := by
  refine run_accounted _ _ _ (by decide) ?_
  refine Machine.guarded_cons rfl ?_ (Machine.guarded_cons rfl trivial (Machine.guarded_cons rfl ?_
    (Machine.guarded_cons rfl ?_ (Machine.guarded_cons rfl trivial
      (Machine.guarded_cons rfl trivial trivial)))))
  · intro workers there
    cases there
  · intro workers there
    cases there
  · intro workers there e head
    obtain rfl := Option.some.inj head
    decide

/-- The limit is reached while "g" is with a Worker; it is in neither list. -/
example : (machine.exec (start ["a", "b", "c", "d", "e", "f", "g", "h"] [0, 1])
    [.submitted true, .submitted true, .finished 0 .workerLost, .finished 1 (.error "db"),
      .submitted false, .submitted false, .submitted false, .submitted false, .submitted true,
      .submitted false]).map
      (fun s => (s.control, s.cleanUp.successfulSessionIds ++ s.cleanUp.failedIds)) =
    some (Control.left, ["b", "a", "c", "d", "e", "f", "h"].map some) := by
  rfl

/-- A session that failed three times in one inner loop is given up and archived. -/
theorem archived_and_failed :
    ¬∀ (sessions : List (Option String)) (workers : List Worker) (answers : List Answer),
      sessions.Nodup → workers ≠ [] →
        machine.Along (AccountedFor sessions) (start sessions workers) answers := by
  intro all
  obtain ⟨s, ran, left, lists⟩ : ∃ s, machine.exec (start [some "a"] [0, 1, 2, 3])
      (List.replicate 7 (.submitted false) ++
        [.submitted true, .finished 0 (.ok ⟨4, some "a.jsonl"⟩)]) = some s ∧
      s.control = .left ∧
      s.cleanUp.successfulSessionIds ++ s.cleanUp.failedIds = [some "a", some "a"] :=
    ⟨_, rfl, rfl, rfl⟩
  obtain ⟨perm, -⟩ := (all _ _ _ (by decide) (by decide)).exec ran left
  rw [lists] at perm
  exact absurd perm.length_eq (by decide)

end TrajProxy.Archiver.Dispatch
