import TrajProxy.Archiver.Accounting
import Mathlib.Algebra.BigOperators.Group.List.Basic
import Mathlib.Algebra.Order.BigOperators.Group.List
import Mathlib.Algebra.Order.Ring.Nat

/-! The dispatch loop ends within its retry budget. A Worker has at most one
task, and a session is started at most three times: it is queued again only
while fewer than three of its failures are counted, and every start but the last
is one of them. Each answer but a timeout of `ray.wait` brings the end nearer. -/

namespace TrajProxy.Archiver.Dispatch
open Transition State

variable {s s' : State} {e : Entry} {worker : Worker} {free : List Worker}

namespace State

/-- The Workers with a task. -/
def busy (s : State) : List Worker := s.active.map Task.worker

/-- How often a session was handed to a Worker. -/
def starts (s : State) (sid : Option String) : Nat := s.started.count sid

end State

/-- `ray.wait` did not time out. -/
def Answer.answered : Answer → Bool
  | .timeout => false
  | _ => true

/-- The Workers that are about to get a session. -/
def Control.freeWorkers : Control → List Worker
  | .initialFill workers | .fill workers => workers
  | .refill worker => [worker]
  | _ => []

/-- A Worker has one task, or none and is in `free`. -/
structure Staffed (free : List Worker) (s : State) : Prop where
  handles : s.availableWorkers.Nodup
  fresh : ∀ w ∈ s.availableWorkers, w < s.actors
  apart : (free ++ s.busy).Nodup
  listed : free ++ s.busy ⊆ s.availableWorkers

/-- No session is queued or started twice at a time, and its failures account
for its starts. -/
structure Budgeted (s : State) : Prop where
  apart : (s.pendingIds ++ s.activeIds).Nodup
  pending : ∀ sid ∈ s.pendingIds, s.starts sid ≤ s.failCount sid ∧ s.starts sid < maxSessionRetries
  active : ∀ sid ∈ s.activeIds, s.starts sid ≤ s.failCount sid + 1
  starts : ∀ sid, s.starts sid ≤ maxSessionRetries

/-- Failures are counted and recorded; no session and no Worker moves. -/
structure Fails (s s' : State) : Prop where
  workers : s'.availableWorkers = s.availableWorkers
  actors : s'.actors = s.actors
  pending : s'.pending = s.pending
  active : s'.active = s.active
  started : s'.started = s.started
  counts : ∀ sid, s.failCount sid ≤ s'.failCount sid

namespace Fails

theorem pendingIds (h : Fails s s') : s'.pendingIds = s.pendingIds :=
  congrArg (List.map Entry.sessionId) h.pending

theorem activeIds (h : Fails s s') : s'.activeIds = s.activeIds :=
  congrArg (List.map fun t : Task => t.entry.sessionId) h.active

theorem refl (s : State) : Fails s s := ⟨rfl, rfl, rfl, rfl, rfl, fun _ => le_refl _⟩

theorem trans {s'' : State} (h : Fails s s') (h' : Fails s' s'') : Fails s s'' :=
  ⟨h'.workers.trans h.workers, h'.actors.trans h.actors, h'.pending.trans h.pending,
    h'.active.trans h.active, h'.started.trans h.started,
    fun sid => (h.counts sid).trans (h'.counts sid)⟩

theorem countFailure (s : State) (sid : Option String) : Fails s (s.countFailure sid) := by
  refine ⟨rfl, rfl, rfl, rfl, rfl, fun sid' => ?_⟩
  rw [failCount_countFailure]
  split_ifs with same
  · rw [same]
    exact Nat.le_succ _
  · exact le_refl _

theorem fail (s : State) (sid : Option String) (idx : Int) (error : String) :
    Fails s (s.fail sid idx error) :=
  ⟨rfl, rfl, rfl, rfl, rfl, fun _ => le_refl _⟩

theorem rebuilds (s : State) (n : Nat) : Fails s { s with consecutiveRebuilds := n } :=
  ⟨rfl, rfl, rfl, rfl, rfl, fun _ => le_refl _⟩

theorem foldl {α : Type} {op : State → α → State} (step : ∀ s a, Fails s (op s a)) (items : List α)
    (s : State) : Fails s (items.foldl op s) := by
  induction items generalizing s with
  | nil => exact refl s
  | cons a items ih => exact (step s a).trans (ih _)

end Fails

namespace Staffed

theorem submit (h : Staffed (worker :: free) s) (e : Entry) : Staffed free (s.submit worker e) := by
  have busy : free ++ (s.submit worker e).busy = free ++ s.busy ++ [worker] := by
    simp [State.busy, State.submit]
  have moved : (free ++ s.busy ++ [worker]).Perm (worker :: (free ++ s.busy)) :=
    List.perm_append_singleton _ _
  refine ⟨h.handles, h.fresh, ?_, ?_⟩
  · rw [busy]
    exact moved.nodup_iff.mpr h.apart
  · rw [busy]
    exact fun w mem => h.listed (moved.mem_iff.mp mem)

/-- The Worker of a popped task is free. -/
theorem pop {t : Task} {active : List Task} (h : Staffed [] s)
    (perm : s.active.Perm (t :: active)) :
    Staffed [t.worker] { s with active := active } := by
  have busy : s.busy.Perm (t.worker :: active.map Task.worker) := perm.map _
  exact ⟨h.handles, h.fresh, busy.nodup_iff.mp h.apart,
    fun w mem => h.listed (busy.mem_iff.mpr mem)⟩

theorem congr (h : Staffed free s) (workers : s'.availableWorkers = s.availableWorkers)
    (actors : s'.actors = s.actors) (active : s'.active = s.active) : Staffed free s' := by
  have busy : s'.busy = s.busy := congrArg (List.map Task.worker) active
  refine ⟨workers ▸ h.handles, ?_, busy ▸ h.apart, ?_⟩
  · rw [workers, actors]
    exact h.fresh
  · rw [workers, busy]
    exact h.listed

theorem fails (h : Staffed free s) (failed : Fails s s') : Staffed free s' :=
  h.congr failed.workers failed.actors failed.active

theorem drop (h : Staffed free s) : Staffed [] s :=
  ⟨h.handles, h.fresh, h.apart.of_append_right, fun _ mem => h.listed (List.mem_append_right _ mem)⟩

/-- A free Worker that died is in the list, and its place is taken. -/
theorem rebuild {P : State → Prop} {next : State → State} (h : Staffed (worker :: free) s)
    (rest : ∀ workers, workers.length = s.availableWorkers.length →
      Staffed free { s with availableWorkers := workers, actors := s.actors + 1 } →
        P (next { s with availableWorkers := workers, actors := s.actors + 1 })) :
    P (s.rebuild worker next) := by
  have mem : worker ∈ s.availableWorkers := h.listed List.mem_cons_self
  have there : s.availableWorkers.idxOf worker < s.availableWorkers.length :=
    List.idxOf_lt_length_iff.mpr mem
  have unused : s.actors ∉ s.availableWorkers := fun mem => lt_irrefl _ (h.fresh _ mem)
  unfold State.rebuild rebuildWorkerInList
  dsimp only
  rw [if_pos there]
  refine rest _ (List.length_set ..) ⟨?_, ?_, ?_, ?_⟩
  · exact h.handles.set unused
  · intro w mem
    obtain old | rfl := List.mem_or_eq_of_mem_set mem
    · exact (h.fresh w old).trans (Nat.lt_succ_self _)
    · exact Nat.lt_succ_self _
  · exact (List.nodup_cons.mp h.apart).2
  · intro w mem
    have other : w ≠ worker := fun same => (List.nodup_cons.mp h.apart).1 (same ▸ mem)
    obtain ⟨i, hi, rfl⟩ := List.getElem_of_mem (h.listed (List.mem_cons_of_mem _ mem))
    have apart : s.availableWorkers.idxOf worker ≠ i := by
      rintro rfl
      exact other (List.getElem_idxOf there)
    have hi' : i < (s.availableWorkers.set (s.availableWorkers.idxOf worker) s.actors).length := by
      rwa [List.length_set]
    rw [← List.getElem_set_of_ne apart s.actors hi']
    exact List.getElem_mem hi'

end Staffed

/-- A session between two places: neither queued nor with a Worker. -/
structure Out (s : State) (sid : Option String) : Prop where
  pending : sid ∉ s.pendingIds
  active : sid ∉ s.activeIds

namespace Budgeted

theorem fails (h : Budgeted s) (failed : Fails s s') : Budgeted s' := by
  have pending := failed.pendingIds
  have active := failed.activeIds
  have starts (sid : Option String) : s'.starts sid = s.starts sid :=
    congrArg (List.count sid) failed.started
  refine ⟨?_, fun sid mem => ?_, fun sid mem => ?_, fun sid => ?_⟩
  · rw [pending, active]
    exact h.apart
  · rw [pending] at mem
    rw [starts]
    exact ⟨(h.pending sid mem).1.trans (failed.counts sid), (h.pending sid mem).2⟩
  · rw [active] at mem
    rw [starts]
    exact (h.active sid mem).trans (Nat.succ_le_succ (failed.counts sid))
  · rw [starts]
    exact h.starts sid

theorem congr (h : Budgeted s) (pending : s'.pending = s.pending) (active : s'.active = s.active)
    (started : s'.started = s.started) (counts : s'.sessionFailCounts = s.sessionFailCounts) :
    Budgeted s' := by
  have queued : s'.pendingIds = s.pendingIds := congrArg (List.map Entry.sessionId) pending
  have out : s'.activeIds = s.activeIds :=
    congrArg (List.map fun t : Task => t.entry.sessionId) active
  have starts : s'.starts = s.starts := by
    unfold State.starts
    rw [started]
  have fails : s'.failCount = s.failCount := by
    unfold failCount
    rw [counts]
  refine ⟨?_, ?_, ?_, starts ▸ h.starts⟩
  · rw [queued, out]
    exact h.apart
  · rw [queued, starts, fails]
    exact h.pending
  · rw [out, starts, fails]
    exact h.active

theorem clear (h : Budgeted s) : Budgeted { s with pending := [] } :=
  ⟨(List.nodup_append'.mp h.apart).2.1, fun _ mem => absurd mem List.not_mem_nil, h.active,
    h.starts⟩

/-- The first session of the queue is taken. -/
theorem take {pending : List Entry} (h : Budgeted s) (queue : s.pending = e :: pending) :
    Budgeted { s with pending := pending } ∧ Out { s with pending := pending } e.sessionId ∧
      s.starts e.sessionId ≤ s.failCount e.sessionId ∧
        s.starts e.sessionId < maxSessionRetries := by
  have ids := pendingIds_take queue
  have apart := h.apart
  rw [ids, List.cons_append, List.nodup_cons, List.mem_append, not_or] at apart
  have own := h.pending e.sessionId (by rw [ids]; exact List.mem_cons_self)
  refine ⟨⟨apart.2, fun sid mem => ?_, h.active, h.starts⟩, ⟨apart.1.1, apart.1.2⟩, own⟩
  exact h.pending sid (by rw [ids]; exact List.mem_cons_of_mem _ mem)

/-- A task ends. -/
theorem pop {t : Task} {active : List Task} (h : Budgeted s) (perm : s.active.Perm (t :: active)) :
    Budgeted { s with active := active } ∧ Out { s with active := active } t.entry.sessionId ∧
      s.starts t.entry.sessionId ≤ s.failCount t.entry.sessionId + 1 := by
  have ids := activeIds_pop perm
  have first := (List.Perm.append_left s.pendingIds ids).trans List.perm_middle
  have apart := first.nodup_iff.mp h.apart
  rw [List.nodup_cons, List.mem_append, not_or] at apart
  have own := h.active t.entry.sessionId (ids.mem_iff.mpr List.mem_cons_self)
  refine ⟨⟨apart.2, h.pending, fun sid mem => ?_, h.starts⟩, ⟨apart.1.1, apart.1.2⟩, own⟩
  exact h.active sid (ids.mem_iff.mpr (List.mem_cons_of_mem _ mem))

theorem enqueue (h : Budgeted s) (out : Out s e.sessionId)
    (counted : s.starts e.sessionId ≤ s.failCount e.sessionId)
    (left : s.starts e.sessionId < maxSessionRetries) : Budgeted (s.enqueue e) := by
  refine ⟨?_, fun sid mem => ?_, h.active, h.starts⟩
  · rw [pendingIds_enqueue, List.append_assoc]
    refine (List.perm_middle.nodup_iff).mpr ?_
    rw [List.nodup_cons, List.mem_append, not_or]
    exact ⟨⟨out.pending, out.active⟩, h.apart⟩
  · rw [pendingIds_enqueue, List.mem_append, List.mem_singleton] at mem
    obtain old | rfl := mem
    · exact h.pending sid old
    · exact ⟨counted, left⟩

theorem submit (h : Budgeted s) (out : Out s e.sessionId)
    (counted : s.starts e.sessionId ≤ s.failCount e.sessionId)
    (left : s.starts e.sessionId < maxSessionRetries) (worker : Worker) :
    Budgeted (s.submit worker e) := by
  have started (sid : Option String) :
      (s.submit worker e).starts sid = s.starts sid + [e.sessionId].count sid :=
    List.count_append
  have other {sid : Option String} (ne : sid ≠ e.sessionId) :
      (s.submit worker e).starts sid = s.starts sid := by
    rw [started, List.count_singleton, if_neg (by simpa using ne.symm), Nat.add_zero]
  have own : (s.submit worker e).starts e.sessionId = s.starts e.sessionId + 1 := by
    rw [started, List.count_singleton_self]
  refine ⟨?_, fun sid mem => ?_, fun sid mem => ?_, fun sid => ?_⟩
  · rw [activeIds_submit, ← List.append_assoc]
    refine (List.perm_append_singleton _ _).nodup_iff.mpr ?_
    rw [List.nodup_cons, List.mem_append, not_or]
    exact ⟨⟨out.pending, out.active⟩, h.apart⟩
  · rw [other fun same => out.pending (same ▸ mem)]
    exact h.pending sid mem
  · rw [activeIds_submit, List.mem_append, List.mem_singleton] at mem
    obtain old | rfl := mem
    · rw [other fun same => out.active (same ▸ old)]
      exact h.active sid old
    · rw [own]
      exact Nat.succ_le_succ counted
  · by_cases same : sid = e.sessionId
    · rw [same, own]
      exact left
    · rw [other same]
      exact h.starts sid

/-- A session whose failures account for its starts is queued again or given up. -/
theorem retry (h : Budgeted s) (out : Out s e.sessionId)
    (counted : s.starts e.sessionId ≤ s.failCount e.sessionId) : Budgeted (s.retry e) := by
  unfold State.retry
  split_ifs with left
  · exact h.enqueue out counted (counted.trans_lt left)
  · exact h.fails (.fail ..)

theorem filter (h : Budgeted s) (keep : Entry → Bool) :
    Budgeted { s with pending := s.pending.filter keep } := by
  have sub : ((s.pending.filter keep).map Entry.sessionId).Sublist s.pendingIds :=
    List.filter_sublist.map _
  exact ⟨h.apart.sublist (sub.append_right _), fun sid mem => h.pending sid (sub.subset mem),
    h.active, h.starts⟩

end Budgeted

namespace State

/-- Starts and failures a queued session has left. -/
def weightOf (s : State) (sid : Option String) : Nat := 2 * (maxSessionRetries - s.failCount sid)

def weight (s : State) : Nat :=
  (s.pendingIds.map fun sid => s.weightOf sid + 2).sum +
    (s.activeIds.map fun sid => s.weightOf sid + 1).sum

/-- Sessions that failed three times leave the queue. -/
def dropExceeded (s : State) : State :=
  { s with pending := s.pending.filter fun e => s.failCount e.sessionId < maxSessionRetries }

/-- A bound on the answers to come, timeouts aside. -/
def potential (s : State) : Nat :=
  match s.control with
  | .initialFill workers =>
      s.weight * (s.availableWorkers.length + 1) + s.availableWorkers.length + workers.length
  | .fill workers => s.weight * (s.availableWorkers.length + 1) + workers.length
  | .wait | .refill _ => s.weight * (s.availableWorkers.length + 1) + s.availableWorkers.length
  | .left | .indexError => 0

end State

section Weight

theorem Fails.weightOf_le (failed : Fails s s') (sid : Option String) :
    s'.weightOf sid ≤ s.weightOf sid :=
  Nat.mul_le_mul_left 2 (Nat.sub_le_sub_left (failed.counts sid) _)

theorem Fails.weight_le (failed : Fails s s') : s'.weight ≤ s.weight := by
  unfold weight
  rw [failed.pendingIds, failed.activeIds]
  exact Nat.add_le_add
    (List.sum_le_sum fun sid _ => Nat.add_le_add_right (failed.weightOf_le sid) 2)
    (List.sum_le_sum fun sid _ => Nat.add_le_add_right (failed.weightOf_le sid) 1)

theorem weight_take {pending : List Entry} (queue : s.pending = e :: pending) :
    s.weight = { s with pending := pending }.weight + s.weightOf e.sessionId + 2 := by
  unfold weight
  rw [pendingIds_take queue, List.map_cons, List.sum_cons, add_assoc, add_comm, ← add_assoc]
  rfl

theorem weight_pop {t : Task} {active : List Task} (perm : s.active.Perm (t :: active)) :
    s.weight = { s with active := active }.weight + s.weightOf t.entry.sessionId + 1 := by
  unfold weight
  rw [((activeIds_pop perm).map _).sum_eq, List.map_cons, List.sum_cons,
    add_comm (s.weightOf _ + 1), ← add_assoc]
  rfl

theorem weight_enqueue (s : State) (e : Entry) :
    (s.enqueue e).weight = s.weight + s.weightOf e.sessionId + 2 := by
  unfold weight
  rw [pendingIds_enqueue, List.map_append, List.sum_append, List.map_singleton, List.sum_singleton,
    add_right_comm]
  rfl

theorem weight_submit (s : State) (worker : Worker) (e : Entry) :
    (s.submit worker e).weight = s.weight + s.weightOf e.sessionId + 1 := by
  unfold weight
  rw [activeIds_submit, List.map_append, List.sum_append, List.map_singleton, List.sum_singleton,
    ← add_assoc]
  rfl

theorem weightOf_countFailure (s : State) (sid : Option String)
    (left : s.failCount sid < maxSessionRetries) :
    (s.countFailure sid).weightOf sid + 2 = s.weightOf sid := by
  unfold weightOf
  rw [failCount_countFailure, if_pos rfl]
  omega

/-- A failure takes away one start and one failure of its session. -/
theorem weight_countFailure_retry (s : State) (e : Entry) :
    ((s.countFailure e.sessionId).retry e).weight ≤ s.weight + s.weightOf e.sessionId := by
  have counted := (Fails.countFailure s e.sessionId).weight_le
  unfold State.retry
  split_ifs with left
  · rw [failCount_countFailure, if_pos rfl] at left
    rw [weight_enqueue, add_assoc, weightOf_countFailure s e.sessionId (by omega)]
    exact Nat.add_le_add_right counted _
  · exact ((Fails.fail ..).weight_le.trans counted).trans (Nat.le_add_right _ _)

theorem weight_clear_le (s : State) : { s with pending := [] }.weight ≤ s.weight :=
  Nat.add_le_add_right (Nat.zero_le _) _

theorem weight_filter_le (s : State) (keep : Entry → Bool) :
    { s with pending := s.pending.filter keep }.weight ≤ s.weight := by
  have sub : ((s.pending.filter keep).map Entry.sessionId).Sublist s.pendingIds :=
    List.filter_sublist.map _
  exact Nat.add_le_add_right ((sub.map _).sum_le_sum fun _ _ => Nat.zero_le _) _

/-- A session that is filtered out takes its weight with it. -/
theorem weight_filter_lt {keep : Entry → Bool} (mem : e ∈ s.pending) (out : ¬keep e) :
    { s with pending := s.pending.filter keep }.weight + 2 ≤ s.weight := by
  have split := ((List.filter_append_perm keep s.pending).map
    fun e => s.weightOf e.sessionId + 2).sum_eq
  rw [List.map_append, List.sum_append] at split
  have there : s.weightOf e.sessionId + 2 ∈
      (s.pending.filter fun e => !keep e).map fun e => s.weightOf e.sessionId + 2 :=
    List.mem_map.mpr ⟨e, List.mem_filter.mpr ⟨mem, by simpa using out⟩, rfl⟩
  have least := List.le_sum_of_mem there
  unfold weight pendingIds
  rw [List.map_map, List.map_map]
  change ((s.pending.filter keep).map fun e => s.weightOf e.sessionId + 2).sum +
    (s.activeIds.map fun sid => s.weightOf sid + 1).sum + 2 ≤
    (s.pending.map fun e => s.weightOf e.sessionId + 2).sum +
    (s.activeIds.map fun sid => s.weightOf sid + 1).sum
  omega

end Weight

/-- The invariant of the loop. Wherever it waits for an answer, there is one. -/
structure Within (s : State) : Prop where
  staffed : Staffed s.control.freeWorkers s
  budgeted : Budgeted s
  goes : match s.control with
    | .initialFill workers | .fill workers => workers ≠ [] ∧ s.pending ≠ []
    | .refill _ => s.pending ≠ []
    | .wait => s.active ≠ []
    | .left => True
    | .indexError => False

/-- The invariant, with `p` answers to come at most. -/
def Bounded (p : Nat) (s : State) : Prop := Within s ∧ s.potential ≤ p

section Code

variable {p w n : Nat} {workers : List Worker}

/-- A lighter queue leaves room for a round over all Workers. -/
theorem room_of_lt {w' : Nat} (less : w < w') (room : w' * (n + 1) ≤ p + 1) :
    w * (n + 1) + n ≤ p := by
  have step : (w + 1) * (n + 1) ≤ w' * (n + 1) := Nat.mul_le_mul_right _ less
  rw [Nat.succ_mul] at step
  omega

theorem round_lt {w' : Nat} (less : w < w') : w * (n + 1) + n < w' * (n + 1) + n :=
  Nat.add_lt_add_right (Nat.mul_lt_mul_of_pos_right less n.succ_pos) n

theorem loopHead_bounded (staffed : Staffed [] s) (budgeted : Budgeted s) (weight : s.weight ≤ w)
    (length : s.availableWorkers.length = n) (room : w * (n + 1) + n ≤ p) :
    Bounded p s.loopHead := by
  have room : s.weight * (s.availableWorkers.length + 1) + s.availableWorkers.length ≤ p := by
    rw [length]
    exact (Nat.add_le_add_right (Nat.mul_le_mul_right _ weight) n).trans room
  unfold State.loopHead
  split_ifs with goes fills idle
  · have all : Staffed s.availableWorkers s := by
      refine ⟨staffed.handles, staffed.fresh, ?_, ?_⟩
      · rw [busy, fills.1, List.map_nil, List.append_nil]
        exact staffed.handles
      · rw [busy, fills.1, List.map_nil, List.append_nil]
        exact List.Subset.refl _
    exact ⟨⟨all.congr rfl rfl rfl, budgeted.congr rfl rfl rfl rfl, fills.2.2, fills.2.1⟩, room⟩
  · exact ⟨⟨staffed.congr rfl rfl rfl, budgeted.congr rfl rfl rfl rfl, trivial⟩, Nat.zero_le p⟩
  · exact ⟨⟨staffed.congr rfl rfl rfl, budgeted.congr rfl rfl rfl rfl, idle⟩, room⟩
  · exact ⟨⟨staffed.congr rfl rfl rfl, budgeted.congr rfl rfl rfl rfl, trivial⟩, Nat.zero_le p⟩

theorem nextInitial_bounded (staffed : Staffed workers s) (budgeted : Budgeted s)
    (weight : s.weight ≤ w) (length : s.availableWorkers.length = n)
    (room : w * (n + 1) + n + workers.length ≤ p) : Bounded p (s.nextInitial workers) := by
  unfold State.nextInitial
  split_ifs with goes
  · refine ⟨⟨staffed.congr rfl rfl rfl, budgeted.congr rfl rfl rfl rfl, goes⟩, le_trans ?_ room⟩
    refine Nat.add_le_add_right ?_ _
    change s.weight * (s.availableWorkers.length + 1) + s.availableWorkers.length ≤ _
    rw [length]
    exact Nat.add_le_add_right (Nat.mul_le_mul_right _ weight) n
  · exact loopHead_bounded staffed.drop budgeted weight length ((Nat.le_add_right _ _).trans room)

/-- Sessions that are filtered out of the queue leave room for another round. -/
theorem endFill_bounded (staffed : Staffed [] s) (budgeted : Budgeted s)
    (weight : s.dropExceeded.weight ≤ w) (length : s.availableWorkers.length = n)
    (room : w * (n + 1) + n ≤ p) : Bounded p s.endFill := by
  by_cases limit : s.maxConsecutiveRebuilds ≤ s.consecutiveRebuilds
  · rw [endFill_of_le limit]
    exact ⟨⟨staffed.congr rfl rfl rfl, budgeted.congr rfl rfl rfl rfl, trivial⟩, Nat.zero_le p⟩
  · rw [endFill_of_lt (Nat.not_le.mp limit)]
    have kept := budgeted.filter fun e => s.failCount e.sessionId < maxSessionRetries
    exact loopHead_bounded (staffed.congr rfl rfl rfl) (kept.congr rfl rfl rfl rfl) weight length
      room

theorem nextFill_bounded (staffed : Staffed workers s) (budgeted : Budgeted s) {w' : Nat}
    (weight : s.weight ≤ w) (dropped : s.dropExceeded.weight ≤ w')
    (length : s.availableWorkers.length = n) (room : w * (n + 1) + workers.length ≤ p)
    (again : w' * (n + 1) + n ≤ p) : Bounded p (s.nextFill workers) := by
  unfold State.nextFill
  split_ifs with goes
  · refine ⟨⟨staffed.congr rfl rfl rfl, budgeted.congr rfl rfl rfl rfl, goes⟩, le_trans ?_ room⟩
    refine Nat.add_le_add_right ?_ _
    change s.weight * (s.availableWorkers.length + 1) ≤ _
    rw [length]
    exact Nat.mul_le_mul_right _ weight
  · exact endFill_bounded staffed.drop budgeted dropped length again

/-- A session whose submission failed is counted, or leaves the queue behind the loop. -/
theorem dropExceeded_weight (s : State) (e : Entry) :
    ((s.countFailure e.sessionId).enqueue e).dropExceeded.weight <
      s.weight + s.weightOf e.sessionId + 2 := by
  have counted := Fails.countFailure (s.enqueue e) e.sessionId
  by_cases left : s.failCount e.sessionId < maxSessionRetries
  · have less := weightOf_countFailure s e.sessionId left
    have rest := (Fails.countFailure s e.sessionId).weight_le
    refine (weight_filter_le _ _).trans_lt ?_
    rw [weight_enqueue]
    omega
  · have mem : e ∈ ((s.enqueue e).countFailure e.sessionId).pending :=
      List.mem_append_right _ List.mem_cons_self
    refine lt_of_lt_of_le ?_ (counted.weight_le.trans_eq (weight_enqueue s e))
    refine Nat.lt_of_succ_lt (weight_filter_lt mem ?_)
    rw [decide_eq_true_eq]
    change ¬(s.countFailure e.sessionId).failCount e.sessionId < maxSessionRetries
    rw [failCount_countFailure, if_pos rfl]
    exact fun less => left (Nat.lt_of_succ_lt less)

/-- No other task is on the Worker of a task that ended. -/
theorem cancelWorker_eq (idle : worker ∉ s.busy) (settle : State → Entry → State) :
    s.cancelWorker worker settle = s := by
  have other : ∀ t ∈ s.active, t.worker ≠ worker :=
    fun t mem same => idle (same ▸ List.mem_map_of_mem mem)
  have none : s.active.filter (·.worker = worker) = [] := by
    rw [List.filter_eq_nil_iff]
    exact fun t mem => by simpa using other t mem
  have all : s.active.filter (·.worker ≠ worker) = s.active := by
    rw [List.filter_eq_self]
    exact fun t mem => by simpa using other t mem
  rw [State.cancelWorker, none, all]
  rfl

theorem retry_eq (s : State) (e : Entry) : (s.retry e).availableWorkers = s.availableWorkers ∧
    (s.retry e).actors = s.actors ∧ (s.retry e).active = s.active := by
  unfold State.retry
  split_ifs <;> exact ⟨rfl, rfl, rfl⟩

/-- A failure is counted and its session queued again or given up. -/
theorem retried_bounded (staffed : Staffed [] s) (budgeted : Budgeted s)
    (out : Out s e.sessionId) (counted : s.starts e.sessionId ≤ s.failCount e.sessionId + 1)
    (weight : s.weight + s.weightOf e.sessionId ≤ w) (length : s.availableWorkers.length = n)
    (room : w * (n + 1) + n ≤ p) :
    Bounded p ((s.countFailure e.sessionId).retry e).loopHead := by
  have failed : Budgeted (s.countFailure e.sessionId) := budgeted.fails (.countFailure s _)
  have queued : Budgeted ((s.countFailure e.sessionId).retry e) := by
    refine failed.retry ⟨out.pending, out.active⟩ (counted.trans_eq ?_)
    rw [failCount_countFailure, if_pos rfl]
  have same := retry_eq (s.countFailure e.sessionId) e
  exact loopHead_bounded (staffed.congr same.1 same.2.1 same.2.2) queued
    ((weight_countFailure_retry s e).trans weight) ((congrArg List.length same.1).trans length) room

theorem workerLost_bounded {t : Task} (staffed : Staffed [t.worker] s) (budgeted : Budgeted s)
    (out : Out s t.entry.sessionId)
    (counted : s.starts t.entry.sessionId ≤ s.failCount t.entry.sessionId + 1)
    (weight : s.weight + s.weightOf t.entry.sessionId ≤ w) (length : s.availableWorkers.length = n)
    (room : w * (n + 1) + n ≤ p) : Bounded p (s.workerLost t) := by
  have idle : t.worker ∉ s.busy := (List.nodup_cons.mp staffed.apart).1
  unfold State.workerLost
  dsimp only
  split_ifs with limit
  · have given := ((Fails.rebuilds s (s.consecutiveRebuilds + 1)).trans
      (.countFailure _ t.entry.sessionId)).trans (.fail _ t.entry.sessionId t.entry.idx
        (rebuildLimit s.maxConsecutiveRebuilds))
    refine (congrArg (fun s => Bounded p (loopHead s))
      (cancelWorker_eq (given.active ▸ idle) _)).mpr ?_
    exact loopHead_bounded (staffed.drop.fails given) (budgeted.fails given)
      (given.weight_le.trans ((Nat.le_add_right _ _).trans weight))
      ((congrArg List.length given.workers).trans length) room
  · refine Staffed.rebuild (staffed.congr rfl rfl rfl) fun others len staffed => ?_
    refine (congrArg (fun s => Bounded p (loopHead s)) (cancelWorker_eq ?_ _)).mpr ?_
    · unfold busy
      rw [(retry_eq _ t.entry).2.2]
      exact idle
    · exact retried_bounded (s := { s with
        consecutiveRebuilds := s.consecutiveRebuilds + 1
        availableWorkers := others
        actors := s.actors + 1 }) (staffed.congr rfl rfl rfl) (budgeted.congr rfl rfl rfl rfl)
        ⟨out.pending, out.active⟩ counted weight (len.trans length) room

theorem refillFailed_bounded (staffed : Staffed [worker] s) (budgeted : Budgeted s)
    (out : Out s e.sessionId) (counted : s.starts e.sessionId ≤ s.failCount e.sessionId)
    (weight : s.weight + s.weightOf e.sessionId ≤ w) (length : s.availableWorkers.length = n)
    (room : w * (n + 1) + n ≤ p) :
    Bounded p (s.refillFailed worker e) := by
  unfold State.refillFailed
  dsimp only
  split_ifs with limit
  · have given := (Fails.rebuilds s (s.consecutiveRebuilds + 1)).trans (.fail _ e.sessionId e.idx
      (rebuildLimit s.maxConsecutiveRebuilds))
    exact loopHead_bounded (staffed.drop.fails given) (budgeted.fails given)
      (given.weight_le.trans ((Nat.le_add_right _ _).trans weight)) length room
  · refine Staffed.rebuild (staffed.congr rfl rfl rfl) fun others len staffed => ?_
    exact retried_bounded staffed (budgeted.congr rfl rfl rfl rfl) ⟨out.pending, out.active⟩
      (counted.trans (Nat.le_succ _)) weight (len.trans length) room

section Submission

variable (out : Out s e.sessionId) (counted : s.starts e.sessionId ≤ s.failCount e.sessionId)
  (left : s.starts e.sessionId < maxSessionRetries) (length : s.availableWorkers.length = n)
include out counted left length

theorem initialFailed_bounded (staffed : Staffed (worker :: workers) s) (budgeted : Budgeted s)
    (weight : s.weight + s.weightOf e.sessionId + 2 ≤ w)
    (room : w * (n + 1) + n + workers.length ≤ p) :
    Bounded p (s.initialFailed worker e workers) := by
  have queued := budgeted.enqueue out counted left
  have weight := (weight_enqueue s e).trans_le weight
  unfold State.initialFailed
  dsimp only
  split_ifs with limit
  · have given := (Fails.rebuilds (s.enqueue e) (s.consecutiveRebuilds + 1)).trans
      (.foldl (fun s e => (Fails.countFailure s e.sessionId).trans (.fail _ e.sessionId e.idx
        (rebuildLimit s.maxConsecutiveRebuilds ++ "，session 未处理"))) (s.enqueue e).pending _)
    have staffed : Staffed [] (s.enqueue e) := staffed.drop.congr rfl rfl rfl
    exact loopHead_bounded ((staffed.fails given).congr rfl rfl rfl) (queued.fails given).clear
      (((weight_clear_le _).trans given.weight_le).trans weight)
      ((congrArg List.length given.workers).trans length) ((Nat.le_add_right _ _).trans room)
  · refine Staffed.rebuild (staffed.congr rfl rfl rfl) fun others len staffed => ?_
    exact nextInitial_bounded (staffed.congr rfl rfl rfl) (queued.congr rfl rfl rfl rfl) weight
      (len.trans length) room

theorem fillFailed_bounded (staffed : Staffed (worker :: workers) s) (budgeted : Budgeted s)
    (weight : s.weight + s.weightOf e.sessionId + 2 = w)
    (room : w * (n + 1) + workers.length ≤ p) :
    Bounded p (s.fillFailed worker e workers) := by
  have queued := budgeted.enqueue out counted left
  unfold State.fillFailed
  dsimp only
  split_ifs with limit
  · rw [endFill_of_le limit]
    exact ⟨⟨staffed.drop.congr rfl rfl rfl, queued.congr rfl rfl rfl rfl, trivial⟩, Nat.zero_le p⟩
  · refine Staffed.rebuild (staffed.congr rfl rfl rfl) fun others len staffed => ?_
    have counted := queued.fails (Fails.countFailure (s.enqueue e) e.sessionId)
    have kept := (Fails.countFailure (s.enqueue e) e.sessionId).weight_le.trans_eq
      ((weight_enqueue s e).trans weight)
    have lighter := (dropExceeded_weight s e).trans_eq weight
    exact nextFill_bounded (staffed.congr rfl rfl rfl) (counted.congr rfl rfl rfl rfl) kept
      (Nat.le_pred_of_lt lighter) (len.trans length) room
      (room_of_lt (Nat.pred_lt_of_lt lighter) (by omega))

end Submission

theorem finished_bounded {t : Task} (staffed : Staffed [t.worker] s) (budgeted : Budgeted s)
    (out : Out s t.entry.sessionId)
    (counted : s.starts t.entry.sessionId ≤ s.failCount t.entry.sessionId + 1)
    (weight : s.weight + s.weightOf t.entry.sessionId ≤ w) (length : s.availableWorkers.length = n)
    (room : w * (n + 1) + n ≤ p) (outcome : Outcome) : Bounded p (s.finished t outcome) := by
  have lighter : s.weight ≤ w := (Nat.le_add_right _ _).trans weight
  cases outcome with
  | ok result =>
    unfold State.finished State.succeeded
    dsimp only
    split_ifs with empty
    · exact loopHead_bounded (staffed.drop.congr rfl rfl rfl) (budgeted.congr rfl rfl rfl rfl)
        lighter length room
    · refine ⟨⟨staffed.congr rfl rfl rfl, budgeted.congr rfl rfl rfl rfl, empty⟩, le_trans ?_ room⟩
      change s.weight * (s.availableWorkers.length + 1) + s.availableWorkers.length ≤ _
      rw [length]
      exact Nat.add_le_add_right (Nat.mul_le_mul_right _ lighter) n
  | workerLost => exact workerLost_bounded staffed budgeted out counted weight length room
  | error message =>
    have given := Fails.fail s t.entry.sessionId t.entry.idx message
    exact loopHead_bounded (staffed.drop.fails given) (budgeted.fails given) lighter length room

end Code

/-- Each answer but a timeout brings the end nearer. -/
theorem step_bounded {a : Answer} (h : Within s) (taken : machine.step s a = some s') :
    a = .timeout ∧ s' = s ∨ Within s' ∧ s'.potential < s.potential := by
  obtain ⟨staffed, budgeted, goes⟩ := h
  cases step_cases taken with
  | initial ok worker workers e pending there queue =>
    right
    rw [there] at staffed
    obtain ⟨budgeted, out, counted, left⟩ := budgeted.take queue
    have staffed : Staffed (worker :: workers) { s with pending := pending } :=
      staffed.congr rfl rfl rfl
    have total : s.potential = s.weight * (s.availableWorkers.length + 1) +
        s.availableWorkers.length + workers.length + 1 := by
      rw [potential, there]
      rfl
    rw [total, Nat.lt_succ_iff]
    cases ok with
    | false =>
      exact initialFailed_bounded out counted left rfl staffed budgeted (weight_take queue).ge
        (le_refl _)
    | true =>
      refine nextInitial_bounded (staffed.submit e) (budgeted.submit out counted left worker) ?_ rfl
        (le_refl _)
      rw [weight_submit, weight_take queue]
      exact Nat.le_succ _
  | fill ok worker workers e pending there queue =>
    right
    rw [there] at staffed
    obtain ⟨budgeted, out, counted, left⟩ := budgeted.take queue
    have staffed : Staffed (worker :: workers) { s with pending := pending } :=
      staffed.congr rfl rfl rfl
    have total : s.potential = s.weight * (s.availableWorkers.length + 1) + workers.length + 1 := by
      rw [potential, there]
      rfl
    rw [total, Nat.lt_succ_iff]
    cases ok with
    | false =>
      exact fillFailed_bounded out counted left rfl staffed budgeted (weight_take queue).symm
        (le_refl _)
    | true =>
      have lighter : ({ s with pending := pending }.submit worker e).weight < s.weight := by
        rw [weight_submit, weight_take queue]
        exact Nat.lt_succ_self _
      exact nextFill_bounded (staffed.submit e) (budgeted.submit out counted left worker) lighter.le
        (weight_filter_le _ _) rfl (le_refl _)
        (room_of_lt lighter ((Nat.le_add_right _ workers.length).trans (Nat.le_succ _)))
  | refill ok worker e pending there queue =>
    right
    rw [there] at staffed
    obtain ⟨budgeted, out, counted, left⟩ := budgeted.take queue
    have staffed : Staffed [worker] { s with pending := pending } := staffed.congr rfl rfl rfl
    have total : s.potential =
        s.weight * (s.availableWorkers.length + 1) + s.availableWorkers.length := by
      rw [potential, there]
    rw [total, weight_take queue]
    cases ok with
    | false =>
      have done := refillFailed_bounded staffed budgeted out (e := e) counted (le_refl _) rfl
        (le_refl _)
      exact ⟨done.1, done.2.trans_lt (round_lt (Nat.lt_add_of_pos_right Nat.two_pos))⟩
    | true =>
      have done := loopHead_bounded (staffed.submit e) (budgeted.submit out counted left worker)
        (weight_submit _ worker e).le rfl (le_refl _)
      exact ⟨done.1, done.2.trans_lt (round_lt (Nat.lt_succ_self _))⟩
  | timeout waiting =>
    rw [waiting] at goes
    refine .inl ⟨rfl, ?_⟩
    unfold State.loopHead
    rw [if_pos (.inl goes), if_neg (fun fills => goes fills.1), if_neg goes, ← waiting]
  | finished t outcome active waiting perm =>
    right
    rw [waiting] at staffed
    obtain ⟨budgeted, out, counted⟩ := budgeted.pop perm
    have total : s.potential =
        s.weight * (s.availableWorkers.length + 1) + s.availableWorkers.length := by
      rw [potential, waiting]
    have done := finished_bounded (staffed.pop perm) budgeted out counted (le_refl _) rfl
      (le_refl _) outcome
    rw [total, weight_pop perm]
    exact ⟨done.1, done.2.trans_lt (round_lt (Nat.lt_succ_self _))⟩

theorem le_foldr_max {w : Worker} {workers : List Worker} (mem : w ∈ workers) :
    w ≤ workers.foldr max 0 := by
  induction workers with
  | nil => cases mem
  | cons worker workers ih =>
    obtain rfl | there := List.mem_cons.mp mem
    · exact le_max_left _ _
    · exact (ih there).trans (le_max_right _ _)

theorem start_bounded {sessions : List (Option String)} {workers : List Worker}
    (distinct : sessions.Nodup) (handles : workers.Nodup) :
    Bounded (8 * sessions.length * (workers.length + 1) + workers.length + workers.length)
      (start sessions workers) := by
  refine nextInitial_bounded ⟨handles, fun w mem => ?_, ?_, ?_⟩ ⟨?_, ?_, ?_, ?_⟩ ?_ rfl (le_refl _)
  · exact Nat.lt_succ_of_le (le_foldr_max mem)
  · rw [busy, List.map_nil, List.append_nil]
    exact handles
  · rw [busy, List.map_nil, List.append_nil]
    exact List.Subset.refl _
  · rw [pendingIds, sessionIds_enumerate, activeIds, List.map_nil, List.append_nil]
    exact distinct
  · exact fun sid mem => ⟨Nat.zero_le _, Nat.succ_pos _⟩
  · exact fun sid mem => absurd mem List.not_mem_nil
  · exact fun sid => Nat.zero_le _
  · unfold weight
    rw [pendingIds, sessionIds_enumerate]
    change (sessions.map fun _ => 8).sum + 0 ≤ _
    rw [List.map_const', List.sum_replicate_nat, Nat.add_zero, Nat.mul_comm]

/-- Wherever the loop waits for an answer, one that is no timeout can come. -/
theorem Within.answer (h : Within s) (going : s.control ≠ .left) :
    ∃ a, a.answered ∧ (machine.step s a).isSome := by
  obtain ⟨-, -, goes⟩ := h
  cases control : s.control with
  | initialFill workers =>
    rw [control] at goes
    obtain ⟨worker, workers, rfl⟩ := List.exists_cons_of_ne_nil goes.1
    obtain ⟨e, pending, queue⟩ := List.exists_cons_of_ne_nil goes.2
    refine ⟨.submitted true, rfl, ?_⟩
    change (s.step (.submitted true)).isSome
    rw [State.step, control, queue]
    rfl
  | fill workers =>
    rw [control] at goes
    obtain ⟨worker, workers, rfl⟩ := List.exists_cons_of_ne_nil goes.1
    obtain ⟨e, pending, queue⟩ := List.exists_cons_of_ne_nil goes.2
    refine ⟨.submitted true, rfl, ?_⟩
    change (s.step (.submitted true)).isSome
    rw [State.step, control, queue]
    rfl
  | wait =>
    rw [control] at goes
    obtain ⟨t, active, out⟩ := List.exists_cons_of_ne_nil goes
    refine ⟨.finished t.future .workerLost, rfl, ?_⟩
    change (s.step (.finished t.future .workerLost)).isSome
    rw [State.step, control, out, List.find?_cons_of_pos (by simp)]
    rfl
  | refill worker =>
    rw [control] at goes
    obtain ⟨e, pending, queue⟩ := List.exists_cons_of_ne_nil goes
    refine ⟨.submitted true, rfl, ?_⟩
    change (s.step (.submitted true)).isSome
    rw [State.step, control, queue]
    rfl
  | left => exact absurd control going
  | indexError =>
    rw [control] at goes
    exact goes.elim

/-- The answers of a run use up the potential. -/
theorem exec_bounded {answers : List Answer} (h : Within s)
    (run : machine.exec s answers = some s') :
    Within s' ∧ answers.countP Answer.answered + s'.potential ≤ s.potential := by
  induction answers generalizing s with
  | nil =>
    obtain rfl := Option.some.inj run
    exact ⟨h, Nat.zero_add _ |>.le⟩
  | cons a answers ih =>
    obtain ⟨t, taken, rest⟩ := Option.bind_eq_some_iff.mp run
    obtain ⟨rfl, rfl⟩ | ⟨inv, less⟩ := step_bounded h taken
    · exact ih h rest
    · obtain ⟨last, rest⟩ := ih inv rest
      refine ⟨last, ?_⟩
      rw [List.countP_cons]
      split <;> omega

/-- No assignment past the list of Workers, one task a Worker, three a session. -/
structure InBudget (s : State) : Prop where
  rebuilt : s.control ≠ .indexError
  single : (s.active.map Task.worker).Nodup
  starts : ∀ sid, s.started.count sid ≤ 3

theorem Within.inBudget (h : Within s) : InBudget s := by
  refine ⟨fun error => ?_, (List.nodup_append'.mp h.staffed.apart).2.1, h.budgeted.starts⟩
  have goes := h.goes
  rw [error] at goes
  exact goes

/-- Every state is in the budget, the answers are bounded, one can always come
before the end, and no run goes on although every wait is over at some time. -/
def EndsInBudget (sessions : List (Option String)) (workers : List Worker) : Prop :=
  (∀ answers, machine.Along InBudget (start sessions workers) answers ∧
    ∀ s, machine.exec (start sessions workers) answers = some s →
      answers.countP Answer.answered ≤
          8 * sessions.length * (workers.length + 1) + 2 * workers.length ∧
        (s.control ≠ .left → ∃ a, a.answered ∧ (machine.step s a).isSome)) ∧
  ¬∃ answers : Nat → Answer, (∀ n, ∃ m, n ≤ m ∧ (answers m).answered) ∧
    ∀ n, (machine.exec (start sessions workers) ((List.range n).map answers)).isSome

/-- A sequence with infinitely many answers has as many as wanted at its front. -/
theorem exists_countP {answers : Nat → Answer} (fair : ∀ n, ∃ m, n ≤ m ∧ (answers m).answered)
    (k : Nat) : ∃ n, k ≤ ((List.range n).map answers).countP Answer.answered := by
  induction k with
  | zero => exact ⟨0, Nat.zero_le _⟩
  | succ k ih =>
    obtain ⟨n, enough⟩ := ih
    obtain ⟨m, late, answered⟩ := fair n
    refine ⟨m + 1, ?_⟩
    rw [List.range_succ, List.map_append, List.countP_append, List.map_singleton,
      List.countP_singleton, if_pos answered]
    have sub : ((List.range n).map answers).Sublist ((List.range m).map answers) :=
      (List.range_sublist.mpr late).map _
    exact Nat.succ_le_succ (enough.trans sub.countP_le)

theorem run_ends_in_budget (sessions : List (Option String)) (workers : List Worker)
    (distinct : sessions.Nodup) (handles : workers.Nodup) : EndsInBudget sessions workers := by
  obtain ⟨within, bound⟩ := start_bounded distinct handles
  have total : 8 * sessions.length * (workers.length + 1) + workers.length + workers.length =
      8 * sessions.length * (workers.length + 1) + 2 * workers.length := by
    rw [add_assoc, ← Nat.two_mul]
  rw [total] at bound
  have counted {answers : List Answer} {s : State}
      (run : machine.exec (start sessions workers) answers = some s) :
      answers.countP Answer.answered ≤
        8 * sessions.length * (workers.length + 1) + 2 * workers.length :=
    (Nat.le_add_right _ _).trans ((exec_bounded within run).2.trans bound)
  refine ⟨fun answers => ⟨?_, fun s run => ⟨counted run, ?_⟩⟩, ?_⟩
  · refine Machine.Along.mono ?_ fun s h => Within.inBudget h
    refine Machine.along_of_step (fun s a s' h taken => ?_) within answers
    obtain ⟨-, rfl⟩ | ⟨inv, -⟩ := step_bounded h taken
    · exact h
    · exact inv
  · exact (exec_bounded within run).1.answer
  · rintro ⟨answers, fair, runs⟩
    obtain ⟨n, enough⟩ := exists_countP fair
      (8 * sessions.length * (workers.length + 1) + 2 * workers.length + 1)
    obtain ⟨s, run⟩ := Option.isSome_iff_exists.mp (runs n)
    exact absurd (counted run) (Nat.not_le.mpr enough)

theorem run_ends_in_budget_two : EndsInBudget [some "a", none] [0, 1] :=
  run_ends_in_budget _ _ (by decide) (by decide)

end TrajProxy.Archiver.Dispatch
