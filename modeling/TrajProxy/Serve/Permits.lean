import TrajProxy.Library.Transition
import Mathlib.Data.List.Basic

/-! The permits of a Worker's request semaphore. A handler takes one before its
`try` block and gives it back in the `finally`, unless it hands it over to the
body generator of a streaming response, whose own `finally` gives it back. That
clause runs only in a generator that was started. -/

namespace TrajProxy.Serve
open Transition

/-- The awaits in the `try` block of `chat_completions`; those of a query route
count as one. -/
inductive HandlerAwait
  | json
  | getProcessor
  | tryGetOrSync
  | processRequest
  | query
  deriving DecidableEq

/-- Where `generate_stream` is suspended: at the await of the next chunk or at a
`yield`, the last two in its `except` clause. -/
inductive StreamPoint
  | next
  | chunk
  | done
  | error
  | errorDone
  deriving DecidableEq

inductive Phase
  | acquiring (first : HandlerAwait)
  | handling (point : HandlerAwait)
  | handedOver
  | streaming (point : StreamPoint)
  | ended
  deriving DecidableEq

/-- The local variables of a request; `releases` counts its calls of
`semaphore.release()`. -/
structure Request where
  phase : Phase
  stream : Bool
  acquired : Bool
  streamingHandled : Bool
  releases : Nat
  deriving DecidableEq

/-- What a suspended coroutine or generator is resumed with; `raised` says whether
an error body can be built. -/
inductive Event
  | permit
  | timeout
  | body (stream : Bool)
  | processor (found : Bool)
  | response
  | raised (reported : Bool)
  | cancelled
  | started
  | chunk
  | exhausted
  | resumed
  | dropped
  deriving DecidableEq

namespace Request

def moveTo (r : Request) (phase : Phase) : Request := { r with phase }

/-- `semaphore.release()` on the way out. -/
def release (value : Option Nat) (r : Request) : Option Nat × Request :=
  (value.map (· + 1), { r with phase := .ended, releases := r.releases + 1 })

/-- The `finally` clause of a handler. -/
def leaveHandler (value : Option Nat) (r : Request) : Option Nat × Request :=
  if r.acquired && !r.streamingHandled then r.release value else (value, r.moveTo .ended)

/-- The `finally` clause of `generate_stream`. -/
def leaveGenerator (value : Option Nat) (r : Request) : Option Nat × Request :=
  if r.acquired then r.release value else (value, r.moveTo .ended)

/-- The last branch of `chat_completions`, for a Processor that was found. -/
def dispatch (value : Option Nat) (r : Request) : Option Nat × Request :=
  if r.stream then (value, { r with streamingHandled := true, phase := .handedOver })
  else (value, r.moveTo (.handling .processRequest))

/-- Runs a request from where it is suspended to the next suspension; `value` is
the semaphore's counter. -/
def step (value : Option Nat) (r : Request) (e : Event) : Option (Option Nat × Request) :=
  match r.phase, e with
  | .acquiring first, .permit =>
    match value with
    | some (available + 1) =>
      some (some available, { r with acquired := true, phase := .handling first })
    | _ => none
  | .acquiring _, .timeout => some (value, r.moveTo .ended)
  | .acquiring _, .cancelled => some (value, r.moveTo .ended)
  | .handling .json, .body stream =>
    some (value, { r with stream, phase := .handling .getProcessor })
  | .handling .getProcessor, .processor found =>
    some (if found then r.dispatch value else (value, r.moveTo (.handling .tryGetOrSync)))
  | .handling .tryGetOrSync, .processor found =>
    some (if found then r.dispatch value else r.leaveHandler value)
  | .handling .processRequest, .response => some (r.leaveHandler value)
  | .handling .query, .response => some (r.leaveHandler value)
  | .handling _, .raised _ => some (r.leaveHandler value)
  | .handling _, .cancelled => some (r.leaveHandler value)
  | .handedOver, .started => some (value, r.moveTo (.streaming .next))
  -- nothing of a generator that was not started runs when it is closed
  | .handedOver, .dropped => some (value, r.moveTo .ended)
  | .streaming .next, .chunk => some (value, r.moveTo (.streaming .chunk))
  | .streaming .next, .exhausted => some (value, r.moveTo (.streaming .done))
  | .streaming .next, .raised reported =>
    some (if reported then (value, r.moveTo (.streaming .error)) else r.leaveGenerator value)
  | .streaming .next, .cancelled => some (r.leaveGenerator value)
  | .streaming .chunk, .resumed => some (value, r.moveTo (.streaming .next))
  | .streaming .error, .resumed => some (value, r.moveTo (.streaming .errorDone))
  | .streaming .done, .resumed => some (r.leaveGenerator value)
  | .streaming .errorDone, .resumed => some (r.leaveGenerator value)
  -- the event loop closes a generator that was dropped at a `yield`
  | .streaming .chunk, .dropped => some (r.leaveGenerator value)
  | .streaming .done, .dropped => some (r.leaveGenerator value)
  | .streaming .error, .dropped => some (r.leaveGenerator value)
  | .streaming .errorDone, .dropped => some (r.leaveGenerator value)
  | _, _ => none

/-- It has its permit and has not ended. -/
def inFlight (r : Request) : Bool := r.acquired && r.phase != .ended

end Request

inductive Route
  | chatCompletions
  | query
  deriving DecidableEq

def Route.firstAwait : Route → HandlerAwait
  | chatCompletions => .json
  | query => .query

/-- `semaphore` is the counter of `app.state.request_semaphore`, `none` without
one. -/
structure State where
  semaphore : Option Nat
  requests : List Request
  deriving DecidableEq

inductive Action
  | arrive (route : Route)
  | event (i : Nat) (e : Event)
  deriving DecidableEq

namespace State

def initial (maxConcurrent : Option Nat) : State := ⟨maxConcurrent, []⟩

def arrived (s : State) (route : Route) : Request where
  phase := if s.semaphore.isSome then .acquiring route.firstAwait else .handling route.firstAwait
  stream := false
  acquired := false
  streamingHandled := false
  releases := 0

def step (s : State) : Action → Option State
  | .arrive route => some { s with requests := s.requests ++ [s.arrived route] }
  | .event i e => do
    let r ← s.requests[i]?
    let (value, r) ← r.step s.semaphore e
    return ⟨value, s.requests.set i r⟩

def machine : Machine State Action := ⟨step⟩

def inFlight (s : State) : Nat := s.requests.countP Request.inFlight

end State

namespace Request

variable {value value' : Option Nat} {r r' : Request} {e : Event}

/-- What the local variables say about a request that has not ended. -/
structure Sound (r : Request) : Prop where
  acquiring : ∀ first, r.phase = .acquiring first →
    r.acquired = false ∧ r.streamingHandled = false
  handling : ∀ point, r.phase = .handling point → r.streamingHandled = false
  unreleased : r.phase ≠ .ended → r.releases = 0

/-- A permit is released once, when its request ends. -/
def ReleasedOnce (r : Request) : Prop :=
  r.releases = if r.acquired && r.phase == .ended then 1 else 0

theorem releasedOnce_iff :
    r.ReleasedOnce ↔ r.releases = if r.acquired && !r.inFlight then 1 else 0 := by
  unfold ReleasedOnce inFlight
  cases r.acquired <;> simp [bne]

/-- What a step of a request does with the permits. -/
inductive Accounts (value : Option Nat) (r : Request) (e : Event) : Option Nat → Request → Prop
  | keeps (r' : Request) : r'.acquired = r.acquired → r'.inFlight = r.inFlight →
    r'.releases = r.releases → Accounts value r e value r'
  | acquires (available : Nat) (r' : Request) : value = some (available + 1) →
    r.inFlight = false → r'.inFlight = true → r'.releases = 0 →
    Accounts value r e (some available) r'
  | releases (r' : Request) : r.inFlight = true → r'.acquired = true → r'.phase = .ended →
    r'.releases = 1 → Accounts value r e (value.map (· + 1)) r'
  | loses (r' : Request) : r.phase = .handedOver → e = .dropped → r.inFlight = true →
    r'.acquired = true → r'.phase = .ended → r'.releases = 0 → Accounts value r e value r'

structure Lawful (value : Option Nat) (r : Request) (e : Event) (out : Option Nat × Request) :
    Prop where
  sound : out.2.Sound
  accounts : Accounts value r e out.1 out.2

theorem inFlight_of_going (going : r.phase ≠ .ended) : r.inFlight = r.acquired := by
  simp [inFlight, going]

theorem inFlight_of_ended (ended : r.phase = .ended) : r.inFlight = false := by
  simp [inFlight, ended]

theorem Sound.ended (ended : r.phase = .ended) : r.Sound := by
  refine ⟨fun first there => ?_, fun point there => ?_, fun there => absurd ended there⟩
  · rw [ended] at there
    cases there
  · rw [ended] at there
    cases there

namespace Lawful

/-- A step from one suspension to another that keeps the permit where it is. -/
theorem goes (h : r.Sound) (going : r.phase ≠ .ended) (going' : r'.phase ≠ .ended)
    (acquired : r'.acquired = r.acquired) (releases : r'.releases = r.releases)
    (acquiring : ∀ first, r'.phase ≠ .acquiring first)
    (handling : ∀ point, r'.phase = .handling point → r'.streamingHandled = false) :
    Lawful value r e (value, r') := by
  refine ⟨⟨fun first there => absurd there (acquiring first), handling, fun _ => ?_⟩,
    .keeps r' acquired ?_ releases⟩
  · exact releases.trans (h.unreleased going)
  · rw [inFlight_of_going going, inFlight_of_going going']
    exact acquired

theorem ends (unacquired : r.acquired = false) : Lawful value r e (value, r.moveTo .ended) := by
  refine ⟨.ended rfl, .keeps _ rfl ?_ rfl⟩
  rw [inFlight_of_ended rfl]
  simp [inFlight, unacquired]

theorem leaveGenerator (h : r.Sound) (going : r.phase ≠ .ended) :
    Lawful value r e (r.leaveGenerator value) := by
  unfold Request.leaveGenerator
  split_ifs with acquired
  · refine ⟨.ended rfl, .releases _ ?_ acquired rfl ?_⟩
    · exact (inFlight_of_going going).trans acquired
    · exact congrArg (· + 1) (h.unreleased going)
  · exact ends (Bool.eq_false_iff.mpr acquired)

theorem leaveHandler {point : HandlerAwait} (h : r.Sound) (at_ : r.phase = .handling point) :
    Lawful value r e (r.leaveHandler value) := by
  have same : r.leaveHandler value = r.leaveGenerator value := by
    simp [Request.leaveHandler, Request.leaveGenerator, h.handling point at_]
  rw [same]
  exact leaveGenerator h (by rw [at_]; exact nofun)

theorem toStream (h : r.Sound) (going : r.phase ≠ .ended) (point : StreamPoint) :
    Lawful value r e (value, r.moveTo (.streaming point)) :=
  goes h going nofun rfl rfl nofun nofun

theorem toHandler (h : r.Sound) {point : HandlerAwait} (there : r.phase = .handling point)
    (point' : HandlerAwait) : Lawful value r e (value, r.moveTo (.handling point')) :=
  goes h (by rw [there]; exact nofun) nofun rfl rfl nofun fun _ _ => h.handling point there

theorem dispatch (h : r.Sound) {point : HandlerAwait} (there : r.phase = .handling point) :
    Lawful value r e (r.dispatch value) := by
  unfold Request.dispatch
  split_ifs
  · exact goes h (by rw [there]; exact nofun) nofun rfl rfl nofun nofun
  · exact toHandler h there .processRequest

end Lawful

theorem step_lawful {out : Option Nat × Request} (h : r.Sound)
    (taken : r.step value e = some out) : Lawful value r e out := by
  unfold step at taken
  cases at_ : r.phase with
  | acquiring first =>
    obtain ⟨unacquired, unhanded⟩ := h.acquiring first at_
    cases e <;> simp only [at_, reduceCtorEq, Option.some_inj] at taken
    case permit =>
      match value with
      | none => cases taken
      | some 0 => cases taken
      | some (available + 1) =>
        cases taken
        have unreleased := h.unreleased (by rw [at_]; exact nofun)
        refine ⟨⟨nofun, fun _ _ => unhanded, fun _ => unreleased⟩, ?_⟩
        refine .acquires available _ rfl ?_ rfl unreleased
        simp [inFlight, unacquired]
    case timeout =>
      subst taken
      exact .ends unacquired
    case cancelled =>
      subst taken
      exact .ends unacquired
  | handling point =>
    have going : r.phase ≠ .ended := by rw [at_]; exact nofun
    cases point <;> cases e <;> simp only [at_, reduceCtorEq, Option.some_inj] at taken
    case json.body stream =>
      subst taken
      exact .goes h going nofun rfl rfl nofun fun _ _ => h.handling _ at_
    case getProcessor.processor found =>
      subst taken
      split_ifs
      · exact .dispatch h at_
      · exact .toHandler h at_ .tryGetOrSync
    case tryGetOrSync.processor found =>
      subst taken
      split_ifs
      · exact .dispatch h at_
      · exact .leaveHandler h at_
    all_goals
      subst taken
      exact .leaveHandler h at_
  | handedOver =>
    have going : r.phase ≠ .ended := by rw [at_]; exact nofun
    cases e <;> simp only [at_, reduceCtorEq, Option.some_inj] at taken
    case started =>
      subst taken
      exact .toStream h going .next
    case dropped =>
      subst taken
      cases acquired : r.acquired with
      | true =>
        exact ⟨.ended rfl, .loses _ at_ rfl ((inFlight_of_going going).trans acquired) acquired rfl
          (h.unreleased going)⟩
      | false => exact .ends acquired
  | streaming point =>
    have going : r.phase ≠ .ended := by rw [at_]; exact nofun
    cases point <;> cases e <;> simp only [at_, reduceCtorEq, Option.some_inj] at taken
    case next.raised reported =>
      subst taken
      split_ifs
      · exact .toStream h going .error
      · exact .leaveGenerator h going
    all_goals
      subst taken
      first
        | exact .toStream h going _
        | exact .leaveGenerator h going
  | ended => cases e <;> simp only [at_, reduceCtorEq] at taken

/-- The body generator is dropped before its first iteration, with the permit. -/
def Abandons (r : Request) (e : Event) : Prop :=
  r.phase = .handedOver ∧ r.acquired = true ∧ e = .dropped

theorem Accounts.releasedOnce (h : Accounts value r e value' r') (once : r.ReleasedOnce)
    (kept : ¬r.Abandons e) : r'.ReleasedOnce := by
  rw [releasedOnce_iff] at once ⊢
  cases h with
  | keeps _ acquired flying releases => rw [releases, once, acquired, flying]
  | acquires available _ free idle flying unreleased => simp [unreleased, flying]
  | releases _ flying acquired ended released =>
    simp [released, acquired, inFlight_of_ended ended]
  | loses _ handed dropped flying =>
    exact absurd ⟨handed, (Bool.and_eq_true_iff.mp flying).1, dropped⟩ kept

/-- A permit is in use as long as its request is in flight. -/
theorem Accounts.balance (h : Accounts value r e value' r') (kept : ¬r.Abandons e) :
    value'.map (· + (if r'.inFlight then 1 else 0)) =
      value.map (· + (if r.inFlight then 1 else 0)) := by
  cases h with
  | keeps _ acquired flying releases => rw [flying]
  | acquires available _ free idle flying unreleased => simp [free, idle, flying]
  | releases _ flying acquired ended released =>
    rw [inFlight_of_ended ended, flying, Option.map_map]
    rfl
  | loses _ handed dropped flying =>
    exact absurd ⟨handed, (Bool.and_eq_true_iff.mp flying).1, dropped⟩ kept

/-- Nothing gives the permit of an abandoned generator back. -/
theorem not_releasedOnce_of_abandons (h : r.Sound) (abandons : r.Abandons e)
    (taken : r.step value e = some (value', r')) : ¬r'.ReleasedOnce := by
  obtain ⟨handed, acquired, rfl⟩ := abandons
  have unreleased := h.unreleased (by rw [handed]; exact nofun)
  unfold step at taken
  simp only [handed, Option.some_inj, Prod.mk.injEq] at taken
  obtain ⟨rfl, rfl⟩ := taken
  simp [releasedOnce_iff, moveTo, inFlight, acquired, unreleased]

end Request

namespace State

variable {s s' : State} {a : Action} {maxConcurrent : Option Nat}

structure Conserved (maxConcurrent : Option Nat) (s : State) : Prop where
  once : ∀ r ∈ s.requests, r.ReleasedOnce
  inUse : s.semaphore.map (· + s.inFlight) = maxConcurrent

/-- The body generator of a request that holds a permit is dropped before its
first iteration. -/
def Abandons (s : State) (a : Action) : Prop :=
  ∃ i e r, a = .event i e ∧ s.requests[i]? = some r ∧ r.Abandons e

theorem step_cases (taken : machine.step s a = some s') :
    (∃ route, a = .arrive route ∧ s' = { s with requests := s.requests ++ [s.arrived route] }) ∨
    ∃ i e r value r', a = .event i e ∧ s.requests[i]? = some r ∧
      r.step s.semaphore e = some (value, r') ∧ s' = ⟨value, s.requests.set i r'⟩ := by
  cases a with
  | arrive route => exact .inl ⟨route, rfl, (Option.some.inj taken).symm⟩
  | event i e =>
    obtain ⟨r, there, taken⟩ := Option.bind_eq_some_iff.mp taken
    obtain ⟨⟨value, r'⟩, step, taken⟩ := Option.bind_eq_some_iff.mp taken
    exact .inr ⟨i, e, r, value, r', rfl, there, step, (Option.some.inj taken).symm⟩

theorem inFlight_set {i : Nat} {r : Request} (value : Option Nat) (r' : Request)
    (there : s.requests[i]? = some r) :
    inFlight ⟨value, s.requests.set i r'⟩ + (if r.inFlight then 1 else 0) =
      s.inFlight + (if r'.inFlight then 1 else 0) := by
  obtain ⟨bound, same⟩ := List.getElem?_eq_some_iff.mp there
  have counted : (if r.inFlight then 1 else 0) ≤ s.requests.countP Request.inFlight := by
    split_ifs with flying
    · exact List.one_le_countP_iff.mpr ⟨r, List.mem_of_getElem? there, flying⟩
    · exact Nat.zero_le _
  unfold inFlight
  rw [List.countP_set bound, same]
  omega

def Sound (s : State) : Prop := ∀ r ∈ s.requests, r.Sound

theorem Sound.step (h : s.Sound) (taken : machine.step s a = some s') : s'.Sound := by
  obtain ⟨route, -, rfl⟩ | ⟨i, e, r, value, r', -, there, step, rfl⟩ := step_cases taken
  · intro r mem
    rw [List.mem_append, List.mem_singleton] at mem
    obtain old | rfl := mem
    · exact h r old
    · exact ⟨fun _ _ => ⟨rfl, rfl⟩, fun _ _ => rfl, fun _ => rfl⟩
  · intro r'' mem
    obtain old | rfl := List.mem_or_eq_of_mem_set mem
    · exact h r'' old
    · exact (Request.step_lawful (h r (List.mem_of_getElem? there)) step).sound

theorem conserved_step_iff (h : s.Conserved maxConcurrent) (sound : s.Sound)
    (taken : machine.step s a = some s') : s'.Conserved maxConcurrent ↔ ¬s.Abandons a := by
  obtain ⟨route, rfl, rfl⟩ | ⟨i, e, r, value, r', rfl, there, step, rfl⟩ := step_cases taken
  · refine ⟨?_, fun _ => ⟨fun r mem => ?_, ?_⟩⟩
    · rintro - ⟨i, e, r, same, -⟩
      cases same
    · rw [List.mem_append, List.mem_singleton] at mem
      obtain old | rfl := mem
      · exact h.once r old
      · rfl
    · rw [← h.inUse]
      simp [inFlight, arrived, Request.inFlight]
  · have mem := List.mem_of_getElem? there
    have bound := (List.getElem?_eq_some_iff.mp there).1
    have accounts := (Request.step_lawful (sound r mem) step).accounts
    refine ⟨?_, fun kept => ?_⟩
    · rintro conserved ⟨j, e', r'', same, there', abandons⟩
      cases same
      cases there.symm.trans there'
      exact Request.not_releasedOnce_of_abandons (sound r mem) abandons step
        (conserved.once r' (List.mem_set bound r'))
    · have kept' : ¬r.Abandons e := fun abandons => kept ⟨i, e, r, rfl, there, abandons⟩
      refine ⟨fun r'' mem' => ?_, ?_⟩
      · obtain old | rfl := List.mem_or_eq_of_mem_set mem'
        · exact h.once r'' old
        · exact accounts.releasedOnce (h.once r mem) kept'
      · have balance := accounts.balance kept'
        have counted := inFlight_set value r' there
        rw [← h.inUse]
        cases value <;> cases available : s.semaphore <;>
          simp only [available, Option.map_none, Option.map_some, Option.some_inj,
            reduceCtorEq] at balance ⊢
        omega

/-- In a run every permit is released exactly once, and those in use are those
of the requests in flight, if and only if no stream is abandoned. -/
theorem run_conserved_iff (maxConcurrent : Option Nat) (as : List Action) :
    machine.Along (Conserved maxConcurrent) (initial maxConcurrent) as ↔
      machine.Guarded (fun s a => ¬s.Abandons a) (initial maxConcurrent) as := by
  have sound : (initial maxConcurrent).Sound := fun _ mem => (nomatch mem)
  have start : (initial maxConcurrent).Conserved maxConcurrent := by
    refine ⟨fun _ mem => (nomatch mem), ?_⟩
    cases maxConcurrent <;> rfl
  have step (s : State) (a : Action) (s' : State) (sound : s.Sound)
      (h : s.Conserved maxConcurrent) (taken : machine.step s a = some s') :
      s'.Conserved maxConcurrent ↔ ¬s.Abandons a := (conserved_step_iff h sound taken)
  exact Machine.along_iff_guarded_of_inv (fun s a s' h taken => h.step taken) step sound start as

theorem stream_abandoned : ¬∀ (maxConcurrent : Option Nat) (as : List Action),
    machine.Along (Conserved maxConcurrent) (initial maxConcurrent) as := by
  intro always
  -- the client has gone before the response starts
  have run : machine.exec (initial (some 1)) [.arrive .chatCompletions, .event 0 .permit,
      .event 0 (.body true), .event 0 (.processor true), .event 0 .dropped] =
      some ⟨some 0, [⟨.ended, true, true, true, 0⟩]⟩ := by decide
  have conserved := (always (some 1) _).exec run
  exact absurd conserved.inUse (by decide)

end State

end TrajProxy.Serve
