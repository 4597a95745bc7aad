import TrajProxy.Infer.Client

/-! What a call of `InferClient` does to the upstream and to its caller.
The attempts before the last one are all retryable and yield nothing, so the
trace of a call is its retries followed by one attempt. What escapes
untranslated comes from that last attempt alone. -/

namespace TrajProxy.Infer

/-- The two exceptions of the service. -/
def Error.Business : Error → Prop
  | .inferTimeoutError _ => True
  | .inferServiceError _ => True
  | _ => False

/-- A call that raises raises one of the service's exceptions. -/
def Translated {α : Type} (result : Except Error α) : Prop :=
  ∀ e, result = .error e → e.Business

/-- The events of the first `k` attempts, each retried after its pause. -/
def retries : Nat → List Event
  | 0 => []
  | k + 1 => retries k ++ [.request k, .sleep (2 ^ k)]

/-- Attempt `k` is the last one: those before it are retryable, and it is not
unless no retry is left. -/
structure LastAttempt (maxRetries : Nat) (retryable : Nat → Prop) (k : Nat) : Prop where
  bounded : k ≤ maxRetries
  retried : ∀ j < k, retryable j
  last : retryable k → k = maxRetries

theorem LastAttempt.unique {maxRetries : Nat} {retryable : Nat → Prop} {j k : Nat}
    (hj : LastAttempt maxRetries retryable j) (hk : LastAttempt maxRetries retryable k) :
    j = k := by
  have below : ∀ {j k}, LastAttempt maxRetries retryable j → LastAttempt maxRetries retryable k →
      ¬j < k := by
    intro j k hj hk lt
    have full := hj.last (hk.retried j lt)
    have bound := hk.bounded
    omega
  have notLt := below hj hk
  have notGt := below hk hj
  omega

def Success (code : Nat) : Prop := 200 ≤ code ∧ code ≤ 299

theorem raiseForStatus_of_success {code : Nat} (h : Success code) (text : Option String) :
    raiseForStatus code text = .ok () := if_pos h

theorem raiseForStatus_of_not_success {code : Nat} (h : ¬Success code) (text : Option String) :
    raiseForStatus code text = .error (.status code text) := if_neg h

theorem not_success_of_retry {code : Nat} (h : code ∈ retryStatusCodes) : ¬Success code := by
  simp only [retryStatusCodes, List.mem_cons, List.not_mem_nil, or_false] at h
  rw [Success]
  omega

namespace Client

variable (client : Client)

theorem business_wrap_request (e : RequestError) :
    (client.wrapRequestError (.request e)).Business := by
  obtain ⟨kind, message⟩ := e
  cases kind <;> exact trivial

/-- Between two attempts nothing has been yielded and all were retryable. -/
structure Retrying (retryable : Nat → Prop) (k : Nat) (c : Call) : Prop where
  bounded : k ≤ client.maxRetries
  retried : ∀ j < k, retryable j
  trace : c.trace = retries k
  silent : c.hasYielded = false

namespace Retrying

variable {client : Client} {retryable : Nat → Prop} {k : Nat} {c c' : Call}

theorem start (lastRetryCount : Nat) : client.Retrying retryable 0 (.start lastRetryCount) :=
  ⟨Nat.zero_le _, fun _ lt => absurd lt (Nat.not_lt_zero _), rfl, rfl⟩

theorem next (h : client.Retrying retryable k c) (left : k < client.maxRetries)
    (again : retryable k) (trace : c'.trace = c.trace ++ [.request k, .sleep (2 ^ k)])
    (silent : c'.hasYielded = c.hasYielded) : client.Retrying retryable (k + 1) c' where
  bounded := left
  retried := by
    intro j lt
    rcases Nat.lt_succ_iff_lt_or_eq.mp lt with below | rfl
    · exact h.retried j below
    · exact again
  trace := by rw [trace, h.trace, retries]
  silent := silent.trans h.silent

end Retrying

/-! ### The non-streaming helper -/

namespace Reply

/-- A connection error, a timeout, or one of the retry status codes. -/
def Retryable : Reply → Prop
  | .failed _ => True
  | .response code _ _ => code ∈ retryStatusCodes

/-- A success whose body is not JSON. -/
def Malformed : Reply → Prop
  | .failed _ => False
  | .response code _ json => Success code ∧ ∃ e, json = .error e

end Reply

/-- A call of `_handle_request` sends at most `max_retries + 1` requests, retries
only what may be retried, and returns the JSON of its last attempt. -/
structure RequestDiscipline (script : Nat → Reply) (k : Nat) (result : Except Error (Option Json))
    (trace : List Event) : Prop where
  attempts : LastAttempt client.maxRetries (fun j => (script j).Retryable) k
  trace : trace = retries k ++ [.request k]
  returned : ∀ json, result = .ok json →
    ∃ code text parsed, script k = .response code text (.ok parsed) ∧ Success code ∧
      json = some parsed

variable (script : Nat → Reply) {k : Nat} {c c' : Call}

theorem requestAttempt_continues (h : client.Retrying (fun j => (script j).Retryable) k c)
    (round : client.requestAttempt script k c = (none, c')) :
    client.Retrying (fun j => (script j).Retryable) (k + 1) c' := by
  unfold requestAttempt at round
  cases reply : script k with
  | failed e =>
    simp only [reply] at round
    split_ifs at round with left
    · cases round
      exact h.next left (by rw [reply]; trivial) (by simp [Call.emit]) rfl
    · cases round
  | response code text json =>
    simp only [reply] at round
    split_ifs at round with again
    · cases round
      exact h.next again.2 (by rw [reply]; exact again.1) (by simp [Call.emit]) rfl
    · split at round <;> cases round

theorem requestAttempt_ends (h : client.Retrying (fun j => (script j).Retryable) k c)
    {result : Except Error Json} (round : client.requestAttempt script k c = (some result, c')) :
    client.RequestDiscipline script k (result.map some) c'.trace ∧
      (Translated (result.map some) ↔ ¬(script k).Malformed) := by
  unfold requestAttempt at round
  cases reply : script k with
  | failed e =>
    simp only [reply] at round
    split_ifs at round with left
    · cases round
    · cases round
      refine ⟨⟨⟨h.bounded, h.retried, ?_⟩, ?_, ?_⟩, ?_⟩
      · intro _
        have bound := h.bounded
        omega
      · simp [Call.retryCount, Call.emit, h.trace]
      · intro json returned
        cases returned
      · refine iff_of_true ?_ id
        intro e' raised
        cases raised
        exact client.business_wrap_request e
  | response code text json =>
    simp only [reply] at round
    split_ifs at round with again
    · cases round
    · have last : code ∈ retryStatusCodes → k = client.maxRetries := by
        intro retry
        have bound := h.bounded
        have full : ¬k < client.maxRetries := fun left => again ⟨retry, left⟩
        omega
      have sent : ({ c.emit (.request k) with lastError := c'.lastError }.retryCount k).trace =
          retries k ++ [.request k] := by simp [Call.retryCount, Call.emit, h.trace]
      have attempts : LastAttempt client.maxRetries (fun j => (script j).Retryable) k :=
        ⟨h.bounded, h.retried, by rw [reply]; exact last⟩
      by_cases success : Success code
      · simp only [raiseForStatus_of_success success] at round
        cases round
        refine ⟨⟨attempts, sent, ?_⟩, ?_⟩
        · intro value returned
          cases json with
          | error e => cases returned
          | ok parsed =>
            cases returned
            exact ⟨code, text, parsed, reply, success, rfl⟩
        · cases json with
          | ok parsed =>
            refine iff_of_true ?_ ?_
            · intro e raised
              cases raised
            · rintro ⟨-, e, malformed⟩
              cases malformed
          | error e =>
            refine iff_of_false ?_ ?_
            · intro translated
              exact translated (.loads e) rfl
            · exact fun wellFormed => wellFormed ⟨success, e, rfl⟩
      · simp only [raiseForStatus_of_not_success success] at round
        cases round
        refine ⟨⟨attempts, sent, ?_⟩, iff_of_true ?_ ?_⟩
        · intro value returned
          cases returned
        · intro e raised
          cases raised
          trivial
        · exact fun malformed => success malformed.1

/-- The last attempt of `_handle_request` decides what it raises. -/
theorem handleRequest_discipline (r : Nat) :
    ∃ k, client.RequestDiscipline script k (client.handleRequest script (.start r)).1
        (client.handleRequest script (.start r)).2.trace ∧
      (Translated (client.handleRequest script (.start r)).1 ↔ ¬(script k).Malformed) := by
  unfold handleRequest
  rcases forRange_cases (fun k c c' h round => client.requestAttempt_continues script h round)
      (client.maxRetries + 1) 0 (.start r) (Retrying.start r) with
    ⟨k, c, result, c', -, before, round, ran⟩ | ⟨c, after, -⟩
  · rw [ran]
    exact ⟨k, client.requestAttempt_ends script before round⟩
  · have bound := after.bounded
    omega

/-! ### The streaming helper -/

/-- The line carries no chunk and does not end the stream. -/
def Silent (line : String) : Prop :=
  Text.startsWith line "data: " → Text.dropFirst line 6 ≠ "[DONE]" ∧
    client.loads (Text.dropFirst line 6) = .error .jsonDecodeError

/-- The chunk of a line. -/
def dataOf (line : String) : Option Json :=
  if Text.startsWith line "data: " then (client.loads (Text.dropFirst line 6)).toOption else none

/-- The line is `data: [DONE]`. -/
def IsDone (line : String) : Prop :=
  Text.startsWith line "data: " ∧ Text.dropFirst line 6 = "[DONE]"

instance (line : String) : Decidable (IsDone line) := inferInstanceAs (Decidable (_ ∧ _))

def beforeDone (lines : List String) : List String := lines.takeWhile fun line => ¬IsDone line

theorem beforeDone_cons {line : String} (goesOn : ¬IsDone line) (lines : List String) :
    beforeDone (line :: lines) = line :: beforeDone lines :=
  List.takeWhile_cons_of_pos (decide_eq_true goesOn)

theorem beforeDone_done {line : String} (done : IsDone line) (lines : List String) :
    beforeDone (line :: lines) = [] :=
  List.takeWhile_cons_of_neg (by simpa using done)

/-- The parsed data lines of an attempt. -/
def dataChunks (lines : List String) : List Json := (beforeDone lines).filterMap client.dataOf

/-- `json.loads` raises on a line something that is not skipped. -/
def Raises (lines : List String) : Prop :=
  ∃ line ∈ beforeDone lines, Text.startsWith line "data: " ∧
    client.loads (Text.dropFirst line 6) = .error .other

namespace StreamReply

def lines : StreamReply → List String
  | .failed _ => []
  | .opened _ _ lines _ => lines

/-- A connection error, a timeout, one of the retry status codes, or a stream
that breaks before its first chunk. -/
def Retryable : StreamReply → Prop
  | .failed _ => True
  | .opened code _ lines failure =>
    code ∈ retryStatusCodes ∨
      Success code ∧ failure.isSome ∧ ∀ line ∈ lines, client.Silent line

/-- A response that is no success, or a line `json.loads` cannot skip. -/
def Escapes : StreamReply → Prop
  | .failed _ => False
  | .opened code _ lines _ => ¬Success code ∨ client.Raises lines

end StreamReply

/-- A call of `_handle_stream_request` yields data lines of its last attempt
only, all of them if it returns. -/
structure StreamDiscipline (script : Nat → StreamReply) (k : Nat) (result : Except Error Unit)
    (trace : List Event) (chunks : List Json) : Prop where
  attempts : LastAttempt client.maxRetries (fun j => (script j).Retryable client) k
  trace : trace = retries k ++ .request k :: chunks.map .chunk
  received : chunks <+: client.dataChunks (script k).lines
  complete : result = .ok () → chunks = client.dataChunks (script k).lines

/-- The caller has been handed `chunks`. -/
def yieldAll (c : Call) (chunks : List Json) : Call :=
  chunks.foldl Call.yieldChunk c

theorem trace_yieldAll (c : Call) (chunks : List Json) :
    (yieldAll c chunks).trace = c.trace ++ chunks.map .chunk := by
  induction chunks generalizing c with
  | nil => simp [yieldAll]
  | cons chunk chunks ih =>
    have rest := ih (c.yieldChunk chunk)
    simpa [yieldAll, Call.yieldChunk, Call.emit] using rest

theorem hasYielded_yieldAll (c : Call) (chunks : List Json) (h : c.hasYielded = false) :
    (yieldAll c chunks).hasYielded = false ↔ chunks = [] := by
  have kept : ∀ (chunks : List Json) (c : Call), c.hasYielded = true →
      (yieldAll c chunks).hasYielded = true := by
    intro chunks
    induction chunks with
    | nil => exact fun c yielded => yielded
    | cons chunk chunks ih => exact fun c _ => ih (c.yieldChunk chunk) rfl
  cases chunks with
  | nil => simp [yieldAll, h]
  | cons chunk chunks =>
    have yielded := kept chunks (c.yieldChunk chunk) rfl
    simp only [yieldAll, List.foldl_cons] at yielded ⊢
    simp [yielded]

/-- How reading `lines` ends after handing out `chunks`. -/
structure ReadEnd (failure : Option RequestError) (lines : List String) (chunks : List Json)
    (result : Except ReadError Unit) : Prop where
  received : chunks <+: client.dataChunks lines
  complete : result = .ok () → chunks = client.dataChunks lines ∧ ¬client.Raises lines
  broken : ∀ e, result = .error (.request e) → failure = some e ∧ ¬client.Raises lines ∧
    (chunks = [] → ∀ line ∈ lines, client.Silent line)
  raised : ∀ e, result = .error (.loads e) → client.Raises lines

variable (failure : Option RequestError) {line : String} {lines : List String}

/-- A line that is passed over. -/
theorem ReadEnd.skip {chunks : List Json} {result : Except ReadError Unit}
    (h : client.ReadEnd failure lines chunks result) (silent : client.Silent line) :
    client.ReadEnd failure (line :: lines) chunks result := by
  have before := beforeDone_cons (fun done : IsDone line => (silent done.1).1 done.2) lines
  have none : client.dataOf line = none := by
    unfold dataOf
    split_ifs with data
    · rw [(silent data).2]
      rfl
    · rfl
  have same : client.dataChunks (line :: lines) = client.dataChunks lines := by
    rw [dataChunks, before, List.filterMap_cons_none none, dataChunks]
  have raises : client.Raises (line :: lines) ↔ client.Raises lines := by
    unfold Raises
    rw [before]
    constructor
    · rintro ⟨l, mem, data, other⟩
      rcases List.mem_cons.mp mem with rfl | rest
      · rw [(silent data).2] at other
        cases other
      · exact ⟨l, rest, data, other⟩
    · rintro ⟨l, mem, data, other⟩
      exact ⟨l, List.mem_cons_of_mem _ mem, data, other⟩
  refine ⟨same ▸ h.received, ?_, ?_, ?_⟩
  · rw [same, raises]
    exact h.complete
  · intro e broken
    obtain ⟨fails, quiet, nothing⟩ := h.broken e broken
    refine ⟨fails, fun raised => quiet (raises.mp raised), ?_⟩
    intro empty l mem
    rcases List.mem_cons.mp mem with rfl | rest
    · exact silent
    · exact nothing empty l rest
  · intro e raised
    exact raises.mpr (h.raised e raised)

/-- A line that parses. -/
theorem ReadEnd.chunk {chunks : List Json} {result : Except ReadError Unit} {parsed : Json}
    (h : client.ReadEnd failure lines chunks result)
    (data : Text.startsWith line "data: " = true) (goesOn : Text.dropFirst line 6 ≠ "[DONE]")
    (loads : client.loads (Text.dropFirst line 6) = .ok parsed) :
    client.ReadEnd failure (line :: lines) (parsed :: chunks) result := by
  have before := beforeDone_cons (fun done : IsDone line => goesOn done.2) lines
  have some : client.dataOf line = some parsed := by
    rw [dataOf, if_pos data, loads]
    rfl
  have grown : client.dataChunks (line :: lines) = parsed :: client.dataChunks lines := by
    rw [dataChunks, before, List.filterMap_cons_some some, dataChunks]
  have raises : client.Raises (line :: lines) ↔ client.Raises lines := by
    unfold Raises
    rw [before]
    simp [loads]
  refine ⟨?_, ?_, ?_, ?_⟩
  · rw [grown]
    exact List.cons_prefix_cons.mpr ⟨rfl, h.received⟩
  · intro complete
    obtain ⟨all, quiet⟩ := h.complete complete
    exact ⟨by rw [grown, all], fun raised => quiet (raises.mp raised)⟩
  · intro e broken
    obtain ⟨fails, quiet, -⟩ := h.broken e broken
    exact ⟨fails, fun raised => quiet (raises.mp raised), fun empty => nomatch empty⟩
  · intro e raised
    exact raises.mpr (h.raised e raised)

theorem readLines_end (lines : List String) (c : Call) :
    ∃ chunks, (client.readLines failure lines c).2 = yieldAll c chunks ∧
      client.ReadEnd failure lines chunks (client.readLines failure lines c).1 := by
  induction lines generalizing c with
  | nil =>
    have quiet : ¬client.Raises [] := by simp [Raises, beforeDone]
    cases failure with
    | none => exact ⟨[], rfl, List.prefix_rfl, fun _ => ⟨rfl, quiet⟩, nofun, nofun⟩
    | some e =>
      refine ⟨[], rfl, List.prefix_rfl, nofun, ?_, nofun⟩
      intro e' broken
      cases broken
      exact ⟨rfl, quiet, nofun⟩
  | cons line lines ih =>
    rw [readLines]
    split_ifs with empty data
    · obtain ⟨chunks, yielded, rest⟩ := ih c
      refine ⟨chunks, yielded, rest.skip client failure ?_⟩
      intro data
      rw [empty] at data
      cases data
    · simp only
      by_cases done : Text.dropFirst line 6 = "[DONE]"
      · rw [if_pos done]
        have none := beforeDone_done ⟨data, done⟩ lines
        have chunks : client.dataChunks (line :: lines) = [] := by
          rw [dataChunks, none, List.filterMap_nil]
        refine ⟨[], rfl, List.nil_prefix, ?_, nofun, nofun⟩
        exact fun _ => ⟨chunks.symm, by simp [Raises, none]⟩
      · rw [if_neg done]
        cases loads : client.loads (Text.dropFirst line 6) with
        | ok parsed =>
          obtain ⟨chunks, yielded, rest⟩ := ih (c.yieldChunk parsed)
          exact ⟨parsed :: chunks, yielded, rest.chunk client failure data done loads⟩
        | error e =>
          cases e with
          | jsonDecodeError =>
            obtain ⟨chunks, yielded, rest⟩ := ih c
            exact ⟨chunks, yielded, rest.skip client failure fun _ => ⟨done, loads⟩⟩
          | other =>
            have before : line ∈ beforeDone (line :: lines) := by
              rw [beforeDone_cons fun is => done is.2]
              exact List.mem_cons_self
            refine ⟨[], rfl, List.nil_prefix, nofun, nofun, ?_⟩
            exact fun _ _ => ⟨line, before, data, loads⟩
    · obtain ⟨chunks, yielded, rest⟩ := ih c
      exact ⟨chunks, yielded, rest.skip client failure fun data' => absurd data' data⟩

/-- Silent lines lead to the failure of the stream. -/
theorem readLines_silent (c : Call) (e : RequestError) (lines : List String)
    (silent : ∀ line ∈ lines, client.Silent line) :
    client.readLines (some e) lines c = (.error (.request e), c) := by
  induction lines with
  | nil => rfl
  | cons line lines ih =>
    have rest := ih fun l mem => silent l (List.mem_cons_of_mem _ mem)
    rw [readLines, rest]
    split_ifs with empty data
    · rfl
    · obtain ⟨done, loads⟩ := silent line List.mem_cons_self data
      simp only [if_neg done, loads]
    · rfl

/-- A successful response that may be retried breaks without a chunk. -/
theorem readLines_retryable {code : Nat} {drained : Option RequestError} (success : Success code)
    (retryable : (StreamReply.opened code drained lines failure).Retryable client) (c : Call) :
    ∃ e, client.readLines failure lines c = (.error (.request e), c) := by
  rcases retryable with retry | ⟨-, fails, silent⟩
  · exact absurd success (not_success_of_retry retry)
  · obtain ⟨e, rfl⟩ := Option.isSome_iff_exists.mp fails
    exact ⟨e, client.readLines_silent c e lines silent⟩

variable (script : Nat → StreamReply) {k : Nat} {c c' : Call}

/-- What the `except httpx.RequestError` clause makes of an attempt that yielded
`chunks`. -/
theorem streamRequestError_continues {e : RequestError} {c₀ : Call}
    (h : client.Retrying (fun j => (script j).Retryable client) k c)
    (again : c₀.hasYielded = false → (script k).Retryable client)
    (same : c₀.hasYielded = false → c₀.trace = c.trace ++ [.request k])
    (round : client.streamRequestError k e c₀ = (none, c')) :
    client.Retrying (fun j => (script j).Retryable client) (k + 1) c' := by
  unfold streamRequestError at round
  simp only at round
  split_ifs at round with left
  · cases round
    obtain ⟨silent, left⟩ := left
    have silent : c₀.hasYielded = false := by simpa using silent
    refine h.next left (again silent) ?_ (silent.trans h.silent.symm)
    simp [Call.emit, same silent]
  · cases round

theorem streamAttempt_continues
    (h : client.Retrying (fun j => (script j).Retryable client) k c)
    (round : client.streamAttempt script k c = (none, c')) :
    client.Retrying (fun j => (script j).Retryable client) (k + 1) c' := by
  unfold streamAttempt at round
  cases reply : script k with
  | failed e =>
    simp only [reply] at round
    exact client.streamRequestError_continues script h (fun _ => by rw [reply]; trivial)
      (fun _ => rfl) round
  | opened code drained lines failure =>
    simp only [reply] at round
    split_ifs at round with again
    · have retryable : (script k).Retryable client := by
        rw [reply]
        exact Or.inl again.1
      cases drained with
      | none =>
        cases round
        exact h.next again.2.2 retryable (by simp [Call.emit]) rfl
      | some e =>
        exact client.streamRequestError_continues script h (fun _ => retryable) (fun _ => rfl) round
    · by_cases success : Success code
      · simp only [raiseForStatus_of_success success] at round
        obtain ⟨chunks, yielded, ended⟩ :=
          client.readLines_end failure lines (c.emit (.request k))
        obtain ⟨result, c₁, read⟩ : ∃ result c₁,
            client.readLines failure lines (c.emit (.request k)) = (result, c₁) := ⟨_, _, rfl⟩
        simp only [read] at yielded ended round
        subst yielded
        have none : (yieldAll (c.emit (.request k)) chunks).hasYielded = false → chunks = [] :=
          (hasYielded_yieldAll (c.emit (.request k)) chunks h.silent).mp
        match result, ended, round with
        | .error (.request e), ended, round =>
          obtain ⟨fails, -, silent⟩ := ended.broken e rfl
          refine client.streamRequestError_continues script h ?_ ?_ round
          · intro quiet
            rw [reply]
            exact Or.inr ⟨success, by rw [fails]; rfl, silent (none quiet)⟩
          · intro quiet
            rw [none quiet]
            rfl
      · simp only [raiseForStatus_of_not_success success] at round
        cases round

/-- An attempt that ended in the `except httpx.RequestError` clause for good. -/
theorem streamRequestError_ends {e : RequestError} (chunks : List Json)
    {result : Except Error Unit}
    (h : client.Retrying (fun j => (script j).Retryable client) k c)
    (received : chunks <+: client.dataChunks (script k).lines)
    (once : (script k).Retryable client → chunks = [])
    (round : client.streamRequestError k e (yieldAll (c.emit (.request k)) chunks) =
      (some result, c')) :
    client.StreamDiscipline script k result c'.trace chunks ∧ Translated result := by
  unfold streamRequestError at round
  simp only at round
  split_ifs at round with left
  · cases round
  · cases round
    refine ⟨⟨⟨h.bounded, h.retried, ?_⟩, ?_, received, nofun⟩, ?_⟩
    · intro retryable
      have silent :=
        (hasYielded_yieldAll (c.emit (.request k)) chunks h.silent).mpr (once retryable)
      have bound := h.bounded
      rw [silent] at left
      simp only [Bool.not_false, true_and] at left
      omega
    · change (yieldAll (c.emit (.request k)) chunks).trace = _
      rw [trace_yieldAll, Call.emit, h.trace, List.append_assoc]
      rfl
    · intro e' raised
      cases raised
      exact client.business_wrap_request e

section Read

variable {code : Nat} {drained : Option RequestError} {read : Except ReadError Unit}

/-- What an attempt with a successful response hands out. If it may be retried, it
hands out nothing and breaks. -/
theorem readLines_attempt (h : client.Retrying (fun j => (script j).Retryable client) k c)
    (reply : script k = .opened code drained lines failure) (success : Success code)
    (reads : client.readLines failure lines (c.emit (.request k)) = (read, c')) :
    ∃ chunks, c' = yieldAll (c.emit (.request k)) chunks ∧
      client.ReadEnd failure lines chunks read ∧
      ((script k).Retryable client → chunks = [] ∧ ∃ e, read = .error (.request e)) := by
  obtain ⟨chunks, yielded, ended⟩ := client.readLines_end failure lines (c.emit (.request k))
  simp only [reads] at yielded ended
  refine ⟨chunks, yielded, ended, fun retryable => ?_⟩
  rw [reply] at retryable
  obtain ⟨e, again⟩ := client.readLines_retryable failure success retryable (c.emit (.request k))
  obtain ⟨broken, same⟩ := Prod.mk.inj (reads.symm.trans again)
  refine ⟨(hasYielded_yieldAll (c.emit (.request k)) chunks h.silent).mp ?_, e, broken⟩
  rw [← yielded, same]
  exact h.silent

/-- An attempt whose reading ends without a request error is the last one. -/
theorem read_discipline (h : client.Retrying (fun j => (script j).Retryable client) k c)
    (reply : script k = .opened code drained lines failure) (success : Success code)
    (reads : client.readLines failure lines (c.emit (.request k)) = (read, c'))
    (final : ∀ e, read ≠ .error (.request e)) (result : Except Error Unit)
    (complete : result = .ok () → read = .ok ()) :
    ∃ chunks, client.StreamDiscipline script k result c'.trace chunks ∧
      client.ReadEnd failure lines chunks read := by
  obtain ⟨chunks, rfl, ended, retried⟩ :=
    client.readLines_attempt failure script h reply success reads
  have data : (script k).lines = lines := by rw [reply, StreamReply.lines]
  refine ⟨chunks, ⟨⟨h.bounded, h.retried, fun retryable => ?_⟩, ?_, ?_, fun returned => ?_⟩, ended⟩
  · obtain ⟨-, e, broken⟩ := retried retryable
    exact absurd broken (final e)
  · rw [trace_yieldAll, Call.emit, h.trace, List.append_assoc]
    rfl
  · rw [data]
    exact ended.received
  · rw [data]
    exact (ended.complete (complete returned)).1

end Read

theorem streamAttempt_ends
    (h : client.Retrying (fun j => (script j).Retryable client) k c)
    {result : Except Error Unit} (round : client.streamAttempt script k c = (some result, c')) :
    ∃ chunks, client.StreamDiscipline script k result c'.trace chunks ∧
      (Translated result ↔ ¬(script k).Escapes client) := by
  unfold streamAttempt at round
  cases reply : script k with
  | failed e =>
    simp only [reply] at round
    obtain ⟨discipline, translated⟩ := client.streamRequestError_ends script []
      h List.nil_prefix (fun _ => rfl) round
    exact ⟨[], discipline, iff_of_true translated id⟩
  | opened code drained lines failure =>
    simp only [reply] at round
    split_ifs at round with again
    · have retryable : (script k).Retryable client := by
        rw [reply]
        exact Or.inl again.1
      cases drained with
      | none => cases round
      | some e =>
        unfold streamRequestError at round
        simp [Call.emit, h.silent, again.2.2] at round
    · by_cases success : Success code
      · simp only [raiseForStatus_of_success success] at round
        obtain ⟨read, c₁, reads⟩ : ∃ read c₁,
            client.readLines failure lines (c.emit (.request k)) = (read, c₁) := ⟨_, _, rfl⟩
        simp only [reads] at round
        match read, reads, round with
        | .ok (), reads, round =>
          cases round
          obtain ⟨chunks, discipline, ended⟩ := client.read_discipline failure script h reply
            success reads nofun (.ok ()) fun _ => rfl
          obtain ⟨-, quiet⟩ := ended.complete rfl
          refine ⟨chunks, discipline, ?_⟩
          exact iff_of_true nofun fun escapes => escapes.elim (fun bad => bad success) quiet
        | .error (.request e), reads, round =>
          obtain ⟨chunks, rfl, ended, retried⟩ :=
            client.readLines_attempt failure script h reply success reads
          have received : chunks <+: client.dataChunks (script k).lines := by
            rw [reply]
            exact ended.received
          obtain ⟨-, quiet, -⟩ := ended.broken e rfl
          obtain ⟨discipline, translated⟩ := client.streamRequestError_ends script chunks h received
            (fun retryable => (retried retryable).1) round
          refine ⟨chunks, discipline, iff_of_true translated ?_⟩
          exact fun escapes => escapes.elim (fun bad => bad success) quiet
        | .error (.loads e), reads, round =>
          cases round
          obtain ⟨chunks, discipline, ended⟩ := client.read_discipline failure script h reply
            success reads (fun _ => by simp) (.error (.loads e)) nofun
          refine ⟨chunks, discipline, ?_⟩
          refine iff_of_false (fun translated => translated (.loads e) rfl) ?_
          exact fun none => none (Or.inr (ended.raised e rfl))
      · simp only [raiseForStatus_of_not_success success] at round
        cases round
        refine ⟨[], ⟨⟨h.bounded, h.retried, ?_⟩, ?_, List.nil_prefix, nofun⟩, iff_of_false ?_ ?_⟩
        · intro retryable
          rw [reply] at retryable
          rcases retryable with retry | ⟨good, -⟩
          · by_contra early
            have bound := h.bounded
            exact again ⟨retry, by simp [Call.emit, h.silent], by omega⟩
          · exact absurd good success
        · simp [Call.retryCount, Call.emit, h.trace]
        · exact fun translated => translated .responseNotRead rfl
        · exact fun none => none (Or.inl success)

/-- The last attempt of `_handle_stream_request` decides what it raises. -/
theorem handleStreamRequest_discipline (r : Nat) :
    ∃ k chunks, client.StreamDiscipline script k
        (client.handleStreamRequest script (.start r)).1
        (client.handleStreamRequest script (.start r)).2.trace chunks ∧
      (Translated (client.handleStreamRequest script (.start r)).1 ↔
        ¬(script k).Escapes client) := by
  unfold handleStreamRequest
  rcases forRange_cases (fun k c c' h round => client.streamAttempt_continues script h round)
      (client.maxRetries + 1) 0 (.start r) (Retrying.start r) with
    ⟨k, c, result, c', -, before, round, ran⟩ | ⟨c, after, -⟩
  · rw [ran]
    exact ⟨k, client.streamAttempt_ends script before round⟩
  · have bound := after.bounded
    omega

/-- Both helpers keep their discipline and raise the service's exceptions only. -/
structure Disciplined (requests : Nat → Reply) (streams : Nat → StreamReply) (r : Nat) :
    Prop where
  request : ∃ k, client.RequestDiscipline requests k (client.handleRequest requests (.start r)).1
    (client.handleRequest requests (.start r)).2.trace
  stream : ∃ k chunks, client.StreamDiscipline streams k
    (client.handleStreamRequest streams (.start r)).1
    (client.handleStreamRequest streams (.start r)).2.trace chunks
  requestTranslated : Translated (client.handleRequest requests (.start r)).1
  streamTranslated : Translated (client.handleStreamRequest streams (.start r)).1

/-- The attempts the calls end with must be neither a success with a malformed
body nor, for a stream, a response that is no success or a line on which
`json.loads` raises something it does not skip. -/
theorem disciplined_iff (requests : Nat → Reply) (streams : Nat → StreamReply) (r : Nat) :
    client.Disciplined requests streams r ↔
      (∀ k, LastAttempt client.maxRetries (fun j => (requests j).Retryable) k →
        ¬(requests k).Malformed) ∧
      ∀ k, LastAttempt client.maxRetries (fun j => (streams j).Retryable client) k →
        ¬(streams k).Escapes client := by
  obtain ⟨k, request, malformed⟩ := client.handleRequest_discipline requests r
  obtain ⟨l, chunks, stream, escapes⟩ := client.handleStreamRequest_discipline streams r
  constructor
  · intro h
    refine ⟨?_, ?_⟩
    · intro k' last
      exact request.attempts.unique last ▸ malformed.mp h.requestTranslated
    · intro l' last
      exact stream.attempts.unique last ▸ escapes.mp h.streamTranslated
  · rintro ⟨wellFormed, readable⟩
    exact ⟨⟨k, request⟩, ⟨l, chunks, stream⟩, malformed.mpr (wellFormed k request.attempts),
      escapes.mpr (readable l stream.attempts)⟩

/-- A stream that the upstream answers with 500 raises httpx's own error. -/
theorem unread_body_escapes :
    ¬∀ (client : Client) (requests : Nat → Reply) (streams : Nat → StreamReply) (r : Nat),
      client.Disciplined requests streams r := by
  intro all
  let client : Client := ⟨"http://infer", 2, fun _ => .error .jsonDecodeError⟩
  have disciplined := all client (fun _ => .failed ⟨.other, "reset"⟩)
    (fun _ => .opened 500 none [] none) 0
  exact disciplined.streamTranslated .responseNotRead rfl

end Client
end TrajProxy.Infer
