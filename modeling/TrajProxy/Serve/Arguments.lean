import TrajProxy.Infer.Body
import TrajProxy.Library.Call
import TrajProxy.Record.Context

/-! The keyword arguments of a chat completion, from the route to the request
body: `chat_completions` splats the client's keys into `process_request` or
`process_stream`, and the pipeline splats what these took as `request_params`
into a sender of `InferClient`. The stages between the two calls change neither
and are left out; the prompt they make is a parameter. -/

namespace TrajProxy.Serve
open Infer

def processRequestSignature : Signature Json :=
  ⟨[("self", none), ("messages", none), ("request_id", none), ("session_id", some .null),
    ("run_id", some .null), ("forward_headers", some .null)]⟩

def processStreamSignature : Signature Json :=
  ⟨[("self", none), ("messages", none), ("request_id", none), ("session_id", some .null),
    ("run_id", some .null), ("context_holder", some .null), ("forward_headers", some .null)]⟩

/-- `wrapper(self, *args, **kwargs)` of the decorators of all four senders. -/
def wrapperSignature : Signature Json := ⟨[("self", none)]⟩

def sendCompletionSignature : Signature Json :=
  ⟨[("self", none), ("prompt", none), ("model", none), ("extra_headers", some .null),
    ("request_id", some .null)]⟩

def sendChatCompletionSignature : Signature Json :=
  ⟨[("self", none), ("messages", none), ("model", none), ("extra_headers", some .null)]⟩

def buildCompletionBodySignature : Signature Json :=
  ⟨[("self", none), ("prompt", none), ("model", none), ("stream", none),
    ("request_id", some .null)]⟩

def buildChatBodySignature : Signature Json :=
  ⟨[("self", none), ("messages", none), ("model", none), ("stream", none)]⟩

/-- A call of a decorated function with keyword arguments only: its wrapper calls
it as `func(self, *args, **kwargs)`. -/
def callDecorated (f : Signature Json) (explicit splat : Items Json) :
    Except CallError (Bound Json) := do
  let wrapper ← wrapperSignature.call 1 explicit splat
  f.call 1 [] wrapper.kwargs

/-- What a sender hands to a request helper. -/
structure Outgoing where
  extraHeaders : Json
  body : Items Json

/-- `send_completion` and `send_completion_stream` -/
def sendCompletion (stream : Bool) (explicit splat : Items Json) : Except CallError Outgoing := do
  let bound ← callDecorated sendCompletionSignature explicit splat
  let builder ← buildCompletionBodySignature.call 3
    [("stream", .bool stream), ("request_id", Json.getD bound.args "request_id")] bound.kwargs
  pure ⟨Json.getD bound.args "extra_headers",
    buildCompletionBody (Json.getD bound.args "prompt") (Json.getD bound.args "model") stream
      builder.kwargs⟩

/-- `send_chat_completion` and `send_chat_completion_stream` -/
def sendChatCompletion (stream : Bool) (explicit splat : Items Json) :
    Except CallError Outgoing := do
  let bound ← callDecorated sendChatCompletionSignature explicit splat
  let builder ← buildChatBodySignature.call 3 [("stream", .bool stream)] bound.kwargs
  pure ⟨Json.getD bound.args "extra_headers",
    buildChatBody (Json.getD bound.args "messages") (Json.getD bound.args "model") stream
      builder.kwargs⟩

inductive Pipeline
  | token
  | direct
  deriving DecidableEq

/-- What the proxy determined for a request: the ids, the headers to forward, the
model of the processor and, in token mode, the encoded prompt. -/
structure Own where
  requestId : String
  sessionId : Option String
  runId : Option String
  forwardHeaders : Items Json
  model : String
  prompt : Json

/-- The arguments of `_create_context` that come from the call of the processor,
and what is sent upstream. -/
structure Served where
  requestId : Json
  sessionId : Json
  runId : Json
  forwardHeaders : Json
  requestParams : Items Json
  sent : Outgoing

/-- `if stream` of `body.get("stream", False)` -/
def isStream (body : Items Json) : Bool := ((body.get? "stream").getD (.bool false)).truthy

/-- `body.get("messages", [])` -/
def messagesOf (body : Items Json) : Json := (body.get? "messages").getD (.arr [])

/-- `request_params` of the route. -/
def requestParams (body : Items Json) : Items Json :=
  body.filter fun item => item.1 ∉ Record.paramBlacklist

/-- The processor's method for the request, and what the route passes to it by
name; a stream gets a new `context_holder`. -/
def processorSignature (stream : Bool) : Signature Json :=
  if stream then processStreamSignature else processRequestSignature

def processorArguments (own : Own) (body : Items Json) : Items Json :=
  [("messages", messagesOf body), ("request_id", .str own.requestId),
    ("session_id", Json.ofOption .str own.sessionId), ("run_id", Json.ofOption .str own.runId)] ++
  (if isStream body then [("context_holder", .obj [])] else []) ++
  [("forward_headers", .obj own.forwardHeaders)]

/-- The call of `process_request` or `process_stream`. -/
def callProcessor (own : Own) (body : Items Json) : Except CallError (Bound Json) :=
  (processorSignature (isStream body)).call 1 (processorArguments own body) (requestParams body)

/-- `f"{session_id},{request_id}" if session_id else request_id` -/
def uniqueId (sessionId requestId : Json) : Json :=
  match sessionId, requestId with
  | .str session, .str request => .str (Record.uniqueId (some session) request)
  | _, request => request

/-- The call of the sender. -/
def callSender (pipeline : Pipeline) (own : Own) (stream : Bool) (bound : Bound Json) :
    Except CallError Outgoing :=
  let headers := Json.getD bound.args "forward_headers"
  match pipeline with
  | .token => sendCompletion stream
      [("prompt", own.prompt), ("model", .str own.model), ("extra_headers", headers),
        ("request_id", uniqueId (Json.getD bound.args "session_id")
          (Json.getD bound.args "request_id"))] bound.kwargs
  | .direct => sendChatCompletion stream
      [("messages", Json.getD bound.args "messages"), ("model", .str own.model),
        ("extra_headers", headers)] bound.kwargs

/-- `chat_completions` as far as arguments are passed on. -/
def serve (pipeline : Pipeline) (own : Own) (body : Items Json) : Except CallError Served := do
  let bound ← callProcessor own body
  let sent ← callSender pipeline own (isStream body) bound
  pure {
    requestId := Json.getD bound.args "request_id"
    sessionId := Json.getD bound.args "session_id"
    runId := Json.getD bound.args "run_id"
    forwardHeaders := Json.getD bound.args "forward_headers"
    requestParams := bound.kwargs
    sent := sent }

theorem free_of_subset {splat : Items Json} {reserved : List String} (keys : List String)
    (free : ∀ key ∈ splat.map Prod.fst, key ∉ reserved) (sub : keys ⊆ reserved) :
    ∀ key ∈ splat.map Prod.fst, key ∉ keys :=
  fun key mem there => free key mem (sub there)

theorem callDecorated_eq {f : Signature Json} {explicit splat : Items Json}
    (unique : f.names.Nodup) (self : f.names = "self" :: explicit.map Prod.fst)
    (free : ∀ key ∈ splat.map Prod.fst, key ∉ f.names) :
    callDecorated f explicit splat = .ok ⟨explicit, splat⟩ := by
  have apart := List.nodup_cons.mp (self ▸ unique)
  have wrapper : wrapperSignature.call 1 explicit splat = .ok ⟨[], explicit ++ splat⟩ := by
    refine Signature.call_wrapper (by decide) rfl ?_ ?_
    · intro key mem own
      exact free key mem (self ▸ List.mem_cons_of_mem _ own)
    · intro key mem isSelf
      obtain rfl := List.mem_singleton.mp isSelf
      rw [List.map_append, List.mem_append] at mem
      rcases mem with own | client
      · exact apart.1 own
      · exact free "self" client (self ▸ List.mem_cons_self)
  unfold callDecorated
  rw [bind_of_ok wrapper, Signature.call_nil]
  exact Signature.bind_named unique (by rw [self]; rfl) free

theorem callDecorated_ok {f : Signature Json} {explicit splat : Items Json} {bound : Bound Json}
    (self : f.names = "self" :: explicit.map Prod.fst)
    (h : callDecorated f explicit splat = .ok bound) :
    ∀ key ∈ splat.map Prod.fst, key ∉ f.names := by
  obtain ⟨wrapper, hwrapper, _⟩ := bind_eq_ok h
  obtain ⟨single, unfilled, _⟩ := Signature.call_ok hwrapper
  intro key mem there
  rw [self] at there
  rcases List.mem_cons.mp there with rfl | own
  · exact unfilled "self" mem List.mem_cons_self
  · exact single key mem own

theorem sendCompletion_eq {splat : Items Json} (stream : Bool) (prompt model headers id : Json)
    (free : ∀ key ∈ splat.map Prod.fst,
      key ∉ ["self", "prompt", "model", "extra_headers", "request_id", "stream"]) :
    sendCompletion stream
        [("prompt", prompt), ("model", model), ("extra_headers", headers), ("request_id", id)]
        splat = .ok ⟨headers, buildCompletionBody prompt model stream splat⟩ := by
  have bound : callDecorated sendCompletionSignature
      [("prompt", prompt), ("model", model), ("extra_headers", headers), ("request_id", id)]
      splat = .ok ⟨[("prompt", prompt), ("model", model), ("extra_headers", headers),
        ("request_id", id)], splat⟩ :=
    callDecorated_eq (by decide) rfl (free_of_subset _ free (by decide))
  have builder : buildCompletionBodySignature.call 3
      [("stream", .bool stream), ("request_id", id)] splat =
        .ok ⟨[("stream", .bool stream), ("request_id", id)], splat⟩ :=
    Signature.call_named (by decide) rfl (free_of_subset _ free (by decide))
  unfold sendCompletion
  rw [bind_of_ok bound]
  exact bind_of_ok builder

theorem sendChatCompletion_eq {splat : Items Json} (stream : Bool)
    (messages model headers : Json)
    (free : ∀ key ∈ splat.map Prod.fst,
      key ∉ ["self", "messages", "model", "extra_headers", "stream"]) :
    sendChatCompletion stream
        [("messages", messages), ("model", model), ("extra_headers", headers)] splat =
      .ok ⟨headers, buildChatBody messages model stream splat⟩ := by
  have bound : callDecorated sendChatCompletionSignature
      [("messages", messages), ("model", model), ("extra_headers", headers)] splat =
        .ok ⟨[("messages", messages), ("model", model), ("extra_headers", headers)], splat⟩ :=
    callDecorated_eq (by decide) rfl (free_of_subset _ free (by decide))
  have builder : buildChatBodySignature.call 3 [("stream", .bool stream)] splat =
      .ok ⟨[("stream", .bool stream)], splat⟩ :=
    Signature.call_named (by decide) rfl (free_of_subset _ free (by decide))
  unfold sendChatCompletion
  rw [bind_of_ok bound]
  exact bind_of_ok builder

theorem mem_requestParams {body : Items Json} {key : String} :
    key ∈ (requestParams body).map Prod.fst ↔
      key ∈ body.map Prod.fst ∧ key ∉ Record.paramBlacklist := by
  unfold requestParams
  constructor
  · intro mem
    obtain ⟨item, kept, rfl⟩ := List.mem_map.mp mem
    obtain ⟨there, passed⟩ := List.mem_filter.mp kept
    exact ⟨List.mem_map_of_mem there, of_decide_eq_true passed⟩
  · intro ⟨mem, passed⟩
    obtain ⟨item, there, rfl⟩ := List.mem_map.mp mem
    exact List.mem_map_of_mem (List.mem_filter.mpr ⟨there, decide_eq_true passed⟩)

theorem processorSignature_names (own : Own) (body : Items Json) :
    (processorSignature (isStream body)).names =
      "self" :: (processorArguments own body).map Prod.fst := by
  unfold processorSignature processorArguments
  cases isStream body <;> rfl

theorem processorSignature_nodup (stream : Bool) : (processorSignature stream).names.Nodup := by
  cases stream <;> decide

theorem callProcessor_eq {body : Items Json} (own : Own)
    (free : ∀ key ∈ (requestParams body).map Prod.fst,
      key ∉ (processorSignature (isStream body)).names) :
    callProcessor own body = .ok ⟨processorArguments own body, requestParams body⟩ := by
  refine Signature.call_named (processorSignature_nodup _) ?_ free
  rw [processorSignature_names own]
  rfl

theorem callProcessor_ok {own : Own} {body : Items Json} {bound : Bound Json}
    (h : callProcessor own body = .ok bound) :
    (∀ key ∈ (requestParams body).map Prod.fst,
        key ∉ (processorSignature (isStream body)).names) ∧
      bound = ⟨processorArguments own body, requestParams body⟩ := by
  refine Signature.call_named_ok (processorSignature_nodup _) ?_ h
  rw [processorSignature_names own]
  rfl

/-- The names the sender of a pipeline uses that the processor's method does not. -/
def senderKeys : Pipeline → List String
  | .token => ["prompt", "extra_headers"]
  | .direct => ["extra_headers"]

/-- The keys of a body that end a request with `TypeError`. -/
def reservedKeys (pipeline : Pipeline) (stream : Bool) : List String :=
  ["self", "request_id", "session_id", "run_id", "forward_headers"] ++
    (if stream then ["context_holder"] else []) ++ senderKeys pipeline

theorem reservedKeys_used (pipeline : Pipeline) (stream : Bool) :
    ∀ key ∈ reservedKeys pipeline stream, key ∉ Record.paramBlacklist ∧
      (key ∈ (processorSignature stream).names ∨ key ∈ senderKeys pipeline) := by
  cases pipeline <;> cases stream <;> decide

/-- Every name used on the way is a reserved key or one the route leaves out. -/
theorem names_subset (pipeline : Pipeline) (stream : Bool) :
    (processorSignature stream).names ⊆ reservedKeys pipeline stream ++ Record.paramBlacklist := by
  cases pipeline <;> cases stream <;> decide

/-- The proxy's own values are those of the context and of the request sent. -/
structure Own.Kept (own : Own) (pipeline : Pipeline) (body : Items Json) (served : Served) :
    Prop where
  requestId : served.requestId = .str own.requestId
  sessionId : served.sessionId = Json.ofOption .str own.sessionId
  runId : served.runId = Json.ofOption .str own.runId
  forwardHeaders : served.forwardHeaders = .obj own.forwardHeaders
  extraHeaders : served.sent.extraHeaders = .obj own.forwardHeaders
  requestParams : served.requestParams = requestParams body
  prompt : pipeline = .token → served.sent.body.get? "prompt" = some own.prompt

theorem requestParams_dict (body : Dict Json) :
    ((requestParams body.items).map Prod.fst).Nodup :=
  (List.filter_sublist.map _).nodup body.unique

theorem getD_processorArguments (own : Own) (body : Items Json) :
    Json.getD (processorArguments own body) "request_id" = .str own.requestId ∧
      Json.getD (processorArguments own body) "session_id" = Json.ofOption .str own.sessionId ∧
      Json.getD (processorArguments own body) "run_id" = Json.ofOption .str own.runId ∧
      Json.getD (processorArguments own body) "forward_headers" = .obj own.forwardHeaders := by
  unfold processorArguments
  cases isStream body <;> exact ⟨rfl, rfl, rfl, rfl⟩

/-- The client's keys are neither reserved nor left out by the route. -/
theorem requestParams_free {pipeline : Pipeline} {body : Items Json}
    (free : ∀ key ∈ reservedKeys pipeline (isStream body), key ∉ body.map Prod.fst) :
    ∀ key ∈ (requestParams body).map Prod.fst,
      key ∉ reservedKeys pipeline (isStream body) ++ Record.paramBlacklist := by
  intro key mem
  obtain ⟨there, passed⟩ := mem_requestParams.mp mem
  rw [List.mem_append, not_or]
  exact ⟨fun reserved => free key reserved there, passed⟩

theorem callSender_eq {pipeline : Pipeline} {body : Dict Json} (own : Own)
    (free : ∀ key ∈ (requestParams body.items).map Prod.fst,
      key ∉ reservedKeys pipeline (isStream body.items) ++ Record.paramBlacklist) :
    ∃ sent, callSender pipeline own (isStream body.items)
        ⟨processorArguments own body.items, requestParams body.items⟩ = .ok sent ∧
      sent.extraHeaders = .obj own.forwardHeaders ∧
      (pipeline = .token → sent.body.get? "prompt" = some own.prompt) := by
  have headers := (getD_processorArguments own body.items).2.2.2
  cases pipeline with
  | token =>
    have sub : ["self", "prompt", "model", "extra_headers", "request_id", "stream"] ⊆
        reservedKeys .token (isStream body.items) ++ Record.paramBlacklist := by
      cases isStream body.items <;> decide
    refine ⟨_, sendCompletion_eq _ _ _ _ _ (free_of_subset _ free sub), headers, fun _ => ?_⟩
    exact get?_completionBody ⟨_, requestParams_dict body⟩ _ _ _ "prompt"
  | direct =>
    have sub : ["self", "messages", "model", "extra_headers", "stream"] ⊆
        reservedKeys .direct (isStream body.items) ++ Record.paramBlacklist := by
      cases isStream body.items <;> decide
    exact ⟨_, sendChatCompletion_eq _ _ _ _ (free_of_subset _ free sub), headers,
      fun token => (nomatch token)⟩

theorem callSender_ok {pipeline : Pipeline} {own : Own} {stream : Bool} {bound : Bound Json}
    {sent : Outgoing} (h : callSender pipeline own stream bound = .ok sent) :
    ∀ key ∈ bound.kwargs.map Prod.fst, key ∉ senderKeys pipeline := by
  cases pipeline with
  | token =>
    obtain ⟨_, hcall, _⟩ := bind_eq_ok h
    exact free_of_subset _ (callDecorated_ok rfl hcall) (by decide)
  | direct =>
    obtain ⟨_, hcall, _⟩ := bind_eq_ok h
    exact free_of_subset _ (callDecorated_ok rfl hcall) (by decide)

/-- A request's arguments reach the upstream, all of them the proxy's own where
it has one, exactly if the client's body has none of the reserved keys. -/
theorem serve_iff (pipeline : Pipeline) (own : Own) (body : Dict Json) :
    (∃ served, serve pipeline own body.items = .ok served ∧
        own.Kept pipeline body.items served) ↔
      ∀ key ∈ reservedKeys pipeline (isStream body.items), key ∉ body.items.map Prod.fst := by
  constructor
  · intro ⟨served, h, _⟩ key reserved mem
    obtain ⟨bound, hprocessor, h⟩ := bind_eq_ok h
    obtain ⟨sent, hsender, _⟩ := bind_eq_ok h
    obtain ⟨free, rfl⟩ := callProcessor_ok hprocessor
    obtain ⟨passed, used⟩ := reservedKeys_used pipeline (isStream body.items) key reserved
    have client : key ∈ (requestParams body.items).map Prod.fst :=
      mem_requestParams.mpr ⟨mem, passed⟩
    rcases used with processor | sender
    · exact free key client processor
    · exact callSender_ok hsender key client sender
  · intro free
    have params := requestParams_free free
    have processor := callProcessor_eq own
      (free_of_subset _ params (names_subset pipeline (isStream body.items)))
    obtain ⟨sent, hsender, headers, prompt⟩ := callSender_eq own params
    obtain ⟨requestId, sessionId, runId, forwardHeaders⟩ :=
      getD_processorArguments own body.items
    refine ⟨⟨_, _, _, _, _, sent⟩, ?_,
      ⟨requestId, sessionId, runId, forwardHeaders, headers, rfl, prompt⟩⟩
    unfold serve
    rw [bind_of_ok processor, bind_of_ok hsender]
    rfl

/-- A client that sends a `session_id` in its body gets an error. -/
theorem serve_sessionId :
    ¬∀ (pipeline : Pipeline) (own : Own) (body : Dict Json),
      ∃ served, serve pipeline own body.items = .ok served ∧
        own.Kept pipeline body.items served := by
  intro h
  let own : Own := ⟨"r", none, none, [], "m", .arr []⟩
  let body : Dict Json :=
    ⟨[("messages", .arr []), ("model", .str "m"), ("session_id", .str "s")], by decide⟩
  obtain ⟨served, hserved, _⟩ := h .direct own body
  have raised : serve .direct own body.items = .error (.multipleValues "session_id") := rfl
  rw [raised] at hserved
  nomatch hserved

end TrajProxy.Serve
