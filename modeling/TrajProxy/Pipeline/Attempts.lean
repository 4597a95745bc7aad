import TrajProxy.Library.Effect

/-! The control flow of the four request functions around `_store_trajectory`.
A script gives the outcome of every call and of every `yield`: a call returns
or raises, a `yield` is resumed or has an exception thrown into it. The state
counts the attempts to store; the only other data kept is `prompt_text`, on
which `_finalize_stream` fails when it is still `None`. -/

namespace TrajProxy.Pipeline

/-- The end of one `request_repository.insert`. -/
inductive InsertOutcome
  | stored
  | databaseError
  | raised (e : Raised)

structure Attempts where
  stores : Nat
  finalizes : Nat
  promptText : Option String
  deriving DecidableEq

def Attempts.initial : Attempts := ⟨0, 0, none⟩

/-- `_store_trajectory`: a `DatabaseError` ends here. -/
def storeTrajectory (insert : Nat → InsertOutcome) : Py Attempts Unit := do
  let s ← Py.read
  Py.modify fun s => { s with stores := s.stores + 1 }
  match insert s.stores with
  | .raised e => Py.raise e
  | _ => pure ()

/-- The `except Exception` of both `process` functions. -/
def storeFailed (insert : Nat → InsertOutcome) (e : Raised) : Py Attempts Unit := do
  Py.tryExcept (storeTrajectory insert) fun _ => pure ()
  Py.raise e

structure TokenScript where
  transform : Except Raised String
  encode : Option Raised
  inference : Option Raised
  decode : Option Raised
  updateStats : Option Raised
  createParser : Option Raised
  buildResponse : Option Raised
  updateTiming : Option Raised
  insert : Nat → InsertOutcome

def TokenScript.stages (script : TokenScript) : List (Option Raised) :=
  [script.encode, script.inference, script.decode, script.updateStats, script.createParser,
    script.buildResponse, script.updateTiming]

/-- `context.prompt_text = await self.message_converter.convert(…)` -/
def transformMessages (transform : Except Raised String) : Py Attempts Unit := do
  let text ← Py.ofExcept transform
  Py.modify fun s => { s with promptText := some text }

/-- `TokenPipeline.process` -/
def tokenProcess (script : TokenScript) : Py Attempts Unit :=
  Py.tryExcept
    (do
      transformMessages script.transform
      Py.callAll script.stages
      storeTrajectory script.insert)
    (storeFailed script.insert)

structure DirectScript where
  inference : Option Raised
  extractFields : Option Raised
  updateTiming : Option Raised
  postprocess : Option Raised
  insert : Nat → InsertOutcome

/-- `DirectPipeline.process`: the fields only kept for the trajectory are
removed from the response after it has been stored. -/
def directProcess (script : DirectScript) : Py Attempts Unit :=
  Py.tryExcept
    (do
      Py.callAll [script.inference, script.extractFields, script.updateTiming]
      storeTrajectory script.insert
      Py.callAll [script.postprocess])
    (storeFailed script.insert)

/-- One round of the `async for` over the upstream chunks. -/
structure Round where
  receive : Option Raised
  processChunk : Option Raised
  /-- `none` when the chunk is not passed on, else how the `yield` ends -/
  yielded : Option (Option Raised)
  finished : Bool

def Round.calls (round : Round) : List (Option Raised) :=
  [round.receive, round.processChunk, round.yielded.getD none]

/-- The rounds of a stream; `exhausted` is the call that finds no more chunk. -/
def streamRounds (exhausted : Option Raised) : List Round → Py Attempts Unit
  | [] => Py.callAll [exhausted]
  | round :: rest => do
    Py.callAll round.calls
    if round.finished then pure () else streamRounds exhausted rest

structure TokenStreamScript where
  transform : Except Raised String
  encode : Option Raised
  createParser : Option Raised
  rounds : List Round
  exhausted : Option Raised
  /-- the message of what call number `n` of `_finalize_stream` raises before it
  reaches the concatenation with `prompt_text` -/
  finalize : Nat → Option String
  insert : Nat → InsertOutcome
  /-- `none` when `completion_tokens` is 0, else how the last `yield` ends -/
  usageYield : Option (Option Raised)

/-- `TokenPipeline._finalize_stream` -/
def tokenFinalize (script : TokenStreamScript) : Py Attempts Unit := do
  let s ← Py.read
  Py.modify fun s => { s with finalizes := s.finalizes + 1 }
  match script.finalize s.finalizes, s.promptText with
  | some message, _ => Py.raise (.exception message)
  | none, none => Py.raise (.exception "TypeError")
  | none, some _ => storeTrajectory script.insert

/-- `TokenPipeline.process_stream` -/
def tokenProcessStream (script : TokenStreamScript) : Py Attempts Unit :=
  Py.tryCancelled
    (do
      transformMessages script.transform
      Py.callAll [script.encode, script.createParser]
      streamRounds script.exhausted script.rounds
      tokenFinalize script
      Py.callAll [script.usageYield.getD none])
    (do
      Py.tryExcept (tokenFinalize script) fun _ => pure ()
      Py.raise .cancelled)
    Py.raise

structure DirectStreamScript where
  rounds : List Round
  exhausted : Option Raised
  finalize : Option String
  insert : Nat → InsertOutcome

/-- `DirectPipeline._finalize_stream` -/
def directFinalize (script : DirectStreamScript) : Py Attempts Unit := do
  match script.finalize with
  | some message => Py.raise (.exception message)
  | none => storeTrajectory script.insert

/-- `DirectPipeline.process_stream`: chunks do not end the loop. -/
def directProcessStream (script : DirectStreamScript) : Py Attempts Unit :=
  Py.tryExcept
    (do
      streamRounds script.exhausted (script.rounds.map ({ · with finished := false }))
      directFinalize script)
    Py.raise

inductive Request
  | token (script : TokenScript)
  | tokenStream (script : TokenStreamScript)
  | direct (script : DirectScript)
  | directStream (script : DirectStreamScript)

def Request.run : Request → Py Attempts Unit
  | .token script => tokenProcess script
  | .tokenStream script => tokenProcessStream script
  | .direct script => directProcess script
  | .directStream script => directProcessStream script

/-- How often `_store_trajectory` is called for the request. -/
def Request.stores (request : Request) : Nat := (request.run.run Attempts.initial).2.stores

/-- What ends the loop over the chunks early, if anything does. -/
def roundsRaised (exhausted : Option Raised) : List Round → Option Raised
  | [] => exhausted
  | round :: rest =>
    match Py.firstRaised round.calls with
    | some e => some e
    | none => if round.finished then none else roundsRaised exhausted rest

def TokenScript.raised (script : TokenScript) : Option Raised :=
  match script.transform with
  | .error e => some e
  | .ok _ => Py.firstRaised script.stages

def TokenScript.StoredOnce (script : TokenScript) : Prop :=
  match script.raised with
  | some e => e.isException = true
  | none => ∀ e, script.insert 0 = .raised e → e.isException = false

def DirectScript.StoredOnce (script : DirectScript) : Prop :=
  match Py.firstRaised [script.inference, script.extractFields, script.updateTiming] with
  | some e => e.isException = true
  | none =>
    match script.insert 0 with
    | .raised e => e.isException = false
    | _ => ∀ e, script.postprocess = some e → e.isException = false

/-- What keeps the stream from reaching `_finalize_stream`. -/
def TokenStreamScript.raised (script : TokenStreamScript) : Option Raised :=
  match script.transform with
  | .error e => some e
  | .ok _ =>
    match Py.firstRaised [script.encode, script.createParser] with
    | some e => some e
    | none => roundsRaised script.exhausted script.rounds

/-- A cancellation after the store, which sends the stream to `_finalize_stream` again. -/
def TokenStreamScript.CancelledAfterStore (script : TokenStreamScript) : Prop :=
  script.insert 0 = .raised .cancelled ∨
    ((∀ e, script.insert 0 ≠ .raised e) ∧ script.usageYield = some (some .cancelled))

def TokenStreamScript.StoredOnce (script : TokenStreamScript) : Prop :=
  match script.raised with
  | some e => e = .cancelled ∧ script.transform.isOk = true ∧ script.finalize 0 = none
  | none => script.finalize 0 = none ∧
      (script.CancelledAfterStore → script.finalize 1 ≠ none)

def DirectStreamScript.StoredOnce (script : DirectStreamScript) : Prop :=
  roundsRaised script.exhausted (script.rounds.map ({ · with finished := false })) = none ∧
    script.finalize = none

def Request.StoredOnce : Request → Prop
  | .token script => script.StoredOnce
  | .tokenStream script => script.StoredOnce
  | .direct script => script.StoredOnce
  | .directStream script => script.StoredOnce

end TrajProxy.Pipeline
