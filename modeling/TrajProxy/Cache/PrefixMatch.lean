import Mathlib.Data.List.Sort
import TrajProxy.Library.Transition
import TrajProxy.Pipeline.StreamBuffer
import TrajProxy.Pipeline.TokenRecord

/-! `PrefixMatchCache` and the trajectories it reads. The requests of one
session write rows one after the other, in the order of `start_time`; each
looks up the rows written before it. Rows of other sessions appear and rows are
archived at any time. -/

namespace TrajProxy.Cache
open Pipeline Text Transition

structure Row where
  sessionId : String
  archived : Bool
  fullConversationText : Option String
  fullConversationTokenIds : Option (List Int)

/-- `RequestRepository.get_prefix_candidates`, newest first. -/
def getPrefixCandidates (rows : List Row) (sessionId : String) : List Row :=
  (rows.filter fun row => row.sessionId = sessionId ∧ row.archived = false ∧
    row.fullConversationText ≠ none ∧ row.fullConversationText ≠ some "").reverse

def Row.tokenCount (row : Row) : Nat := (row.fullConversationTokenIds.getD []).length

def Row.matchesPrefix (text : String) (row : Row) : Bool :=
  match row.fullConversationText with
  | none | some "" => false
  | some cachedText => startsWith text cachedText

/-- `_find_longest_prefix_match`; the sort is stable and descending. -/
def findLongestPrefixMatch (text : String) (history : List Row) : Option Row :=
  (history.insertionSort fun a b => b.tokenCount ≤ a.tokenCount).find? (·.matchesPrefix text)

structure Encoded where
  tokenIds : List Int
  cachedTokenIds : List Int
  uncachedText : String
  uncachedTokenIds : List Int
  cacheHitTokens : Option Nat

def encodeUncached (tok : Tokenizer) (text : String) : Encoded where
  tokenIds := tok.encode text
  cachedTokenIds := []
  uncachedText := text
  uncachedTokenIds := tok.encode text
  cacheHitTokens := none

/-- `encode_with_cache` after a match. -/
def encodeMatched (tok : Tokenizer) (text : String) (row : Row) : Encoded :=
  let cachedTokens := row.fullConversationTokenIds.getD []
  let uncachedText := dropFirst text (row.fullConversationText.getD "").length
  let uncachedTokens := if uncachedText = "" then [] else tok.encode uncachedText
  { tokenIds := cachedTokens ++ uncachedTokens
    cachedTokenIds := cachedTokens
    uncachedText := uncachedText
    uncachedTokenIds := uncachedTokens
    cacheHitTokens := some cachedTokens.length }

/-- `PrefixMatchCache.encode_with_cache` -/
def encodeWithCache (tok : Tokenizer) (rows : List Row) (sessionId : Option String)
    (text : String) : Encoded :=
  match sessionId.filter (· ≠ "") with
  | none => encodeUncached tok text
  | some sessionId =>
    match findLongestPrefixMatch text (getPrefixCandidates rows sessionId) with
    | some row => encodeMatched tok text row
    | none => encodeUncached tok text

/-- One request, with all that decides what it stores, or a change made by
others. A stream has `chunks` up to its end or cancellation, `none` if it was
cancelled before the prompt was encoded. -/
inductive Action (π : Type)
  | process (promptText : String) (env : BuildEnv) (parser : MessageParser)
      (response : InferResponse)
  | processStream (promptText : String) (env : BuildEnv) (sharedParser : MessageParser)
      (requestParser : RequestParser π) (chunks : Option (List InferResponse))
  /-- `process` failed before it had an upstream response -/
  | failed
  /-- the insert failed, or there was no insert -/
  | notStored
  | archive (row : Nat)
  | otherSession (row : Row)

variable {π : Type}

/-- What is stored of the request: nothing, or a row whose conversation is
`none` if `process` failed. -/
def Action.stored (tok : Tokenizer) (sessionId : Option String) (rows : List Row) :
    Action π → Option (Option Trajectory)
  | .process promptText env parser response =>
    let tokenIds := (encodeWithCache tok rows sessionId promptText).tokenIds
    some (Pipeline.process tok env parser promptText tokenIds response).toOption
  | .processStream promptText env sharedParser P (some chunks) =>
    let tokenIds := (encodeWithCache tok rows sessionId promptText).tokenIds
    match processChunks tok P tokenIds (.initial P) chunks with
    | .ok (_, ctx) =>
      (finalizeStream tok env sharedParser promptText (some tokenIds) ctx).toOption.map some
    | .error _ => none
  | .processStream promptText env sharedParser P none =>
    (finalizeStream tok env sharedParser promptText none (.initial P)).toOption.map some
  | .failed => some none
  | _ => none

def trajectoryRow (sessionId : Option String) (trajectory : Option Trajectory) : Row where
  sessionId := sessionId.getD ""
  archived := false
  fullConversationText := trajectory.map Trajectory.fullConversationText
  fullConversationTokenIds := trajectory.bind Trajectory.fullConversationTokenIds

def archiveRow (rows : List Row) (i : Nat) : List Row :=
  rows.modify i fun row => { row with archived := true }

def step (tok : Tokenizer) (sessionId : Option String) (rows : List Row) :
    Action π → Option (List Row)
  | .archive i => some (archiveRow rows i)
  | .otherSession row => if row.sessionId = sessionId.getD "" then none else some (rows ++ [row])
  | action => some (rows ++
      ((action.stored tok sessionId rows).map (trajectoryRow sessionId)).toList)

def machine (tok : Tokenizer) (sessionId : Option String) : Machine (List Row) (Action π) where
  step := step tok sessionId

/-- The conversation's ids can be stored next to its text: the response has
ids (not only a text) or is empty, and so has the prompt. -/
def Action.KeepsIds (tok : Tokenizer) : Action π → Prop
  | .process promptText _ _ response =>
    match decodeResponse tok response with
    | .ok (_, some ids) => tok.decode ids = "" ∨ tok.encode promptText ≠ []
    | .ok (_, none) => False
    | .error _ => True
  | .processStream promptText _ _ _ (some chunks) =>
    if streamedIds chunks = [] then promptText = ""
    else tok.decode (streamedIds chunks) = "" ∨ tok.encode promptText ≠ []
  | .processStream promptText _ _ _ none => promptText = ""
  | _ => True

/-- The condition on a request that stores a conversation. -/
def Admitted (tok : Tokenizer) (sessionId : Option String) (rows : List Row) (action : Action π) :
    Prop :=
  ∀ trajectory, action.stored tok sessionId rows = some (some trajectory) → action.KeepsIds tok

/-- What is assumed of a tokenizer. -/
structure Faithful (tok : Tokenizer) : Prop where
  decode_encode : ∀ text, tok.decode (tok.encode text) = text
  decode_append : ∀ ids ids', tok.decode (ids ++ ids') = tok.decode ids ++ tok.decode ids'

structure Encoded.Sound (tok : Tokenizer) (text : String) (encoded : Encoded) : Prop where
  decodes : tok.decode encoded.tokenIds = text
  split : encoded.tokenIds = encoded.cachedTokenIds ++ encoded.uncachedTokenIds
  hits : encoded.cacheHitTokens.getD 0 = encoded.cachedTokenIds.length

end TrajProxy.Cache
