import TrajProxy.Record.DirectRecovery
import TrajProxy.Record.StreamRecovery

/-! Which requests lose nothing in a compact row. Their messages and requests are
always given back; their ids are not when a request failed after its prompt was
encoded, when a stream stayed without ids on one side, or when an upstream usage
does not count the ids that came with it. -/

namespace TrajProxy.Record

variable {π : Type}

/-- Nothing of the request is lost in a compact row. -/
def Run.Recoverable (request : Request) : Run π → Prop
  | .token calls => calls.Recoverable
  | .tokenStream calls => calls.Recoverable request
  | .direct inference => DirectRecoverable inference
  | .directStream calls => calls.Recoverable

theorem compact_recovered_iff (env : Surroundings) (request : Request) (tokenizerPath : String)
    (run : Run π) :
    (∀ c ∈ run.handed env request, Recovered tokenizerPath c) ↔ run.Recoverable request := by
  cases run with
  | token calls => exact token_recovered_iff calls request tokenizerPath
  | tokenStream calls => exact tokenStream_recovered_iff calls request tokenizerPath
  | direct inference => exact direct_recovered_iff inference request tokenizerPath
  | directStream calls => exact directStream_recovered_iff calls request tokenizerPath

section Losses

/-- A request whose prompt has ids and that the infer service does not answer. -/
def unanswered : TokenCalls where
  tok := Pipeline.codePoints
  build := Pipeline.plainEnv
  convert := .ok "a"
  encode := .ok [97]
  complete := .error (.exception "timeout")
  decode := none
  requestParser := .ok Pipeline.noParser
  redecode := none

/-- A chat completion with ids and without a usage. -/
private def uncounted : ChatResponse where
  choices := .value [⟨.value ⟨.value "h", []⟩, .value [104], []⟩]
  usage := .missing
  promptTokenIds := .value [97]
  items := []

/-- A stream that ends at once, with neither text nor ids. -/
private def silent : TokenStreamCalls Unit where
  tok := Pipeline.codePoints
  build := Pipeline.plainEnv
  sharedParser := Pipeline.noParser
  requestParser := Pipeline.passThrough
  convert := .ok "a"
  encode := .ok [97]
  createParser := none
  rounds := [⟨.ok (Pipeline.oneChoice (.value "") (.value []) (.value "stop")), none⟩]
  exhausted := none
  redecode := none
  usageYield := none

/-- A context whose prompt's ids its compact row gives back otherwise. -/
theorem not_recovered (given : List Int) {handed : List ProcessContext} {tokenizerPath : String}
    (stored : ∃ c, handed = [c] ∧ c.tokenIds ≠ some given ∧ c.tokenIds ≠ none ∧
      recoverTokenIds (metadataRow c) (detailRow .compact tokenizerPath c) = some given) :
    ¬∀ c ∈ handed, Recovered tokenizerPath c := by
  intro all
  obtain ⟨c, stored, lost, encoded, ids⟩ := stored
  have recovered := (all c (stored ▸ List.mem_singleton_self c)).tokenIds
  obtain ⟨prompt, there⟩ := Option.ne_none_iff_exists'.mp encoded
  have column : (detailRow .full tokenizerPath c).tokenIds.getD [] = prompt := by
    change c.tokenIds.getD [] = prompt
    rw [there]
    rfl
  rw [ids, column] at recovered
  exact lost (there.trans recovered.symm)

/-- The prompt's ids of a failed request and of an empty stream are in the full row
only, and without a count the joined ids are not told apart. -/
theorem compact_row_lossy :
    (¬∀ env request tokenizerPath, ∀ calls : TokenCalls,
      ∀ c ∈ (Run.token calls : Run Unit).handed env request, Recovered tokenizerPath c) ∧
    (¬∀ env request tokenizerPath, ∀ calls : TokenStreamCalls Unit,
      ∀ c ∈ (Run.tokenStream calls).handed env request, Recovered tokenizerPath c) ∧
    ¬∀ env request tokenizerPath, ∀ inference : Except Raised ChatResponse,
      ∀ c ∈ (Run.direct inference : Run Unit).handed env request, Recovered tokenizerPath c := by
  refine ⟨fun all => ?_, fun all => ?_, fun all => ?_⟩
  · refine not_recovered [] ?_ (all quiet plainRequest "" unanswered)
    exact ⟨_, rfl, by decide, by decide, rfl⟩
  · refine not_recovered [] ?_ (all quiet plainRequest "" silent)
    exact ⟨_, rfl, by decide, by decide, rfl⟩
  · refine not_recovered [97, 104] ?_ (all quiet plainRequest "" (.ok uncounted))
    exact ⟨_, rfl, by decide, by decide, rfl⟩

end Losses

end TrajProxy.Record
