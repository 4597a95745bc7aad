import TrajProxy.Pipeline.StreamBuffer
import TrajProxy.Pipeline.TokenRecord

/-! The token ids and the raw text that the two halves of `TokenPipeline` read
from one completion: `_decode_response` from a whole one, `_process_stream_chunk`
from one that arrives as a single chunk. A raw text is what is left to be taken
as it is where there are no ids. -/

namespace TrajProxy.Pipeline
open Text

structure IdsAndText where
  ids : List Int
  text : String
  deriving DecidableEq

/-- The ids written in a text, none if a word of it is not a number. -/
def writtenIds (text : String) : Option (List Int) := (split text).mapM int?

theorem split_blank {text : String} (h : isBlank text = true) : split text = [] := by
  have pieces : ∀ cs : List Char, cs.all isSpace = true →
      (cs.splitOnP isSpace).filter (fun word => word ≠ []) = [] := by
    intro cs blank
    induction cs with
    | nil => simp
    | cons c cs ih =>
      rw [List.all_cons, Bool.and_eq_true] at blank
      rw [List.splitOnP_cons_eq_if_modifyHead, if_pos blank.1, List.filter_cons_of_neg (by simp),
        ih blank.2]
  rw [split, pieces _ h, List.map_nil]

theorem parseTokenIdsFromText_eq (text : String) :
    parseTokenIdsFromText text = writtenIds text := by
  unfold parseTokenIdsFromText writtenIds
  by_cases blank : isBlank text = true
  · rw [if_pos blank, split_blank blank]
    rfl
  · rw [if_neg blank]

/-- `parse_text_response`, then `parse_token_ids_from_text` where it has no ids. -/
def readResponse (response : InferResponse) : IdsAndText :=
  let (text, tokenIds) := parseTextResponse response
  match nonemptyIds tokenIds with
  | some ids => ⟨ids, ""⟩
  | none =>
    match parseTokenIdsFromText (text.getD "") with
    | some ids => ⟨ids, ""⟩
    | none => ⟨[], text.getD ""⟩

/-- `parse_stream_chunk`, whose content is used where it has no ids. -/
def readChunk (chunk : InferResponse) : Except String IdsAndText := do
  let parsed ← parseStreamChunk chunk
  pure ⟨parsed.tokenIds, if parsed.tokenIds = [] then parsed.content else ""⟩

/-- What `_decode_response` keeps is what is read. -/
theorem decodeResponse_read {tok : Tokenizer} {response : InferResponse} {decoded : String}
    {ids : Option (List Int)} (h : decodeResponse tok response = .ok (decoded, ids)) :
    ids.getD [] = (readResponse response).ids ∧
      decoded = if ids = none then (readResponse response).text
        else tok.decode (readResponse response).ids := by
  unfold decodeResponse at h
  unfold readResponse
  dsimp only at h ⊢
  cases hids : nonemptyIds (parseTextResponse response).2 with
  | some ids' =>
    rw [hids] at h
    obtain ⟨rfl, rfl⟩ := Prod.mk.inj (Except.ok.inj h)
    exact ⟨rfl, rfl⟩
  | none =>
    rw [hids] at h
    cases htext : (parseTextResponse response).1.filter (· ≠ "") with
    | none =>
      rw [htext] at h
      nomatch h
    | some plain =>
      have read : (parseTextResponse response).1 = some plain :=
        (Option.filter_eq_some_iff.mp htext).1
      rw [htext] at h
      rw [read]
      dsimp only [Option.getD_some] at h ⊢
      cases hparsed : parseTokenIdsFromText plain with
      | some ids' =>
        rw [hparsed] at h
        obtain ⟨rfl, rfl⟩ := Prod.mk.inj (Except.ok.inj h)
        exact ⟨rfl, rfl⟩
      | none =>
        rw [hparsed] at h
        obtain ⟨rfl, rfl⟩ := Prod.mk.inj (Except.ok.inj h)
        exact ⟨rfl, rfl⟩

/-- What `_process_stream_chunk` decodes is what is read. -/
theorem decodeChunk_read {π : Type} (tok : Tokenizer) {chunk : InferResponse}
    {parsed : ParsedChunk} {read : IdsAndText} (ctx : StreamContext π)
    (hparsed : parseStreamChunk chunk = .ok parsed) (h : readChunk chunk = .ok read) :
    decodeChunk tok parsed ctx =
      if read.ids = [] then (read.text, ctx) else decodeStreaming tok read.ids ctx := by
  unfold readChunk at h
  rw [hparsed] at h
  obtain rfl := Except.ok.inj h
  unfold decodeChunk
  by_cases hids : parsed.tokenIds = []
  · rw [if_pos (List.isEmpty_iff.mpr hids), if_pos hids, if_pos hids]
  · rw [if_neg (fun h => hids (List.isEmpty_iff.mp h)), if_neg hids]

/-- The ids beside the text; `output_token_ids` is looked at in a chunk only, and
only where the key `token_ids` is missing. -/
def InferChoice.namedIds (choice : InferChoice) : Field (List Int) :=
  match choice.tokenIds with
  | .missing => choice.outputTokenIds
  | tokenIds => tokenIds

/-- The ids beside the text are the same to both parsers. -/
def InferChoice.IdsAgree (choice : InferChoice) : Prop :=
  match choice.namedIds with
  | .missing => True
  | named => nonemptyIds choice.tokenIds.get ≠ none ∨
      named.get.getD [] = (writtenIds choice.text.text).getD []

theorem parseTextResponse_cons {response : InferResponse} {choice : InferChoice}
    {rest : List InferChoice} (h : response.choices = choice :: rest) :
    (parseTextResponse response).1.getD "" = choice.text.text ∧
      (parseTextResponse response).2 = choice.tokenIds.get := by
  obtain ⟨choices, usage, extras⟩ := response
  obtain rfl : choices = choice :: rest := h
  obtain ⟨text, _, _, _, _, _, _⟩ := choice
  cases text <;> exact ⟨rfl, rfl⟩

theorem readResponse_single (choice : InferChoice) (usage : Field (Items Json))
    (extras : Items Json) :
    readResponse ⟨[choice], usage, extras⟩ =
      match nonemptyIds choice.tokenIds.get with
      | some ids => ⟨ids, ""⟩
      | none =>
        match writtenIds choice.text.text with
        | some ids => ⟨ids, ""⟩
        | none => ⟨[], choice.text.text⟩ := by
  have single : (InferResponse.mk [choice] usage extras).choices = [choice] := rfl
  obtain ⟨text, tokenIds⟩ := parseTextResponse_cons single
  unfold readResponse
  dsimp only
  rw [text, tokenIds, parseTokenIdsFromText_eq]

theorem readChunk_single (choice : InferChoice) (usage : Field (Items Json))
    (extras : Items Json) (there : choice.text ≠ .null) :
    readChunk ⟨[choice], usage, extras⟩ =
      let written := writtenIds choice.text.text
      let ids :=
        match choice.namedIds with
        | .missing => written.getD []
        | named => named.get.getD []
      .ok ⟨ids, if ids = [] ∧ written = none then choice.text.text else ""⟩ := by
  have text : parseChunkText choice =
      .ok (if writtenIds choice.text.text = none then choice.text.text else "",
        (writtenIds choice.text.text).getD []) := by
    unfold parseChunkText Field.text
    cases htext : choice.text with
    | null => exact absurd htext there
    | missing => rfl
    | value text =>
      have hparse := parseTokenIdsFromText_eq text
      dsimp only [Field.get, Option.getD_some]
      by_cases hwritten : writtenIds text = none
      · simp [hparse, hwritten]
      · obtain ⟨ids, hids⟩ := Option.ne_none_iff_exists'.mp hwritten
        simp [hparse, hids]
  unfold readChunk parseStreamChunk InferChoice.namedIds
  dsimp only
  rw [text]
  dsimp only [bind, Except.bind, pure, Except.pure]
  cases choice.tokenIds <;> cases choice.outputTokenIds <;>
    by_cases written : writtenIds choice.text.text = none <;>
    simp [written, Field.get]

theorem readChunk_null {choice : InferChoice} (usage : Field (Items Json))
    (extras : Items Json) (h : choice.text = .null) :
    readChunk ⟨[choice], usage, extras⟩ = .error "AttributeError" := by
  have text : parseChunkText choice = .error "AttributeError" := by
    rw [parseChunkText, h]
  unfold readChunk parseStreamChunk
  dsimp only
  rw [text]
  rfl

theorem idsAgree_of_tokenIds {choice : InferChoice} {ids : List Int}
    (h : nonemptyIds choice.tokenIds.get = some ids) :
    choice.namedIds = .value ids ∧ ids ≠ [] ∧ choice.IdsAgree := by
  obtain ⟨held, nonempty⟩ := Option.filter_eq_some_iff.mp h
  have value : choice.tokenIds = .value ids := by
    cases hids : choice.tokenIds with
    | value ids' =>
      rw [hids] at held
      rw [Option.some.inj held]
    | missing =>
      rw [hids] at held
      nomatch held
    | null =>
      rw [hids] at held
      nomatch held
  have named : choice.namedIds = .value ids := by rw [InferChoice.namedIds, value]
  refine ⟨named, by simpa using nonempty, ?_⟩
  rw [InferChoice.IdsAgree, named, h]
  exact Or.inl (Option.some_ne_none ids)

/-- The two parsers recover the same ids and raw text from a completion with one
choice exactly if its text is not `null` and the ids beside it agree. -/
theorem readChunk_eq_readResponse_iff (choice : InferChoice) (usage : Field (Items Json))
    (extras : Items Json) :
    readChunk ⟨[choice], usage, extras⟩ = .ok (readResponse ⟨[choice], usage, extras⟩) ↔
      choice.text ≠ .null ∧ choice.IdsAgree := by
  by_cases there : choice.text = .null
  · rw [readChunk_null usage extras there]
    exact ⟨fun h => (nomatch h), fun h => absurd there h.1⟩
  rw [readChunk_single choice usage extras there, readResponse_single]
  dsimp only
  cases hids : nonemptyIds choice.tokenIds.get with
  | some ids =>
    obtain ⟨named, nonempty, agree⟩ := idsAgree_of_tokenIds hids
    rw [named]
    simp [Field.get, nonempty, there, agree]
  | none =>
    unfold InferChoice.IdsAgree
    rw [hids]
    generalize choice.text.text = text
    generalize choice.namedIds = named
    by_cases written : writtenIds text = none
    · rw [written]
      cases named <;> simp +contextual [there, Field.get]
    · obtain ⟨ids, hwritten⟩ := Option.ne_none_iff_exists'.mp written
      rw [hwritten]
      cases named <;> simp [there, Field.get]

/-- An `output_token_ids` beside a plain text is read from a chunk only. -/
theorem outputTokenIds_disagree :
    ¬∀ (choice : InferChoice) (usage : Field (Items Json)) (extras : Items Json),
      readChunk ⟨[choice], usage, extras⟩ = .ok (readResponse ⟨[choice], usage, extras⟩) := by
  intro h
  have agree := h ⟨.value "hi", .missing, .value [1, 2], .value "stop", .missing, .missing, []⟩
    .missing []
  exact absurd (Except.ok.inj agree) (by decide)

end TrajProxy.Pipeline
