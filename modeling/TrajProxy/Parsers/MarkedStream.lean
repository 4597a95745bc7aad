import TrajProxy.Library.Search
import TrajProxy.Parsers.MarkedChunk

/-! A stream of marked tokens in the reasoning phase: the chunks before the first
marker, the chunk of the end marker, and what the base class and DeepSeek R1 say of
them. -/

namespace TrajProxy.Parsers
open Search

def hasId (id : Int) (chunk : List Token) : Bool := decide (id ∈ tokenIds chunk)

variable {M : Markers} {K : Thinking} {decoding : Decoding} {previous : List Int}
  {chunk : List Token} {chunks earlier later : List (List Token)} {id : Int}

section Chunks

theorem hasId_of_mem (mem : id ∈ tokenIds chunk) : hasId id chunk = true := decide_eq_true mem

theorem hasId_of_notMem (fresh : id ∉ tokenIds chunk) : ¬hasId id chunk = true :=
  fun has => fresh (of_decide_eq_true has)

theorem mem_flatten_iff : id ∈ tokenIds chunks.flatten ↔ ∃ chunk ∈ chunks, id ∈ tokenIds chunk := by
  simp only [mem_tokenIds, List.mem_flatten]
  constructor
  · rintro ⟨token, ⟨chunk, mem, inside⟩, here⟩
    exact ⟨chunk, mem, token, inside, here⟩
  · rintro ⟨chunk, mem, token, inside, here⟩
    exact ⟨token, ⟨chunk, mem, inside⟩, here⟩

theorem hasId_eq_false_iff :
    (∀ chunk ∈ chunks, hasId id chunk = false) ↔ id ∉ tokenIds chunks.flatten := by
  simp only [hasId, decide_eq_false_iff_not, mem_flatten_iff, not_exists, not_and]

variable {before after : List Token} {token : Token}

theorem flatten_place : (earlier ++ (before ++ token :: after) :: later).flatten =
    (earlier.flatten ++ before) ++ token :: (after ++ later.flatten) := by
  simp

/-- The chunk with a marker that comes once, cut at the marker. -/
theorem exists_place (once : (tokenIds chunks.flatten).count id ≤ 1)
    (mem : id ∈ tokenIds chunks.flatten) :
    ∃ earlier before token after later, chunks = earlier ++ (before ++ token :: after) :: later ∧
      At id (earlier.flatten ++ before) token (after ++ later.flatten) := by
  obtain ⟨chunk, mem, inside⟩ := mem_flatten_iff.mp mem
  obtain ⟨earlier, later, rfl⟩ := List.append_of_mem mem
  obtain ⟨token, mem, here⟩ := mem_tokenIds.mp inside
  obtain ⟨before, after, rfl⟩ := List.append_of_mem mem
  rw [flatten_place] at once
  exact ⟨earlier, before, token, after, later, rfl, at_of_once once here⟩

theorem notMem_parts : id ∉ tokenIds (earlier ++ chunk :: later).flatten ↔
    id ∉ tokenIds earlier.flatten ∧ id ∉ tokenIds chunk ∧ id ∉ tokenIds later.flatten := by
  simp only [List.flatten_append, List.flatten_cons, tokenIds_append, List.mem_append, not_or]

variable (at_ : At id (earlier.flatten ++ before) token (after ++ later.flatten))
include at_

theorem At.parts : id ∉ tokenIds earlier.flatten ∧ id ∉ tokenIds later.flatten ∧
    At id before token after := by
  have first := at_.before
  have second := at_.after
  rw [tokenIds_append, List.mem_append, not_or] at first second
  exact ⟨first.1, second.2, at_.here, first.2, second.1⟩

theorem At.mem_chunk : id ∈ tokenIds (before ++ token :: after) := by
  simp [at_.here]

theorem At.splitChunks :
    Search.splitFirst (hasId id) (earlier ++ (before ++ token :: after) :: later) =
      some (earlier, before ++ token :: after, later) :=
  splitFirst_append (hasId_of_mem at_.mem_chunk) (hasId_eq_false_iff.mpr at_.parts.1)

omit at_

theorem splitFirst_chunk_eq_none (fresh : id ∉ tokenIds chunks.flatten) :
    Search.splitFirst (hasId id) chunks = none :=
  splitFirst_eq_none_iff.mpr (hasId_eq_false_iff.mpr fresh)

end Chunks

section Stream

/-- The end of the reasoning for a parser that knows no `<tool_call>`. -/
theorem isReasoningEndStreaming_iff (plain : K.isQwen3 = false) :
    K.isReasoningEndStreaming M (tokenIds chunk) = true ↔ M.endTokenId ∈ tokenIds chunk := by
  cases K with
  | base => exact decide_eq_true_iff
  | deepSeekR1 => exact decide_eq_true_iff
  | qwen3 Q => nomatch plain

/-- The chunks that are left in the reasoning phase. -/
structure Thinking.Stream (M : Markers) (K : Thinking) (decoding : Decoding) (previous : List Int)
    (chunks : List (List Token)) : Prop where
  plain : K.isQwen3 = false
  opened : M.endTokenId ∉ previous
  marked : M.Marked decoding chunks.flatten
  once : M.startTokenId ∈ tokenIds chunks.flatten → M.startTokenId ∉ previous

theorem Thinking.Stream.head (stream : K.Stream M decoding previous (chunk :: later)) :
    M.Marked decoding chunk :=
  stream.marked.part (List.prefix_append chunk _).isInfix

theorem Thinking.Stream.head_once (stream : K.Stream M decoding previous (chunk :: later))
    (mem : M.startTokenId ∈ tokenIds chunk) : M.startTokenId ∉ previous :=
  stream.once (mem_flatten_iff.mpr ⟨chunk, List.mem_cons_self, mem⟩)

/-- The stream goes on after a chunk without an end marker. -/
theorem Thinking.Stream.tail (stream : K.Stream M decoding previous (chunk :: later))
    (unended : M.endTokenId ∉ tokenIds chunk) :
    K.Stream M decoding (previous ++ tokenIds chunk) later where
  plain := stream.plain
  opened := by
    rw [List.mem_append, not_or]
    exact ⟨stream.opened, unended⟩
  marked := stream.marked.part (List.suffix_append chunk _).isInfix
  once := by
    intro mem
    have all : M.startTokenId ∈ tokenIds (chunk :: later).flatten := by
      rw [List.flatten_cons, tokenIds_append]
      exact List.mem_append_right _ mem
    rw [List.mem_append, not_or]
    exact ⟨stream.once all, fun here => notMem_of_once stream.marked.start_once here mem⟩

theorem spoken_cons_end (stream : K.Stream M decoding previous (chunk :: later))
    (mem : M.endTokenId ∈ tokenIds chunk) :
    K.spoken M previous (chunk :: later) =
      (K.chunkSpoken M previous chunk).add ⟨[], chars later.flatten⟩ := by
  rw [Thinking.spoken, if_pos ((isReasoningEndStreaming_iff stream.plain).mpr mem)]

theorem spoken_cons_open (stream : K.Stream M decoding previous (chunk :: later))
    (unended : M.endTokenId ∉ tokenIds chunk) :
    K.spoken M previous (chunk :: later) =
      (K.chunkSpoken M previous chunk).add (K.spoken M (previous ++ tokenIds chunk) later) := by
  rw [Thinking.spoken, if_neg fun ends => unended
    ((isReasoningEndStreaming_iff stream.plain).mp ends)]

theorem reads_append {ids : List Int} (unstarted : M.startTokenId ∉ ids) :
    K.reads M (previous ++ ids) = K.reads M previous := by
  simp [Thinking.reads, unstarted]

theorem unmarked_add (reads : Bool) (first second : List Char) (rest : Spoken) :
    (Spoken.unmarked reads first).add ((Spoken.unmarked reads second).add rest) =
      (Spoken.unmarked reads (first ++ second)).add rest := by
  cases reads <;> simp [Spoken.unmarked, Spoken.add]

/-- The chunks before the first marker, and the stream that is left after them. -/
theorem spoken_plain (stream : K.Stream M decoding previous (earlier ++ later))
    (unstarted : M.startTokenId ∉ tokenIds earlier.flatten)
    (unended : M.endTokenId ∉ tokenIds earlier.flatten) :
    K.Stream M decoding (previous ++ tokenIds earlier.flatten) later ∧
      K.spoken M previous (earlier ++ later) =
        (Spoken.unmarked (K.reads M previous) (chars earlier.flatten)).add
          (K.spoken M (previous ++ tokenIds earlier.flatten) later) := by
  induction earlier generalizing previous with
  | nil =>
    have none : tokenIds ([] : List (List Token)).flatten = [] := rfl
    rw [none, List.append_nil, List.nil_append]
    refine ⟨stream, ?_⟩
    cases K.reads M previous <;> rfl
  | cons chunk earlier ih =>
    rw [List.flatten_cons, tokenIds_append, List.mem_append, not_or] at unstarted unended
    rw [List.cons_append] at stream
    obtain ⟨rest, said⟩ := ih (stream.tail unended.1) unstarted.2 unended.2
    rw [List.flatten_cons, tokenIds_append, ← List.append_assoc, List.cons_append]
    refine ⟨rest, ?_⟩
    rw [spoken_cons_open stream unended.1, said, reads_append unstarted.1,
      chunkSpoken_plain stream.plain stream.opened unstarted.1 unended.1, unmarked_add,
      chars_append]

end Stream

section Parts

variable {before after : List Token} {token : Token}

theorem chunk_part (earlier : List (List Token)) (later : List (List Token)) :
    chunk <:+: (earlier ++ chunk :: later).flatten := by
  rw [List.flatten_append, List.flatten_cons]
  exact List.infix_append' _ _ _

/-- No marker at all. -/
theorem spoken_unmarked (stream : K.Stream M decoding previous chunks)
    (unstarted : M.startTokenId ∉ tokenIds chunks.flatten)
    (unended : M.endTokenId ∉ tokenIds chunks.flatten) :
    K.spoken M previous chunks = .unmarked (K.reads M previous) (chars chunks.flatten) := by
  have all : chunks ++ [] = chunks := List.append_nil chunks
  obtain ⟨_, said⟩ := spoken_plain (all.symm ▸ stream) unstarted unended
  rw [all] at said
  rw [said]
  cases K.reads M previous <;> simp [Spoken.unmarked, Thinking.spoken, Spoken.add]

/-- The chunks up to that of the end marker, which comes first. -/
theorem spoken_upTo (stream : K.Stream M decoding previous (earlier ++ chunk :: later))
    (unstarted : M.startTokenId ∉ tokenIds earlier.flatten)
    (unended : M.endTokenId ∉ tokenIds earlier.flatten) (mem : M.endTokenId ∈ tokenIds chunk) :
    K.Stream M decoding (previous ++ tokenIds earlier.flatten) (chunk :: later) ∧
      K.spoken M previous (earlier ++ chunk :: later) =
        (Spoken.unmarked (K.reads M previous) (chars earlier.flatten)).add
          ((K.chunkSpoken M (previous ++ tokenIds earlier.flatten) chunk).add
            ⟨[], chars later.flatten⟩) := by
  obtain ⟨rest, said⟩ := spoken_plain stream unstarted unended
  exact ⟨rest, said.trans (congrArg _ (spoken_cons_end rest mem))⟩

/-- Where the stream is read and no start marker is left, it is cut at the end marker
like the whole text. -/
theorem spoken_read (stream : K.Stream M .kept previous chunks)
    (unstarted : M.startTokenId ∉ tokenIds chunks.flatten) (reads : K.reads M previous = true) :
    K.spoken M previous chunks = M.splitEnd chunks.flatten := by
  by_cases ends : M.endTokenId ∈ tokenIds chunks.flatten
  · obtain ⟨earlier, before, token, after, later, rfl, at_⟩ :=
      exists_place stream.marked.end_once ends
    obtain ⟨unstarted, unread, _⟩ := notMem_parts.mp unstarted
    obtain ⟨rest, said⟩ := spoken_upTo stream unstarted at_.parts.1 at_.mem_chunk
    rw [flatten_place, splitEnd_of_at at_, said, reads, chunkSpoken_end rest.plain rest.head
      at_.parts.2.2 unread ((reads_append unstarted).trans reads)]
    simp [Spoken.unmarked, Spoken.add]
  · rw [spoken_unmarked stream unstarted ends, splitEnd_of_notMem ends, reads]
    rfl

theorem reads_nil : K.reads M [] = !K.awaitsStart := by
  simp [Thinking.reads]

theorem chars_chunk_pos (marked : M.Marked .kept (before ++ token :: after))
    (here : token.id = M.startTokenId ∨ token.id = M.endTokenId) :
    (chars after).length < (chars (before ++ token :: after)).length := by
  rcases here with here | here
  · rw [marked.chars_start here, List.length_append, List.length_append]
    have shown : 0 < (Decoding.kept.shows M.startToken).toList.length :=
      List.length_pos_of_ne_nil M.startToken_tag.ne_nil
    omega
  · rw [marked.chars_end here, List.length_append, List.length_append]
    have shown : 0 < (Decoding.kept.shows M.endToken).toList.length :=
      List.length_pos_of_ne_nil M.endToken_tag.ne_nil
    omega

theorem unmarked_add_eq_iff (reads : Bool) (text : List Char) (spoken : Spoken) :
    (Spoken.unmarked reads text).add spoken = spoken ↔ text = [] := by
  obtain ⟨reasoning, content⟩ := spoken
  cases reads <;> simp [Spoken.unmarked, Spoken.add]

end Parts

end TrajProxy.Parsers
