import TrajProxy.Parsers.MarkedStream

/-! When the base class and DeepSeek R1 say the same of a stream and of the whole text.
The stream goes by token ids and cuts the text at the marker, which may not be
there; what comes before the start marker, and a marker in a chunk with other
tokens, is treated in one way by the stream and in another by the whole text. -/

namespace TrajProxy.Parsers
open Search

section Conditions

variable (M : Markers) (K : Thinking)

/-- No start marker: the base class takes everything up to the end marker's chunk, and
that chunk, for content. -/
def Thinking.UnstartedAgree (chunks : List (List Token)) : Prop :=
  match splitFirst (hasId M.endTokenId) chunks with
  | none => K.awaitsStart = true → chars chunks.flatten = []
  | some (earlier, chunk, _) =>
    K.awaitsStart = true → chars earlier.flatten = [] ∧ tokenIds chunk = [M.endTokenId]

/-- The chunk with the start marker, and the tokens before and after the marker in it. -/
def Markers.StartedAgree (earlier : List (List Token)) (chunk before after : List Token) : Prop :=
  M.endTokenId ∉ tokenIds earlier.flatten ∧ M.endTokenId ∉ tokenIds before ∧
    chars earlier.flatten = [] ∧
    (tokenIds chunk = [M.startTokenId] ∨ M.endTokenId ∈ tokenIds after)

/-- The condition where the markers are kept. -/
def Thinking.KeptAgree (chunks : List (List Token)) : Prop :=
  match splitFirst (hasId M.startTokenId) chunks with
  | none => K.UnstartedAgree M chunks
  | some (earlier, chunk, _) =>
    match splitFirst (Token.isId M.startTokenId) chunk with
    | none => False
    | some (before, _, after) => M.StartedAgree earlier chunk before after

/-- The end marker where it is stripped: no text in its chunk, and none after it. -/
def Markers.HiddenAgree (chunks : List (List Token)) : Prop :=
  match splitFirst (hasId M.endTokenId) chunks with
  | none => True
  | some (_, chunk, later) => chars chunk = [] ∧ chars later.flatten = []

/-- The chunks before the first marker. -/
def Markers.unmarked (chunks : List (List Token)) : List (List Token) :=
  chunks.takeWhile fun chunk => !hasId M.startTokenId chunk && !hasId M.endTokenId chunk

/-- The condition where the markers are stripped. -/
def Thinking.StrippedAgree (chunks : List (List Token)) : Prop :=
  (K.awaitsStart = true → chars (M.unmarked chunks).flatten = []) ∧ M.HiddenAgree chunks

/-- The condition for the base class and DeepSeek R1. Where the prompt ends the
reasoning the stream is all content. -/
def Thinking.BaseAgree (decoding : Decoding) (promptTokenIds : Option (List Int))
    (chunks : List (List Token)) : Prop :=
  if K.promptEnds M promptTokenIds then chars chunks.flatten = []
  else
    match decoding with
    | .kept => K.KeptAgree M chunks
    | .stripped => K.StrippedAgree M chunks

end Conditions

variable {M : Markers} {K : Thinking} {decoding : Decoding} {previous : List Int}
  {chunk : List Token} {chunks earlier later : List (List Token)} {id : Int}

section Stripped

theorem hiddenAgree_cons_end (mem : M.endTokenId ∈ tokenIds chunk) :
    M.HiddenAgree (chunk :: later) ↔ chars chunk = [] ∧ chars later.flatten = [] := by
  rw [Markers.HiddenAgree, splitFirst, if_pos (hasId_of_mem mem)]

theorem hiddenAgree_cons (unended : M.endTokenId ∉ tokenIds chunk) :
    M.HiddenAgree (chunk :: later) ↔ M.HiddenAgree later := by
  unfold Markers.HiddenAgree
  rw [splitFirst, if_neg (hasId_of_notMem unended)]
  cases splitFirst (hasId M.endTokenId) later with
  | none => exact Iff.rfl
  | some found => exact Iff.rfl

theorem unmarked_cons_marked
    (marked : M.startTokenId ∈ tokenIds chunk ∨ M.endTokenId ∈ tokenIds chunk) :
    M.unmarked (chunk :: later) = [] := by
  rw [Markers.unmarked, List.takeWhile_cons, if_neg]
  rcases marked with mem | mem <;> simp [hasId, mem]

theorem unmarked_cons_plain (unstarted : M.startTokenId ∉ tokenIds chunk)
    (unended : M.endTokenId ∉ tokenIds chunk) :
    M.unmarked (chunk :: later) = chunk :: M.unmarked later := by
  rw [Markers.unmarked, List.takeWhile_cons, if_pos]
  · rfl
  · simp [hasId, unstarted, unended]

/-- Reasoning that is said before the rest. -/
theorem add_reasoning_iff (text more : List Char) (rest : Spoken) :
    (⟨text, []⟩ : Spoken).add rest = ⟨text ++ more, []⟩ ↔ rest = ⟨more, []⟩ := by
  obtain ⟨reasoning, content⟩ := rest
  simp [Spoken.add]

/-- Text that is taken for content before the rest, though no end marker came. -/
theorem add_content_iff (text more : List Char) (rest : Spoken) :
    (⟨[], text⟩ : Spoken).add rest = ⟨text ++ more, []⟩ ↔ text = [] ∧ rest = ⟨more, []⟩ := by
  obtain ⟨reasoning, content⟩ := rest
  simp only [Spoken.add, Spoken.mk.injEq, List.append_eq_nil_iff, List.nil_append]
  constructor
  · rintro ⟨rfl, rfl, rfl⟩
    exact ⟨rfl, rfl, rfl⟩
  · rintro ⟨rfl, rfl, rfl⟩
    exact ⟨rfl, rfl, rfl⟩

/-- The chunk of the end marker, with nothing shown: what it loses is missing. -/
theorem boundary_stripped_iff (stream : K.Stream M .stripped previous (chunk :: later))
    (mem : M.endTokenId ∈ tokenIds chunk) :
    (K.chunkSpoken M previous chunk).add ⟨[], chars later.flatten⟩ =
        ⟨chars chunk ++ chars later.flatten, []⟩ ↔
      chars chunk = [] ∧ chars later.flatten = [] := by
  obtain ⟨loses, nothing⟩ := chunkSpoken_stripped stream.plain stream.head mem stream.head_once
  constructor
  · intro same
    obtain ⟨reasoning, content⟩ := Spoken.ext_iff.mp same
    have silent : chars later.flatten = [] := (List.append_eq_nil_iff.mp content).2
    have length := congrArg List.length reasoning
    simp only [Spoken.add, silent, List.append_nil] at length
    have empty : (chars chunk).length = 0 := by omega
    exact ⟨List.eq_nil_of_length_eq_zero empty, silent⟩
  · rintro ⟨empty, silent⟩
    rw [nothing empty, empty, silent]
    rfl

/-- The chunk of a stripped start marker is taken for reasoning. -/
theorem chunkSpoken_start_stripped (stream : K.Stream M .stripped previous (chunk :: later))
    (mem : M.startTokenId ∈ tokenIds chunk) (unended : M.endTokenId ∉ tokenIds chunk) :
    K.chunkSpoken M previous chunk = ⟨chars chunk, []⟩ := by
  rw [chunkSpoken_start stream.plain stream.opened mem unended]
  split_ifs with only
  · obtain ⟨token, rfl, here⟩ := List.map_eq_singleton_iff.mp only
    rw [chars_cons, stream.head.start_text token List.mem_cons_self here]
    rfl
  · rfl

/-- Stripped markers: what the stream says is all the text as reasoning. -/
theorem spoken_stripped_iff (stream : K.Stream M .stripped previous chunks) :
    K.spoken M previous chunks = ⟨chars chunks.flatten, []⟩ ↔
      (K.reads M previous = false → chars (M.unmarked chunks).flatten = []) ∧
        M.HiddenAgree chunks := by
  induction chunks generalizing previous with
  | nil => exact iff_of_true rfl ⟨fun _ => rfl, trivial⟩
  | cons chunk later ih =>
    rw [List.flatten_cons, chars_append]
    by_cases ends : M.endTokenId ∈ tokenIds chunk
    · rw [spoken_cons_end stream ends, boundary_stripped_iff stream ends, hiddenAgree_cons_end ends,
        unmarked_cons_marked (.inr ends)]
      exact (and_iff_right fun _ => rfl).symm
    · have rest := ih (stream.tail ends)
      rw [spoken_cons_open stream ends, hiddenAgree_cons ends]
      by_cases starts : M.startTokenId ∈ tokenIds chunk
      · have reads : K.reads M (previous ++ tokenIds chunk) = true := by
          simp [Thinking.reads, starts]
        rw [chunkSpoken_start_stripped stream starts ends, add_reasoning_iff, rest, reads,
          unmarked_cons_marked (.inl starts)]
        simp
      · rw [chunkSpoken_plain stream.plain stream.opened starts ends,
          unmarked_cons_plain starts ends, List.flatten_cons, chars_append]
        cases reads : K.reads M previous with
        | true =>
          rw [reads_append starts, reads] at rest
          rw [Spoken.unmarked, if_pos rfl, add_reasoning_iff, rest]
          simp
        | false =>
          rw [reads_append starts, reads] at rest
          rw [Spoken.unmarked, if_neg Bool.false_ne_true, add_content_iff, rest]
          simp [and_assoc]

end Stripped

section Kept

variable {before after : List Token} {token : Token}

/-- The base class has said no reasoning when the end marker comes. -/
theorem unread_boundary_iff (marked : M.Marked .kept (before ++ token :: after))
    (here : token.id = M.endTokenId) (first rest : List Char) :
    (Spoken.unmarked false first).add
        ((⟨[], if tokenIds (before ++ token :: after) = [M.endTokenId] then []
          else chars (before ++ token :: after)⟩ : Spoken).add ⟨[], rest⟩) =
        ⟨first ++ chars before, chars after ++ rest⟩ ↔
      first = [] ∧ tokenIds (before ++ token :: after) = [M.endTokenId] := by
  have longer := chars_chunk_pos marked (.inr here)
  simp only [Spoken.unmarked, Bool.false_eq_true, if_false, Spoken.add, Spoken.mk.injEq,
    List.nil_append]
  constructor
  · rintro ⟨reasoning, content⟩
    obtain ⟨rfl, _⟩ := List.append_eq_nil_iff.mp reasoning.symm
    refine ⟨rfl, by_contra fun more => ?_⟩
    rw [if_neg more, List.nil_append] at content
    have same := List.append_cancel_right content
    rw [same] at longer
    exact Nat.lt_irrefl _ longer
  · rintro ⟨rfl, only⟩
    obtain ⟨rfl, rfl⟩ := single_of_tokenIds only
    rw [if_pos only]
    exact ⟨rfl, rfl⟩

theorem unstarted_iff (stream : K.Stream M .kept [] chunks)
    (unstarted : M.startTokenId ∉ tokenIds chunks.flatten) :
    K.spoken M [] chunks = M.splitEnd chunks.flatten ↔ K.UnstartedAgree M chunks := by
  by_cases ends : M.endTokenId ∈ tokenIds chunks.flatten
  · obtain ⟨earlier, before, token, after, later, rfl, at_⟩ :=
      exists_place stream.marked.end_once ends
    rw [Thinking.UnstartedAgree, at_.splitChunks]
    dsimp only
    cases awaits : K.awaitsStart with
    | false =>
      have reads : K.reads M [] = true := by rw [reads_nil, awaits]; rfl
      exact iff_of_true (spoken_read stream unstarted reads) fun never => (nomatch never)
    | true =>
      have unread : K.reads M [] = false := by rw [reads_nil, awaits]; rfl
      obtain ⟨unstarted, fresh, _⟩ := notMem_parts.mp unstarted
      obtain ⟨rest, said⟩ := spoken_upTo stream unstarted at_.parts.1 at_.mem_chunk
      rw [said, flatten_place, splitEnd_of_at at_, unread,
        chunkSpoken_unread fresh ((reads_append unstarted).trans unread),
        chars_append earlier.flatten, chars_append after, unread_boundary_iff rest.head at_.here]
      exact ⟨fun both _ => both, fun both => both rfl⟩
  · rw [Thinking.UnstartedAgree, splitFirst_chunk_eq_none ends, splitEnd_of_notMem ends,
      spoken_unmarked stream unstarted ends, reads_nil]
    unfold Spoken.unmarked
    cases K.awaitsStart <;> simp

theorem content_splitEnd_le (tokens : List Token) :
    (M.splitEnd tokens).content.length ≤ (chars tokens).length := by
  by_cases mem : M.endTokenId ∈ tokenIds tokens
  · obtain ⟨token, mem, here⟩ := mem_tokenIds.mp mem
    obtain ⟨before, token, after, rfl, found, first⟩ :=
      splitFirst_of_mem (p := Token.isId M.endTokenId) mem (decide_eq_true here)
    rw [Markers.splitEnd, splitFirst_append found first, chars_append, chars_cons,
      List.length_append, List.length_append]
    dsimp only
    omega
  · rw [splitEnd_of_notMem mem]
    exact Nat.zero_le _

section Started

variable (stream : K.Stream M .kept [] (earlier ++ (before ++ token :: after) :: later))
  (at_ : At M.startTokenId (earlier.flatten ++ before) token (after ++ later.flatten))
include stream at_

/-- An end marker in a chunk before that of the start marker: the start marker is in the
content. -/
theorem not_split_of_ended (ends : M.endTokenId ∈ tokenIds earlier.flatten) :
    K.spoken M [] (earlier ++ (before ++ token :: after) :: later) ≠
      M.splitEnd (after ++ later.flatten) := by
  have once := stream.marked.end_once
  rw [List.flatten_append] at once
  have placed : (tokenIds earlier.flatten).count M.endTokenId ≤ 1 := by
    rw [tokenIds_append, List.count_append] at once
    omega
  have longer := chars_chunk_pos (stream.marked.part (chunk_part earlier later)) (.inl at_.here)
  obtain ⟨first, head, marker, tail, second, rfl, ended⟩ := exists_place placed ends
  have fresh := (notMem_parts.mp at_.parts.1).1
  rw [List.append_assoc, List.cons_append] at stream ⊢
  obtain ⟨_, said⟩ := spoken_upTo stream fresh ended.parts.1 ended.mem_chunk
  intro same
  have content := congrArg (fun spoken => spoken.content.length) (said.symm.trans same)
  have short := content_splitEnd_le (M := M) (after ++ later.flatten)
  simp only [Spoken.add, List.length_append, List.flatten_append, List.flatten_cons, chars_append]
    at content short longer
  omega

/-- The end marker comes first in the chunk of the start marker, which is then in the
content. -/
theorem not_split_of_crossed (unended : M.endTokenId ∉ tokenIds earlier.flatten)
    (ends : M.endTokenId ∈ tokenIds before) :
    K.spoken M [] (earlier ++ (before ++ token :: after) :: later) ≠
      M.splitEnd (after ++ later.flatten) := by
  have mem : M.endTokenId ∈ tokenIds (before ++ token :: after) := by simp [ends]
  obtain ⟨rest, said⟩ := spoken_upTo stream at_.parts.1 unended mem
  have once := rest.head.end_once
  have marked := rest.head
  have started := at_.parts.2.2
  obtain ⟨marker, ends, here⟩ := mem_tokenIds.mp ends
  obtain ⟨head, middle, rfl⟩ := List.append_of_mem ends
  have joined : head ++ marker :: middle ++ token :: after =
      head ++ marker :: (middle ++ token :: after) := by simp
  rw [joined] at once marked said ⊢
  rw [said, chunkSpoken_crossed rest.plain marked (at_of_once once here) started
    (rest.head_once at_.mem_chunk)]
  have longer := chars_chunk_pos marked.right (.inl started.here)
  have short := content_splitEnd_le (M := M) (after ++ later.flatten)
  intro same
  have content := congrArg (fun spoken => spoken.content.length) same
  simp only [Spoken.add, List.length_append, chars_append] at content short longer
  omega

/-- Both markers are in the chunk, the start marker first. -/
theorem between_iff (unended : M.endTokenId ∉ tokenIds earlier.flatten)
    (ends : M.endTokenId ∈ tokenIds after) :
    K.spoken M [] (earlier ++ (before ++ token :: after) :: later) =
        M.splitEnd (after ++ later.flatten) ↔ chars earlier.flatten = [] := by
  have mem : M.endTokenId ∈ tokenIds (before ++ token :: after) := by simp [ends]
  obtain ⟨rest, said⟩ := spoken_upTo stream at_.parts.1 unended mem
  have once := rest.head.end_once
  have total := stream.marked.end_once
  have marked := rest.head
  have started := at_.parts.2.2
  have fresh := rest.head_once at_.mem_chunk
  obtain ⟨marker, ends, here⟩ := mem_tokenIds.mp ends
  obtain ⟨middle, tail, rfl⟩ := List.append_of_mem ends
  have joined : before ++ token :: (middle ++ marker :: tail) =
      (before ++ token :: middle) ++ marker :: tail := by simp
  have split : middle ++ marker :: tail ++ later.flatten =
      middle ++ marker :: (tail ++ later.flatten) := by simp
  rw [joined] at once
  rw [flatten_place, split] at total
  have all := (List.suffix_append (earlier.flatten ++ before)
    (token :: (middle ++ marker :: (tail ++ later.flatten)))).sublist
  have ended : At M.endTokenId middle marker (tail ++ later.flatten) := at_of_once
    (Nat.le_trans (((List.sublist_cons_self token _).trans all).map _ |>.count_le _) total) here
  rw [said, chunkSpoken_between rest.plain marked started (at_of_once once here) fresh, split,
    splitEnd_of_at ended, chars_append]
  have joined : (⟨chars middle, chars tail⟩ : Spoken).add ⟨[], chars later.flatten⟩ =
      ⟨chars middle, chars tail ++ chars later.flatten⟩ := by
    simp [Spoken.add]
  rw [joined]
  exact unmarked_add_eq_iff _ _ _

omit stream at_ in
/-- What is said too much before the rest of the reasoning. -/
theorem unmarked_add_shifted_iff (reads : Bool) (text more content : List Char)
    {start body : List Char} (le : body.length ≤ start.length) :
    (Spoken.unmarked reads text).add ⟨start ++ more, content⟩ = ⟨body ++ more, content⟩ ↔
      text = [] ∧ start = body := by
  constructor
  · intro same
    obtain ⟨reasoning, said⟩ := Spoken.mk.inj same
    cases reads with
    | false => exact ⟨List.append_left_eq_self.mp said, List.append_cancel_right reasoning⟩
    | true =>
      have length := congrArg List.length reasoning
      simp only [Spoken.unmarked, if_true, List.length_append] at length
      have empty : text = [] := List.eq_nil_of_length_eq_zero (by omega)
      obtain rfl := empty
      exact ⟨rfl, List.append_cancel_right reasoning⟩
  · rintro ⟨rfl, rfl⟩
    cases reads <;> rfl

omit stream at_ in
/-- The chunk of the start marker says what comes after the marker if it says
nothing. -/
theorem started_chunk (marked : M.Marked .kept (before ++ token :: after))
    (here : token.id = M.startTokenId) :
    let start := if tokenIds (before ++ token :: after) = [M.startTokenId] then []
      else chars (before ++ token :: after)
    (chars after).length ≤ start.length ∧
      (start = chars after ↔ tokenIds (before ++ token :: after) = [M.startTokenId]) := by
  have longer := chars_chunk_pos marked (.inl here)
  dsimp only
  split_ifs with only
  · obtain ⟨rfl, rfl⟩ := single_of_tokenIds only
    exact ⟨Nat.le_refl _, iff_of_true rfl only⟩
  · refine ⟨Nat.le_of_lt longer, iff_of_false (fun same => ?_) only⟩
    rw [same] at longer
    exact Nat.lt_irrefl _ longer

/-- The end marker comes in a later chunk, or never. -/
theorem opened_iff (unended : M.endTokenId ∉ tokenIds earlier.flatten)
    (goesOn : M.endTokenId ∉ tokenIds (before ++ token :: after)) :
    K.spoken M [] (earlier ++ (before ++ token :: after) :: later) =
        M.splitEnd (after ++ later.flatten) ↔
      chars earlier.flatten = [] ∧ tokenIds (before ++ token :: after) = [M.startTokenId] := by
  obtain ⟨rest, said⟩ := spoken_plain stream at_.parts.1 unended
  have reads : K.reads M ([] ++ tokenIds earlier.flatten ++ tokenIds (before ++ token :: after)) =
      true := by
    simp [Thinking.reads, at_.here]
  obtain ⟨le, same⟩ := started_chunk rest.head at_.here
  rw [said, spoken_cons_open rest goesOn,
    chunkSpoken_start rest.plain rest.opened at_.mem_chunk goesOn,
    spoken_read (rest.tail goesOn) at_.parts.2.1 reads]
  have fresh : M.endTokenId ∉ tokenIds after := fun mem => goesOn (by simp [mem])
  by_cases ends : M.endTokenId ∈ tokenIds later.flatten
  · obtain ⟨head, marker, tail, split, ended⟩ := exists_at (rest.tail goesOn).marked.end_once ends
    have joined : after ++ (head ++ marker :: tail) = (after ++ head) ++ marker :: tail := by simp
    have moved : At M.endTokenId (after ++ head) marker tail :=
      ⟨ended.here, by simp [fresh, ended.before], ended.after⟩
    rw [split, splitEnd_of_at ended, joined, splitEnd_of_at moved, chars_append after]
    exact (unmarked_add_shifted_iff _ _ _ _ le).trans (and_congr Iff.rfl same)
  · have never : M.endTokenId ∉ tokenIds (after ++ later.flatten) := by
      rw [tokenIds_append, List.mem_append, not_or]
      exact ⟨fresh, ends⟩
    rw [splitEnd_of_notMem ends, splitEnd_of_notMem never, chars_append after]
    exact (unmarked_add_shifted_iff _ _ _ _ le).trans (and_congr Iff.rfl same)

theorem started_iff :
    K.spoken M [] (earlier ++ (before ++ token :: after) :: later) =
        M.splitEnd (after ++ later.flatten) ↔
      M.StartedAgree earlier (before ++ token :: after) before after := by
  unfold Markers.StartedAgree
  by_cases first : M.endTokenId ∈ tokenIds earlier.flatten
  · exact iff_of_false (not_split_of_ended stream at_ first) fun agree => agree.1 first
  · by_cases second : M.endTokenId ∈ tokenIds before
    · exact iff_of_false (not_split_of_crossed stream at_ first second)
        fun agree => agree.2.1 second
    · by_cases ends : M.endTokenId ∈ tokenIds after
      · rw [between_iff stream at_ first ends]
        simp [first, second, ends]
      · rw [opened_iff stream at_ first]
        · simp [first, second, ends]
        · rw [tokenIds_append, tokenIds_cons, List.mem_append, List.mem_cons, not_or, not_or]
          exact ⟨second, fun same => M.ids_ne (at_.here.symm.trans same.symm), ends⟩

end Started

/-- Kept markers: what the stream says is what the whole text is split into. -/
theorem spoken_kept_iff (stream : K.Stream M .kept [] chunks) :
    K.spoken M [] chunks = .ofPair (M.extractReasoning (decoded chunks.flatten)) ↔
      K.KeptAgree M chunks := by
  rw [extractReasoning_kept stream.marked]
  by_cases starts : M.startTokenId ∈ tokenIds chunks.flatten
  · obtain ⟨earlier, before, token, after, later, rfl, at_⟩ :=
      exists_place stream.marked.start_once starts
    rw [Thinking.KeptAgree, at_.splitChunks]
    dsimp only
    rw [at_.parts.2.2.splitFirst, flatten_place, at_.splitFirst]
    exact started_iff stream at_
  · rw [Thinking.KeptAgree, splitFirst_chunk_eq_none starts, splitFirst_eq_none starts]
    exact unstarted_iff stream starts

end Kept

section Whole

theorem all_content_of_shorter {text : List Char} {spoken : Spoken}
    (shorter : spoken.content.length < text.length) : ⟨[], text⟩ = spoken ↔ text = [] := by
  refine iff_of_false ?_ ?_
  · rintro rfl
    exact Nat.lt_irrefl _ shorter
  · rintro rfl
    exact Nat.not_lt_zero _ shorter

/-- Where the prompt ends the reasoning the stream is all content. -/
theorem all_content_iff (marked : M.Marked decoding chunks.flatten) :
    ⟨[], chars chunks.flatten⟩ = Spoken.ofPair (M.extractReasoning (decoded chunks.flatten)) ↔
      chars chunks.flatten = [] := by
  cases decoding with
  | stripped =>
    rw [extractReasoning_stripped marked]
    simp
  | kept =>
    rw [extractReasoning_kept marked]
    by_cases starts : M.startTokenId ∈ tokenIds chunks.flatten
    · obtain ⟨before, token, after, split, at_⟩ := exists_at marked.start_once starts
      rw [split] at marked ⊢
      rw [at_.splitFirst]
      exact all_content_of_shorter (Nat.lt_of_le_of_lt (content_splitEnd_le after)
        (chars_chunk_pos marked (.inl at_.here)))
    · rw [splitFirst_eq_none starts]
      by_cases ends : M.endTokenId ∈ tokenIds chunks.flatten
      · obtain ⟨before, token, after, split, at_⟩ := exists_at marked.end_once ends
        rw [split] at marked ⊢
        dsimp only
        rw [splitEnd_of_at at_]
        exact all_content_of_shorter (chars_chunk_pos marked (.inr at_.here))
      · dsimp only
        rw [splitEnd_of_notMem ends]
        simp

theorem base_streamed_iff (plain : K.isQwen3 = false) (promptTokenIds : Option (List Int))
    (marked : M.Marked decoding chunks.flatten) :
    K.streamed M promptTokenIds chunks =
        .ofPair (M.extractReasoning (decoded chunks.flatten)) ↔
      K.BaseAgree M decoding promptTokenIds chunks := by
  unfold Thinking.streamed Thinking.BaseAgree
  split_ifs with ends
  · exact all_content_iff marked
  · have stream : K.Stream M decoding [] chunks :=
      ⟨plain, List.not_mem_nil, marked, fun _ => List.not_mem_nil⟩
    cases decoding with
    | kept => exact spoken_kept_iff stream
    | stripped =>
      rw [extractReasoning_stripped marked, spoken_stripped_iff stream, reads_nil,
        Bool.not_eq_false']
      rfl

end Whole

end TrajProxy.Parsers
