import TrajProxy.Parsers.Qwen3Stream

/-! When `Qwen3ReasoningParser` says the same of a stream and of the whole text. The
stream ends the reasoning with the first chunk that has the end marker or a
`<tool_call>`; the whole text is cut at the end marker wherever it is, and only without
one at the first tag. -/

namespace TrajProxy.Parsers
open Search

section Conditions

variable (M : Markers) (Q : Qwen3) (shown : Decoding)

/-- `extract_reasoning` cuts a text without an end marker between these tokens. -/
def Qwen3.CutAfter (first second : List Token) : Prop :=
  if Q.thinkingEnabled then
    (shown = .kept → Q.callsTool (tokenIds first) = false) ∧
      chars (Q.cutCalls shown second).1 = []
  else chars first = []

/-- It cuts where the stream does if the chunk with these tokens has a `<tool_call>`. -/
def Qwen3.CalledAgree (earlier body later : List Token) : Prop :=
  Q.CutAfter shown (earlier ++ (Q.cutCalls shown body).1) ((Q.cutCalls shown body).2 ++ later)

def Qwen3.endsIn (chunk : List Token) : Bool :=
  hasId M.endTokenId chunk || Q.callsTool (tokenIds chunk)

/-- The condition for chunks without a start marker, where the markers are kept. -/
def Qwen3.ReadAgree (chunks : List (List Token)) : Prop :=
  match splitFirst (Q.endsIn M) chunks with
  | none => Q.CutAfter shown chunks.flatten []
  | some (earlier, chunk, later) =>
    M.endTokenId ∈ tokenIds chunk ∨
      M.endTokenId ∉ tokenIds later.flatten ∧
        Q.CalledAgree shown earlier.flatten chunk later.flatten

/-- The chunk with the start marker, and the tokens before and after the marker in it.
An end marker that comes first stands for the end of the reasoning in the stream
only. -/
def Qwen3.StartedAgree (earlier : List (List Token)) (chunk before after : List Token)
    (later : List (List Token)) : Prop :=
  (∀ chunk ∈ earlier, Q.endsIn M chunk = false) ∧
    if M.endTokenId ∈ tokenIds before then
      chars earlier.flatten = chars after ∧ Q.CutAfter shown after later.flatten
    else
      chars earlier.flatten = [] ∧
        if Q.callsTool (tokenIds chunk) = true ∧ M.endTokenId ∉ tokenIds after then
          M.endTokenId ∉ tokenIds later.flatten ∧ Q.CalledAgree shown [] after later.flatten
        else Q.ReadAgree M shown (after :: later)

/-- The condition where the markers are kept. -/
def Qwen3.KeptAgree (chunks : List (List Token)) : Prop :=
  match splitFirst (hasId M.startTokenId) chunks with
  | none => Q.ReadAgree M shown chunks
  | some (earlier, chunk, later) =>
    match splitFirst (Token.isId M.startTokenId) chunk with
    | none => False
    | some (before, _, after) => Q.StartedAgree M shown earlier chunk before after later

/-- The condition where the markers are stripped: the text of the end marker's chunk is
lost. -/
def Qwen3.StrippedAgree (chunks : List (List Token)) : Prop :=
  match splitFirst (Q.endsIn M) chunks with
  | none => Q.CutAfter shown chunks.flatten []
  | some (earlier, chunk, later) =>
    if M.endTokenId ∈ tokenIds chunk then
      chars chunk = [] ∧ Q.CutAfter shown (earlier.flatten ++ chunk) later.flatten
    else Q.CalledAgree shown earlier.flatten chunk later.flatten

/-- The condition for `Qwen3ReasoningParser`. Where the prompt ends the reasoning the
stream is all content. -/
def Qwen3.Agree (decoding : Decoding) (promptTokenIds : Option (List Int))
    (chunks : List (List Token)) : Prop :=
  if (Thinking.qwen3 Q).promptEnds M promptTokenIds then
    (decoding = .kept → M.startTokenId ∉ tokenIds chunks.flatten ∧
      M.endTokenId ∉ tokenIds chunks.flatten) ∧ Q.CutAfter shown [] chunks.flatten
  else
    match decoding with
    | .kept => Q.KeptAgree M shown chunks
    | .stripped => Q.StrippedAgree M shown chunks

end Conditions

/-- What `extract_reasoning` says of the tokens after the start marker. -/
def Qwen3.split (M : Markers) (Q : Qwen3) (body : List Token) : Spoken :=
  match splitFirst (Token.isId M.endTokenId) body with
  | none => Q.whole (chars body)
  | some (before, _, after) => ⟨chars before, chars after⟩

variable {M : Markers} {Q : Qwen3} {decoding shown : Decoding}
  {tokens before after : List Token} {token : Token} {chunk : List Token}
  {chunks earlier later : List (List Token)}

section OneShot

theorem qwen3_split_of_notMem (unended : M.endTokenId ∉ tokenIds tokens) :
    Q.split M tokens = Q.whole (chars tokens) := by
  rw [Qwen3.split, splitFirst_eq_none unended]

theorem qwen3_split_of_at (at_ : At M.endTokenId before token after) :
    Q.split M (before ++ token :: after) = ⟨chars before, chars after⟩ := by
  rw [Qwen3.split, at_.splitFirst]

theorem qwen3_extractReasoning_split {text : String} (marked : M.Marked .kept tokens)
    (strip : (M.stripStart text).toList = chars tokens) :
    Spoken.ofPair (Q.extractReasoning M text) = Q.split M tokens := by
  by_cases mem : M.endTokenId ∈ tokenIds tokens
  · obtain ⟨before, token, after, rfl, at_⟩ := exists_at marked.end_once mem
    rw [qwen3_split_of_at at_]
    exact qwen3_extractReasoning_of_tag (strip.trans (marked.chars_end at_.here))
      (marked.left.end_clear at_.before)
  · rw [qwen3_split_of_notMem mem]
    exact qwen3_extractReasoning_of_clear strip (marked.end_clear mem)

theorem qwen3_extractReasoning_stripped (marked : M.Marked .stripped tokens) :
    Spoken.ofPair (Q.extractReasoning M (decoded tokens)) = Q.whole (chars tokens) :=
  qwen3_extractReasoning_of_clear (stripStart_decoded marked.start_hidden) marked.end_hidden

/-- No text is lost. -/
theorem total_whole (text : List Char) :
    (Q.whole text).reasoning ++ (Q.whole text).content = text := by
  unfold Qwen3.whole cutTool
  split_ifs
  · cases Substring.find toolCallTag.toList text with
    | none => exact List.append_nil text
    | some index => exact List.take_append_drop index text
  · rfl

theorem content_qwen3_split_le (tokens : List Token) :
    (Q.split M tokens).content.length ≤ (chars tokens).length := by
  by_cases mem : M.endTokenId ∈ tokenIds tokens
  · obtain ⟨token, mem, here⟩ := mem_tokenIds.mp mem
    obtain ⟨before, token, after, rfl, found, first⟩ :=
      splitFirst_of_mem (p := Token.isId M.endTokenId) mem (decide_eq_true here)
    rw [Qwen3.split, splitFirst_append found first, chars_append, chars_cons,
      List.length_append, List.length_append]
    dsimp only
    omega
  · have total := congrArg List.length (total_whole (Q := Q) (chars tokens))
    rw [List.length_append] at total
    rw [qwen3_split_of_notMem mem]
    omega

end OneShot

section Cutting

variable {first second : List Token}

theorem cutCalls_append_left (uncalled : Q.callsTool (tokenIds first) = false) :
    Q.cutCalls .kept (first ++ second) =
      (first ++ (Q.cutCalls .kept second).1, (Q.cutCalls .kept second).2) := by
  have all : ∀ token ∈ first, (!Q.calls token) = true := by
    intro token mem
    rw [callsTool_eq_false_iff.mp uncalled token mem]
    rfl
  rw [Qwen3.cutCalls, List.takeWhile_append_of_pos all, List.dropWhile_append_of_pos all]
  rfl

theorem cutAfter_iff (tagged : Q.Tagged M shown (first ++ second)) :
    ⟨chars first, chars second⟩ = Q.whole (chars (first ++ second)) ↔
      Q.CutAfter shown first second := by
  unfold Qwen3.whole Qwen3.CutAfter
  cases Q.thinkingEnabled with
  | false => simp
  | true =>
    rw [if_pos rfl, if_pos rfl, cutTool_chars tagged]
    cases shown with
    | stripped => simp [Qwen3.cutCalls]
    | kept =>
      cases calls : Q.callsTool (tokenIds first) with
      | false =>
        have parts : chars ((Q.cutCalls .kept second).1 ++ (Q.cutCalls .kept second).2) =
            chars second := congrArg chars (cutCalls_append second)
        rw [chars_append] at parts
        rw [cutCalls_append_left calls, chars_append]
        simp only [Spoken.mk.injEq, List.self_eq_append_right, true_and, implies_true,
          and_iff_left_iff_imp]
        intro nothing
        rw [← parts, nothing, List.nil_append]
      | true =>
        obtain ⟨head, token, rest, rfl, here, clear⟩ := exists_call calls
        have text := tagged.tool_text token (by simp) (of_decide_eq_true here)
        rw [List.append_assoc, List.cons_append, cutCalls_of_call here clear]
        refine iff_of_false (fun same => ?_) fun never => Bool.noConfusion (never.1 rfl)
        have lengths := congrArg (fun spoken => spoken.reasoning.length) same
        have shown : 0 < (Decoding.kept.shows toolCallTag).toList.length := by decide
        simp only [chars_append, chars_cons, List.length_append, text] at lengths
        omega

/-- The reasoning with more text before it. -/
theorem shifted_iff (tagged : Q.Tagged M shown (first ++ second)) (text : List Char) :
    ⟨text ++ chars first, chars second⟩ = Q.whole (chars (first ++ second)) ↔
      text = [] ∧ Q.CutAfter shown first second := by
  constructor
  · intro same
    have total := total_whole (Q := Q) (chars (first ++ second))
    rw [← same, chars_append] at total
    dsimp only at total
    rw [List.append_assoc, List.append_left_eq_self] at total
    obtain rfl := total
    exact ⟨rfl, (cutAfter_iff tagged).mp same⟩
  · rintro ⟨rfl, cut⟩
    exact (cutAfter_iff tagged).mpr cut

/-- The chunk with the first `<tool_call>`. -/
theorem called_whole_iff {earlier body later : List Token}
    (tagged : Q.Tagged M shown (earlier ++ (body ++ later))) (text : List Char) :
    (⟨text ++ chars earlier, []⟩ : Spoken).add ((cutTool (chars body)).add ⟨[], chars later⟩) =
        Q.whole (chars (earlier ++ (body ++ later))) ↔
      text = [] ∧ Q.CalledAgree shown earlier body later := by
  have inner : body <:+: earlier ++ (body ++ later) := ⟨earlier, later, by simp⟩
  have joined : earlier ++ (body ++ later) =
      (earlier ++ (Q.cutCalls shown body).1) ++ ((Q.cutCalls shown body).2 ++ later) := by
    rw [List.append_assoc, ← List.append_assoc (Q.cutCalls shown body).1, cutCalls_append]
  have whole : Q.Tagged M shown
      ((earlier ++ (Q.cutCalls shown body).1) ++ ((Q.cutCalls shown body).2 ++ later)) :=
    joined ▸ tagged
  rw [cutTool_chars (tagged.part inner), joined, Qwen3.CalledAgree, ← shifted_iff whole]
  simp [Spoken.add]

theorem called_iff {earlier body later : List Token}
    (marked : M.Marked .kept (earlier ++ (body ++ later)))
    (tagged : Q.Tagged M shown (earlier ++ (body ++ later)))
    (first : M.endTokenId ∉ tokenIds earlier) (second : M.endTokenId ∉ tokenIds body)
    (text : List Char) :
    (⟨text ++ chars earlier, []⟩ : Spoken).add ((cutTool (chars body)).add ⟨[], chars later⟩) =
        Q.split M (earlier ++ (body ++ later)) ↔
      text = [] ∧ M.endTokenId ∉ tokenIds later ∧ Q.CalledAgree shown earlier body later := by
  by_cases ends : M.endTokenId ∈ tokenIds later
  · refine iff_of_false (fun same => ?_) fun agree => agree.2.1 ends
    obtain ⟨token, mem, here⟩ := mem_tokenIds.mp ends
    obtain ⟨head, rest, rfl⟩ := List.append_of_mem mem
    have joined : earlier ++ (body ++ (head ++ token :: rest)) =
        (earlier ++ (body ++ head)) ++ token :: rest := by simp
    rw [joined] at marked same
    rw [qwen3_split_of_at (at_of_once marked.end_once here)] at same
    have longer := chars_chunk_pos (marked.part
      (show head ++ token :: rest <:+: _ from ⟨earlier ++ body, [], by simp⟩)) (.inr here)
    have content := congrArg (fun spoken => spoken.content.length) same
    simp only [Spoken.add, List.length_append] at content
    omega
  · have unended : M.endTokenId ∉ tokenIds (earlier ++ (body ++ later)) := by
      simp [first, second, ends]
    rw [qwen3_split_of_notMem unended, called_whole_iff tagged]
    simp [ends]

end Cutting

section Said

theorem endsIn_eq_false_iff : Q.endsIn M chunk = false ↔
    M.endTokenId ∉ tokenIds chunk ∧ Q.callsTool (tokenIds chunk) = false := by
  rw [Qwen3.endsIn, Bool.or_eq_false_iff, hasId, decide_eq_false_iff_not]

/-- The chunks before the one that ends the reasoning. -/
theorem said_append (open_ : ∀ chunk ∈ earlier, Q.endsIn M chunk = false)
    (plain : ∀ chunk ∈ earlier, M.strip chunk = chars chunk) (rest : List (List Token)) :
    Q.said M (earlier ++ rest) = (⟨chars earlier.flatten, []⟩ : Spoken).add (Q.said M rest) := by
  induction earlier with
  | nil => rfl
  | cons chunk earlier ih =>
    rw [List.forall_mem_cons] at open_ plain
    obtain ⟨unended, uncalled⟩ := endsIn_eq_false_iff.mp open_.1
    rw [List.cons_append, Qwen3.said, if_neg unended, uncalled, if_neg Bool.false_ne_true,
      plain.1, ih open_.2 plain.2, List.flatten_cons, chars_append]
    simp [Spoken.add]

/-- What comes after a chunk that ends the reasoning is all content. -/
theorem content_said_le (ends : ∃ chunk ∈ earlier, Q.endsIn M chunk = true)
    (rest : List (List Token)) :
    (chars rest.flatten).length ≤ (Q.said M (earlier ++ rest)).content.length := by
  induction earlier with
  | nil =>
    obtain ⟨_, mem, _⟩ := ends
    nomatch mem
  | cons chunk earlier ih =>
    have shorter : (chars rest.flatten).length ≤ (chars (earlier ++ rest).flatten).length := by
      rw [List.flatten_append, chars_append, List.length_append]
      omega
    rw [List.cons_append, Qwen3.said]
    split_ifs with first second
    · simp only [Spoken.add, List.length_append]
      omega
    · simp only [Spoken.add, List.length_append]
      omega
    · obtain ⟨other, mem, ends⟩ := ends
      have later : ∃ chunk ∈ earlier, Q.endsIn M chunk = true := by
        rcases List.mem_cons.mp mem with rfl | mem
        · simp [Qwen3.endsIn, hasId, first, second] at ends
        · exact ⟨other, mem, ends⟩
      simp only [Spoken.add, List.nil_append]
      exact ih later

theorem said_cons_end (ends : M.endTokenId ∈ tokenIds chunk) :
    Q.said M (chunk :: later) =
      (M.cutEnd (M.strip chunk)).add ⟨[], chars later.flatten⟩ := by
  rw [Qwen3.said, if_pos ends]

theorem said_cons_call (unended : M.endTokenId ∉ tokenIds chunk)
    (calls : Q.callsTool (tokenIds chunk) = true) :
    Q.said M (chunk :: later) =
      (cutTool (M.strip chunk)).add ⟨[], chars later.flatten⟩ := by
  rw [Qwen3.said, if_neg unended, if_pos calls]

theorem said_cons_open (unended : M.endTokenId ∉ tokenIds chunk)
    (uncalled : Q.callsTool (tokenIds chunk) = false) :
    Q.said M (chunk :: later) = (⟨M.strip chunk, []⟩ : Spoken).add (Q.said M later) := by
  rw [Qwen3.said, if_neg unended, uncalled, if_neg Bool.false_ne_true]

end Said

section Kept

theorem add_add (text first : List Char) (spoken : Spoken) :
    (⟨text, []⟩ : Spoken).add ((⟨first, []⟩ : Spoken).add spoken) =
      (⟨text ++ first, []⟩ : Spoken).add spoken := by
  simp [Spoken.add]

/-- The chunk with the end marker is cut where the whole text is. -/
theorem read_end_iff {body : List Token} (marked : M.Marked .kept (body ++ (chunk ++ tokens)))
    (ends : M.endTokenId ∈ tokenIds chunk) (text : List Char) :
    (⟨text ++ chars body, []⟩ : Spoken).add ((M.cutEnd (chars chunk)).add ⟨[], chars tokens⟩) =
        Q.split M (body ++ (chunk ++ tokens)) ↔ text = [] := by
  obtain ⟨token, mem, here⟩ := mem_tokenIds.mp ends
  obtain ⟨head, rest, rfl⟩ := List.append_of_mem mem
  have joined : body ++ ((head ++ token :: rest) ++ tokens) =
      (body ++ head) ++ token :: (rest ++ tokens) := by simp
  have inner := marked.part
    (show head ++ token :: rest <:+: _ from ⟨body, tokens, by simp⟩)
  rw [joined] at marked ⊢
  rw [qwen3_split_of_at (at_of_once marked.end_once here), inner.chars_end here]
  have cut : M.cutEnd (chars head ++ ((Decoding.kept.shows M.endToken).toList ++ chars rest)) =
      ⟨chars head, chars rest⟩ :=
    cutEnd_of_tag (inner.left.end_clear (at_of_once inner.end_once here).before)
  rw [cut]
  simp [Spoken.add]

/-- Chunks without a start marker, with more text before them. -/
theorem read_iff (marked : M.Marked .kept chunks.flatten) (tagged : Q.Tagged M shown chunks.flatten)
    (unstarted : M.startTokenId ∉ tokenIds chunks.flatten) (text : List Char) :
    (⟨text, []⟩ : Spoken).add (Q.said M chunks) = Q.split M chunks.flatten ↔
      text = [] ∧ Q.ReadAgree M shown chunks := by
  have plain : ∀ chunk ∈ chunks, M.strip chunk = chars chunk := fun chunk mem =>
    strip_of_notMem fun starts => unstarted (mem_flatten_iff.mpr ⟨chunk, mem, starts⟩)
  unfold Qwen3.ReadAgree
  cases found : splitFirst (Q.endsIn M) chunks with
  | none =>
    have open_ := splitFirst_eq_none_iff.mp found
    have unended : M.endTokenId ∉ tokenIds chunks.flatten := by
      rw [mem_flatten_iff]
      rintro ⟨chunk, mem, ends⟩
      exact (endsIn_eq_false_iff.mp (open_ chunk mem)).1 ends
    have said := said_append open_ plain []
    rw [List.append_nil] at said
    have tagged : Q.Tagged M shown (chunks.flatten ++ []) := (List.append_nil _).symm ▸ tagged
    have shifted := shifted_iff tagged text
    rw [List.append_nil] at shifted
    rw [said, qwen3_split_of_notMem unended, ← shifted]
    simp [Spoken.add, Qwen3.said]
  | some place =>
    obtain ⟨earlier, chunk, later⟩ := place
    obtain ⟨rfl, ends, open_⟩ := splitFirst_eq_some found
    dsimp only
    have parts : (earlier ++ chunk :: later).flatten =
        earlier.flatten ++ (chunk ++ later.flatten) := by simp
    rw [parts] at marked tagged ⊢
    rw [said_append open_ fun chunk mem => plain chunk (List.mem_append_left _ mem), add_add]
    have strip := plain chunk (by simp)
    by_cases here : M.endTokenId ∈ tokenIds chunk
    · rw [said_cons_end here, strip, read_end_iff marked here]
      simp [here]
    · have calls : Q.callsTool (tokenIds chunk) = true := by
        simpa [Qwen3.endsIn, hasId, here] using ends
      have fresh : M.endTokenId ∉ tokenIds earlier.flatten := by
        rw [mem_flatten_iff]
        rintro ⟨chunk, mem, ends⟩
        exact (endsIn_eq_false_iff.mp (open_ chunk mem)).1 ends
      rw [said_cons_call here calls, strip, called_iff marked tagged fresh here]
      simp [here]

section Started

variable
  (marked : M.Marked .kept (earlier ++ (before ++ token :: after) :: later).flatten)
  (tagged : Q.Tagged M shown (earlier ++ (before ++ token :: after) :: later).flatten)
  (at_ : At M.startTokenId (earlier.flatten ++ before) token (after ++ later.flatten))
include marked at_

omit marked in
theorem strip_earlier : ∀ chunk ∈ earlier, M.strip chunk = chars chunk := fun chunk mem =>
  strip_of_notMem fun starts => at_.parts.1 (mem_flatten_iff.mpr ⟨chunk, mem, starts⟩)

theorem strip_place : M.strip (before ++ token :: after) = chars after :=
  strip_at (marked.part (chunk_part earlier later)) at_.parts.2.2

/-- The reasoning ends in a chunk before that of the start marker, which is then in the
content. -/
theorem not_qwen3_split_of_ended (ends : ∃ chunk ∈ earlier, Q.endsIn M chunk = true) :
    Q.said M (earlier ++ (before ++ token :: after) :: later) ≠
      Q.split M (after ++ later.flatten) := by
  have longer := chars_chunk_pos (marked.part (chunk_part earlier later)) (.inl at_.here)
  have content := content_said_le ends ((before ++ token :: after) :: later)
  have short := content_qwen3_split_le (M := M) (Q := Q) (after ++ later.flatten)
  intro same
  rw [same] at content
  rw [List.flatten_cons, chars_append, List.length_append] at content
  rw [chars_append, List.length_append] at short
  omega

section Open

variable (open_ : ∀ chunk ∈ earlier, Q.endsIn M chunk = false)
include tagged open_

/-- The end marker comes first in the chunk of the start marker. -/
theorem qwen3_crossed_iff (ends : M.endTokenId ∈ tokenIds before) :
    Q.said M (earlier ++ (before ++ token :: after) :: later) =
        Q.split M (after ++ later.flatten) ↔
      chars earlier.flatten = chars after ∧ Q.CutAfter shown after later.flatten := by
  have mem : M.endTokenId ∈ tokenIds (before ++ token :: after) := by simp [ends]
  have once := marked.end_once
  rw [flatten_place] at once marked tagged
  have rest := notMem_of_once once (by simp [ends])
  rw [tokenIds_cons, List.mem_cons, not_or] at rest
  have unended : M.endTokenId ∉ tokenIds after := fun there => rest.2 (by simp [there])
  have clear := (marked.part (show after <:+: _ from
    ⟨earlier.flatten ++ before ++ [token], later.flatten, by simp⟩)).end_clear unended
  have body := tagged.part (show after ++ later.flatten <:+: _ from
    ⟨earlier.flatten ++ before ++ [token], [], by simp⟩)
  rw [← flatten_place] at marked
  rw [said_append open_ (strip_earlier at_), said_cons_end mem, strip_place marked at_,
    cutEnd_of_clear clear, qwen3_split_of_notMem rest.2]
  have joined : (⟨chars earlier.flatten, []⟩ : Spoken).add
      ((⟨[], []⟩ : Spoken).add ⟨[], chars later.flatten⟩) =
        ⟨chars earlier.flatten, chars later.flatten⟩ := by
    simp [Spoken.add]
  rw [joined]
  constructor
  · intro same
    have total := total_whole (Q := Q) (chars (after ++ later.flatten))
    rw [← same, chars_append] at total
    have first := List.append_cancel_right total
    exact ⟨first, (cutAfter_iff body).mp (first ▸ same)⟩
  · rintro ⟨first, cut⟩
    rw [first]
    exact (cutAfter_iff body).mpr cut

/-- The start marker comes first. -/
theorem qwen3_opened_iff (unended : M.endTokenId ∉ tokenIds before) :
    Q.said M (earlier ++ (before ++ token :: after) :: later) =
        Q.split M (after ++ later.flatten) ↔
      chars earlier.flatten = [] ∧
        if Q.callsTool (tokenIds (before ++ token :: after)) = true ∧
            M.endTokenId ∉ tokenIds after then
          M.endTokenId ∉ tokenIds later.flatten ∧ Q.CalledAgree shown [] after later.flatten
        else Q.ReadAgree M shown (after :: later) := by
  have part : after ++ later.flatten <:+:
      (earlier ++ (before ++ token :: after) :: later).flatten :=
    ⟨earlier.flatten ++ before ++ [token], [], by simp⟩
  have strip := strip_place marked at_
  have fresh : M.startTokenId ∉ tokenIds after := at_.parts.2.2.after
  have other : token.id ≠ M.endTokenId := fun same => M.ids_ne (at_.here.symm.trans same)
  rw [said_append open_ (strip_earlier at_)]
  split_ifs with called
  · have goesOn : M.endTokenId ∉ tokenIds (before ++ token :: after) := by
      simp [unended, called.2, other.symm]
    have marked : M.Marked .kept ([] ++ (after ++ later.flatten)) := marked.part part
    have tagged : Q.Tagged M shown ([] ++ (after ++ later.flatten)) := tagged.part part
    have agree := called_iff marked tagged List.not_mem_nil called.2 (chars earlier.flatten)
    rw [said_cons_call goesOn called.1, strip]
    rw [chars_nil, List.append_nil, List.nil_append] at agree
    exact agree
  · have same : Q.said M ((before ++ token :: after) :: later) = Q.said M (after :: later) := by
      have inner : M.strip after = chars after := strip_of_notMem fresh
      by_cases ends : M.endTokenId ∈ tokenIds after
      · rw [said_cons_end ends, said_cons_end (by simp [ends]), strip, inner]
      · have goesOn : M.endTokenId ∉ tokenIds (before ++ token :: after) := by
          simp [unended, ends, other.symm]
        have uncalled : Q.callsTool (tokenIds (before ++ token :: after)) = false :=
          Bool.eq_false_iff.mpr fun calls => called ⟨calls, ends⟩
        have quiet := uncalled
        rw [tokenIds_append, callsTool_append, callsTool_cons, Bool.or_eq_false_iff,
          Bool.or_eq_false_iff] at quiet
        rw [said_cons_open goesOn uncalled, said_cons_open ends quiet.2.2, strip, inner]
    have marked : M.Marked .kept (after :: later).flatten := marked.part part
    have tagged : Q.Tagged M shown (after :: later).flatten := tagged.part part
    rw [same]
    exact read_iff marked tagged at_.after (chars earlier.flatten)

theorem qwen3_started_iff :
    Q.said M (earlier ++ (before ++ token :: after) :: later) =
        Q.split M (after ++ later.flatten) ↔
      Q.StartedAgree M shown earlier (before ++ token :: after) before after later := by
  unfold Qwen3.StartedAgree
  rw [and_iff_right open_]
  by_cases ends : M.endTokenId ∈ tokenIds before
  · rw [if_pos ends]
    exact qwen3_crossed_iff marked tagged at_ open_ ends
  · rw [if_neg ends]
    exact qwen3_opened_iff marked tagged at_ open_ ends

end Open

end Started

theorem qwen3_kept_iff (marked : M.Marked .kept chunks.flatten)
    (tagged : Q.Tagged M shown chunks.flatten) :
    Q.said M chunks = .ofPair (Q.extractReasoning M (decoded chunks.flatten)) ↔
      Q.KeptAgree M shown chunks := by
  by_cases starts : M.startTokenId ∈ tokenIds chunks.flatten
  · obtain ⟨earlier, before, token, after, later, rfl, at_⟩ :=
      exists_place marked.start_once starts
    rw [Qwen3.KeptAgree, at_.splitChunks]
    dsimp only
    rw [at_.parts.2.2.splitFirst]
    have whole := marked
    rw [flatten_place] at whole
    have strip := stripStart_at whole at_
    rw [← flatten_place] at strip
    rw [qwen3_extractReasoning_split whole.right strip]
    by_cases open_ : ∀ chunk ∈ earlier, Q.endsIn M chunk = false
    · exact qwen3_started_iff marked tagged at_ open_
    · refine iff_of_false (not_qwen3_split_of_ended marked at_ ?_) fun agree => open_ agree.1
      push Not at open_
      obtain ⟨chunk, mem, ends⟩ := open_
      exact ⟨chunk, mem, Bool.not_eq_false _ ▸ ends⟩
  · rw [Qwen3.KeptAgree, splitFirst_chunk_eq_none starts]
    have strip := stripStart_decoded (marked.start_clear starts)
    have read := read_iff marked tagged starts []
    have nothing : (⟨[], []⟩ : Spoken).add (Q.said M chunks) = Q.said M chunks := rfl
    rw [nothing, and_iff_right rfl] at read
    rw [qwen3_extractReasoning_split marked strip]
    exact read

end Kept

section Whole

theorem qwen3_stripped_iff (marked : M.Marked .stripped chunks.flatten)
    (tagged : Q.Tagged M shown chunks.flatten) :
    Q.said M chunks = Q.whole (chars chunks.flatten) ↔ Q.StrippedAgree M shown chunks := by
  have part : ∀ chunk ∈ chunks, chunk <:+: chunks.flatten := fun chunk mem => by
    obtain ⟨earlier, later, rfl⟩ := List.append_of_mem mem
    exact chunk_part earlier later
  have plain : ∀ chunk ∈ chunks, M.strip chunk = chars chunk := fun chunk mem =>
    strip_of_clear (marked.part (part chunk mem)).start_hidden
  unfold Qwen3.StrippedAgree
  cases found : splitFirst (Q.endsIn M) chunks with
  | none =>
    have open_ := splitFirst_eq_none_iff.mp found
    have said := said_append open_ plain []
    have tagged : Q.Tagged M shown (chunks.flatten ++ []) := (List.append_nil _).symm ▸ tagged
    have cut := cutAfter_iff tagged
    rw [List.append_nil] at said cut
    rw [said, ← cut]
    simp [Spoken.add, Qwen3.said]
  | some place =>
    obtain ⟨earlier, chunk, later⟩ := place
    obtain ⟨rfl, ends, open_⟩ := splitFirst_eq_some found
    dsimp only
    have parts : (earlier ++ chunk :: later).flatten =
        earlier.flatten ++ (chunk ++ later.flatten) := by simp
    rw [said_append open_ fun chunk mem => plain chunk (List.mem_append_left _ mem)]
    have strip := plain chunk (by simp)
    split_ifs with here
    · have hidden := (marked.part (part chunk (by simp))).end_hidden
      have joined : (⟨chars earlier.flatten, []⟩ : Spoken).add
          ((⟨[], []⟩ : Spoken).add ⟨[], chars later.flatten⟩) =
            ⟨chars earlier.flatten, chars later.flatten⟩ := by
        simp [Spoken.add]
      rw [parts, ← List.append_assoc] at tagged ⊢
      rw [said_cons_end here, strip, cutEnd_of_clear hidden, joined]
      constructor
      · intro same
        have total := congrArg List.length
          (total_whole (Q := Q) (chars (earlier.flatten ++ chunk ++ later.flatten)))
        rw [← same] at total
        simp only [chars_append, List.length_append] at total
        have empty : chars chunk = [] := List.eq_nil_of_length_eq_zero (by omega)
        refine ⟨empty, (cutAfter_iff tagged).mp ?_⟩
        rw [chars_append earlier.flatten chunk, empty, List.append_nil]
        exact same
      · rintro ⟨empty, cut⟩
        have same := (cutAfter_iff tagged).mpr cut
        rw [chars_append earlier.flatten chunk, empty, List.append_nil] at same
        exact same
    · have calls : Q.callsTool (tokenIds chunk) = true := by
        simpa [Qwen3.endsIn, hasId, here] using ends
      rw [parts] at tagged ⊢
      have agree := called_whole_iff tagged []
      rw [said_cons_call here calls, strip]
      rw [List.nil_append, and_iff_right rfl] at agree
      exact agree

/-- Where the prompt ends the reasoning the stream is all content. -/
theorem qwen3_ended_iff (marked : M.Marked decoding tokens) (tagged : Q.Tagged M shown tokens) :
    ⟨[], chars tokens⟩ = Spoken.ofPair (Q.extractReasoning M (decoded tokens)) ↔
      (decoding = .kept → M.startTokenId ∉ tokenIds tokens ∧ M.endTokenId ∉ tokenIds tokens) ∧
        Q.CutAfter shown [] tokens := by
  have cut : ⟨[], chars tokens⟩ = Q.whole (chars tokens) ↔ Q.CutAfter shown [] tokens := by
    rw [← List.nil_append tokens] at tagged
    exact cutAfter_iff tagged
  cases decoding with
  | stripped =>
    rw [qwen3_extractReasoning_stripped marked, cut]
    simp
  | kept =>
    rw [forall_prop_of_true rfl]
    by_cases starts : M.startTokenId ∈ tokenIds tokens
    · obtain ⟨before, token, after, rfl, at_⟩ := exists_at marked.start_once starts
      refine iff_of_false (fun same => ?_) fun agree => agree.1.1 starts
      rw [qwen3_extractReasoning_split marked.right (stripStart_at marked at_)] at same
      have longer := chars_chunk_pos marked (.inl at_.here)
      have short := content_qwen3_split_le (M := M) (Q := Q) after
      rw [← same] at short
      dsimp only at short
      omega
    · rw [qwen3_extractReasoning_split marked (stripStart_decoded (marked.start_clear starts))]
      by_cases ends : M.endTokenId ∈ tokenIds tokens
      · obtain ⟨before, token, after, rfl, at_⟩ := exists_at marked.end_once ends
        refine iff_of_false (fun same => ?_) fun agree => agree.1.2 ends
        rw [qwen3_split_of_at at_] at same
        have longer := chars_chunk_pos marked (.inr at_.here)
        rw [(Spoken.mk.inj same).2] at longer
        exact Nat.lt_irrefl _ longer
      · rw [qwen3_split_of_notMem ends, cut]
        simp [starts, ends]

theorem qwen3_streamed_iff (promptTokenIds : Option (List Int))
    (marked : M.Marked decoding chunks.flatten) (tagged : Q.Tagged M shown chunks.flatten) :
    (Thinking.qwen3 Q).streamed M promptTokenIds chunks =
        .ofPair (Q.extractReasoning M (decoded chunks.flatten)) ↔
      Q.Agree M shown decoding promptTokenIds chunks := by
  unfold Thinking.streamed Qwen3.Agree
  split_ifs with ends
  · exact qwen3_ended_iff marked tagged
  · rw [spoken_qwen3 List.not_mem_nil rfl]
    cases decoding with
    | kept => exact qwen3_kept_iff marked tagged
    | stripped =>
      rw [qwen3_extractReasoning_stripped marked]
      exact qwen3_stripped_iff marked tagged

end Whole

end TrajProxy.Parsers
