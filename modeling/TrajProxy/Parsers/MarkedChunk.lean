import TrajProxy.Parsers.MarkedText

/-! The message of the base class and of DeepSeek R1 for one chunk in the reasoning
phase, by the markers that are in the chunk. -/

namespace TrajProxy.Parsers

variable {M : Markers} {K : Thinking} {decoding : Decoding} {previous : List Int}
  {chunk before after : List Token} {token : Token}

def Thinking.isQwen3 : Thinking → Bool
  | .qwen3 _ => true
  | _ => false

/-- The base class takes text for content until there was a start marker. -/
def Thinking.awaitsStart : Thinking → Bool
  | .base => true
  | _ => false

/-- Text without a marker is taken for reasoning. -/
def Thinking.reads (M : Markers) (K : Thinking) (previous : List Int) : Bool :=
  !K.awaitsStart || decide (M.startTokenId ∈ previous)

def Spoken.unmarked (reads : Bool) (text : List Char) : Spoken :=
  if reads then ⟨text, []⟩ else ⟨[], text⟩

section Methods

variable (M : Markers) (previous : List Int) (chunk : List Token)

/-- The arguments that a chunk is read with. -/
def handedChunk : Handed where
  previousText := ""
  currentText := decoded chunk
  deltaText := decoded chunk
  previousTokenIds := previous
  currentTokenIds := previous ++ tokenIds chunk
  deltaTokenIds := tokenIds chunk

theorem delta_base :
    Thinking.base.delta M previous chunk =
      M.extractReasoningStreaming (handedChunk previous chunk) := rfl

theorem delta_deepSeekR1 :
    Thinking.deepSeekR1.delta M previous chunk =
      M.deepSeekStreaming (handedChunk previous chunk) := rfl

end Methods

section Cutting

variable {text : String} {earlier middle later : List Char}

theorem toList_nonempty (text : String) : ((nonempty text).getD "").toList = text.toList := by
  rw [getD_nonempty]

theorem Spoken.ofDelta_nonempty (reasoning content : String) :
    ofDelta (some ⟨nonempty content, nonempty reasoning, []⟩) =
      ⟨reasoning.toList, content.toList⟩ := by
  rw [← toList_nonempty content, ← toList_nonempty reasoning]
  rfl

theorem ofDelta_message (reasoning content : String) :
    Spoken.ofDelta (some ⟨nonempty content, some reasoning, []⟩) =
      ⟨reasoning.toList, content.toList⟩ := by
  rw [← toList_nonempty content]
  rfl

/-- The slice after a mark that is found. -/
theorem startingAt_mark {mark : String} (shown : text.toList = earlier ++ (mark.toList ++ later)) :
    (Text.startingAt text ((earlier.length : Int) + mark.toList.length)).toList = later := by
  have length : (earlier.length : Int) + mark.toList.length = (earlier ++ mark.toList).length := by
    rw [List.length_append, Int.natCast_add]
  rw [Text.toList_startingAt, shown, length, ← List.append_assoc, Slice.startingAt_length]

theorem upTo_mark {mark : List Char} (shown : text.toList = earlier ++ mark) :
    (Text.upTo text earlier.length).toList = earlier := by
  rw [Text.toList_upTo, shown, Slice.upTo_length]

theorem cutDelta_tag (clear : ¬M.endToken.toList <:+: earlier)
    (shown : text.toList = earlier ++ (M.endToken.toList ++ later)) :
    Spoken.ofDelta (some (M.cutDelta text)) = ⟨earlier, later⟩ := by
  rw [Markers.cutDelta, Text.find_of_tag M.endToken_tag clear shown, ofDelta_message,
    startingAt_mark shown, upTo_mark shown]

/-- A mark that is not found is at -1. -/
theorem cutDelta_clear (clear : ¬M.endToken.toList <:+: text.toList) :
    (Spoken.ofDelta (some (M.cutDelta text))).reasoning.length ≤ text.toList.length - 1 ∧
      (text.toList = [] → Spoken.ofDelta (some (M.cutDelta text)) = ⟨[], []⟩) := by
  rw [Markers.cutDelta, Text.find_of_clear clear, ofDelta_message, Text.toList_upTo,
    Text.toList_startingAt, Slice.upTo_neg_one]
  refine ⟨?_, fun empty => ?_⟩
  · exact Nat.le_of_eq List.length_dropLast
  · rw [empty]
    simp [Slice.startingAt]

theorem betweenDelta_tag (start_clear : ¬M.startToken.toList <:+: earlier)
    (end_clear : ¬M.endToken.toList <:+: earlier ++ (M.startToken.toList ++ middle))
    (shown : text.toList =
      earlier ++ (M.startToken.toList ++ (middle ++ (M.endToken.toList ++ later)))) :
    Spoken.ofDelta (some (M.betweenDelta text)) = ⟨middle, later⟩ := by
  have ending : text.toList =
      (earlier ++ (M.startToken.toList ++ middle)) ++ (M.endToken.toList ++ later) := by
    rw [shown]
    simp only [List.append_assoc]
  have first : (earlier.length : Int) + M.startToken.toList.length =
      (earlier ++ M.startToken.toList).length := by
    rw [List.length_append, Int.natCast_add]
  have last : (((earlier ++ (M.startToken.toList ++ middle)).length : Nat) : Int) =
      ((earlier ++ M.startToken.toList).length : Int) + middle.length := by
    rw [← List.append_assoc, List.length_append, Int.natCast_add]
  have between : (Text.between text ((earlier.length : Int) + M.startToken.toList.length)
      (earlier ++ (M.startToken.toList ++ middle)).length).toList = middle := by
    rw [Text.toList_between, shown, first, last, ← List.append_assoc earlier,
      Slice.between_length]
  rw [Markers.betweenDelta, Text.find_of_tag M.startToken_tag start_clear shown,
    Text.find_of_tag M.endToken_tag end_clear ending, ofDelta_message, startingAt_mark ending,
    between]

/-- The end marker comes first: nothing is between the markers. -/
theorem betweenDelta_crossed (end_clear : ¬M.endToken.toList <:+: earlier)
    (start_clear : ¬M.startToken.toList <:+: earlier ++ (M.endToken.toList ++ middle))
    (shown : text.toList =
      earlier ++ (M.endToken.toList ++ (middle ++ (M.startToken.toList ++ later)))) :
    Spoken.ofDelta (some (M.betweenDelta text)) =
      ⟨[], middle ++ (M.startToken.toList ++ later)⟩ := by
  have starting : text.toList =
      (earlier ++ (M.endToken.toList ++ middle)) ++ (M.startToken.toList ++ later) := by
    rw [shown]
    simp only [List.append_assoc]
  have between : (Text.between text
      (((earlier ++ (M.endToken.toList ++ middle)).length : Int) + M.startToken.toList.length)
      earlier.length).toList = [] := by
    rw [Text.toList_between]
    refine Slice.between_of_le _ ?_ (Int.natCast_nonneg _)
    rw [List.length_append]
    omega
  rw [Markers.betweenDelta, Text.find_of_tag M.startToken_tag start_clear starting,
    Text.find_of_tag M.endToken_tag end_clear shown, ofDelta_message, startingAt_mark shown,
    between]

theorem betweenDelta_clear (start_clear : ¬M.startToken.toList <:+: text.toList)
    (end_clear : ¬M.endToken.toList <:+: text.toList) :
    (Spoken.ofDelta (some (M.betweenDelta text))).reasoning.length ≤ text.toList.length - 1 ∧
      (text.toList = [] → Spoken.ofDelta (some (M.betweenDelta text)) = ⟨[], []⟩) := by
  rw [Markers.betweenDelta, Text.find_of_clear start_clear, Text.find_of_clear end_clear,
    ofDelta_message, Text.toList_between, Text.toList_startingAt]
  refine ⟨Slice.length_between_neg_one _ _, fun empty => ?_⟩
  rw [empty]
  simp [Slice.startingAt, Slice.between]

end Cutting

theorem ne_single {id : Int} (fresh : id ∉ tokenIds chunk) : tokenIds chunk ≠ [id] := by
  intro only
  rw [only] at fresh
  exact fresh List.mem_cons_self

theorem single_of_tokenIds {id : Int} (only : tokenIds (before ++ token :: after) = [id]) :
    before = [] ∧ after = [] := by
  have length := congrArg List.length only
  simp only [tokenIds, List.length_map, List.length_append, List.length_cons, List.length_nil]
    at length
  exact ⟨List.eq_nil_of_length_eq_zero (by omega), List.eq_nil_of_length_eq_zero (by omega)⟩

section Plain

variable (plain : K.isQwen3 = false)
include plain

/-- A chunk without a marker. -/
theorem chunkSpoken_plain (opened : M.endTokenId ∉ previous)
    (unstarted : M.startTokenId ∉ tokenIds chunk) (unended : M.endTokenId ∉ tokenIds chunk) :
    K.chunkSpoken M previous chunk = .unmarked (K.reads M previous) (chars chunk) := by
  have alone : ¬(tokenIds chunk = [M.startTokenId] ∨ tokenIds chunk = [M.endTokenId]) :=
    not_or.mpr ⟨ne_single unstarted, ne_single unended⟩
  cases K with
  | base =>
    rw [Thinking.chunkSpoken, delta_base, Markers.extractReasoningStreaming]
    simp only [handedChunk, alone, unstarted, unended, opened, if_false, Thinking.reads,
      Thinking.awaitsStart]
    by_cases started : M.startTokenId ∈ previous
    · simp [started, Spoken.unmarked]
    · simp [started, Spoken.unmarked]
  | deepSeekR1 =>
    rw [Thinking.chunkSpoken, delta_deepSeekR1, Markers.deepSeekStreaming,
      Markers.extractReasoningStreaming]
    simp only [handedChunk, alone, unstarted, unended, opened, if_false]
    by_cases started : M.startTokenId ∈ previous
    · simp [started, Spoken.unmarked, Thinking.reads, Thinking.awaitsStart]
    · simp [started, Spoken.unmarked, Thinking.reads, Thinking.awaitsStart]
  | qwen3 Q => nomatch plain

/-- A chunk with the start marker only is taken for reasoning, the marker's text too. -/
theorem chunkSpoken_start (opened : M.endTokenId ∉ previous)
    (mem : M.startTokenId ∈ tokenIds chunk) (unended : M.endTokenId ∉ tokenIds chunk) :
    K.chunkSpoken M previous chunk =
      ⟨if tokenIds chunk = [M.startTokenId] then [] else chars chunk, []⟩ := by
  have other : tokenIds chunk ≠ [M.endTokenId] := ne_single unended
  cases K with
  | base =>
    rw [Thinking.chunkSpoken, delta_base, Markers.extractReasoningStreaming]
    simp only [handedChunk, other, mem, unended, opened, or_false, if_true, if_false, ite_self]
    split_ifs with only
    · rfl
    · simp
  | deepSeekR1 =>
    rw [Thinking.chunkSpoken, delta_deepSeekR1, Markers.deepSeekStreaming,
      Markers.extractReasoningStreaming]
    simp only [handedChunk, other, mem, unended, opened, or_false, if_true, if_false, ite_self,
      not_true_eq_false, and_false]
    split_ifs with only
    · rfl
    · simp
  | qwen3 Q => nomatch plain

/-- Only the end marker is in the chunk. -/
theorem chunkSpoken_cut (reads : K.reads M previous = true)
    (unstarted : M.startTokenId ∉ tokenIds chunk) (mem : M.endTokenId ∈ tokenIds chunk) :
    K.chunkSpoken M previous chunk =
      if tokenIds chunk = [M.endTokenId] then ⟨[], []⟩
      else .ofDelta (some (M.cutDelta (decoded chunk))) := by
  have other : tokenIds chunk ≠ [M.startTokenId] := ne_single unstarted
  cases K with
  | base =>
    have started : M.startTokenId ∈ previous := of_decide_eq_true reads
    rw [Thinking.chunkSpoken, delta_base, Markers.extractReasoningStreaming]
    simp only [handedChunk, other, mem, started, false_or, if_true]
    split_ifs with only
    · rfl
    · rfl
  | deepSeekR1 =>
    rw [Thinking.chunkSpoken, delta_deepSeekR1, Markers.deepSeekStreaming,
      Markers.extractReasoningStreaming]
    by_cases only : tokenIds chunk = [M.endTokenId]
    · simp only [handedChunk, only, or_true, if_true]
      rfl
    · by_cases started : M.startTokenId ∈ previous
      · simp only [handedChunk, other, only, started, mem, or_false, if_false, if_true,
          not_true_eq_false, false_and]
      · simp only [handedChunk, other, only, started, unstarted, mem, or_false, if_false, if_true,
          not_false_eq_true, and_true]
  | qwen3 Q => nomatch plain

/-- A chunk with the end marker, in a stream that is read. -/
theorem chunkSpoken_end (marked : M.Marked .kept (before ++ token :: after))
    (at_ : At M.endTokenId before token after)
    (unstarted : M.startTokenId ∉ tokenIds (before ++ token :: after))
    (reads : K.reads M previous = true) :
    K.chunkSpoken M previous (before ++ token :: after) = ⟨chars before, chars after⟩ := by
  have mem : M.endTokenId ∈ tokenIds (before ++ token :: after) := by simp [at_.here]
  have shown := marked.chars_end at_.here
  have clear := marked.left.end_clear at_.before
  rw [chunkSpoken_cut plain reads unstarted mem]
  split_ifs with only
  · obtain ⟨rfl, rfl⟩ := single_of_tokenIds only
    rfl
  · exact cutDelta_tag clear ((toList_decoded _).trans shown)

omit plain in
/-- The base class takes a chunk with the end marker for content if it saw no start
marker. -/
theorem chunkSpoken_unread (unstarted : M.startTokenId ∉ tokenIds chunk)
    (unread : K.reads M previous = false) :
    K.chunkSpoken M previous chunk =
      ⟨[], if tokenIds chunk = [M.endTokenId] then [] else chars chunk⟩ := by
  have other : tokenIds chunk ≠ [M.startTokenId] := ne_single unstarted
  cases K with
  | base =>
    have unseen : M.startTokenId ∉ previous := of_decide_eq_false unread
    rw [Thinking.chunkSpoken, delta_base, Markers.extractReasoningStreaming]
    simp only [handedChunk, other, unseen, unstarted, false_or, if_false]
    split_ifs with only
    · rfl
    · simp
  | deepSeekR1 => nomatch unread
  | qwen3 Q => nomatch unread

/-- Both markers are in the chunk. -/
theorem chunkSpoken_both (fresh : M.startTokenId ∉ previous)
    (start_mem : M.startTokenId ∈ tokenIds chunk) (end_mem : M.endTokenId ∈ tokenIds chunk) :
    K.chunkSpoken M previous chunk = .ofDelta (some (M.betweenDelta (decoded chunk))) := by
  have alone : ¬(tokenIds chunk = [M.startTokenId] ∨ tokenIds chunk = [M.endTokenId]) := by
    rintro (only | only)
    · simp [only, M.ids_ne.symm] at end_mem
    · simp [only, M.ids_ne] at start_mem
  have base : M.extractReasoningStreaming (handedChunk previous chunk) =
      some (M.betweenDelta (decoded chunk)) := by
    rw [Markers.extractReasoningStreaming]
    simp only [handedChunk, alone, fresh, start_mem, end_mem, if_true, if_false]
  cases K with
  | base => rw [Thinking.chunkSpoken, delta_base, base]
  | deepSeekR1 =>
    rw [Thinking.chunkSpoken, delta_deepSeekR1, Markers.deepSeekStreaming, base]
    simp only [handedChunk, start_mem, not_true_eq_false, and_false, if_false]
  | qwen3 Q => nomatch plain

/-- The start marker and then the end marker. -/
theorem chunkSpoken_between {first last : Token} {middle : List Token}
    (marked : M.Marked .kept (before ++ first :: (middle ++ last :: after)))
    (started : At M.startTokenId before first (middle ++ last :: after))
    (ended : At M.endTokenId (before ++ first :: middle) last after)
    (fresh : M.startTokenId ∉ previous) :
    K.chunkSpoken M previous (before ++ first :: (middle ++ last :: after)) =
      ⟨chars middle, chars after⟩ := by
  let chunk := before ++ first :: (middle ++ last :: after)
  have start_mem : M.startTokenId ∈ tokenIds chunk := by simp [chunk, started.here]
  have end_mem : M.endTokenId ∈ tokenIds chunk := by simp [chunk, ended.here]
  have shown : (decoded chunk).toList = chars before ++ (M.startToken.toList ++
      (chars middle ++ (M.endToken.toList ++ chars after))) := by
    rw [toList_decoded, marked.chars_start started.here, marked.right.chars_end ended.here]
    rfl
  have joined : before ++ first :: (middle ++ last :: after) =
      (before ++ first :: middle) ++ last :: after := by simp
  have end_clear : ¬M.endToken.toList <:+:
      chars before ++ (M.startToken.toList ++ chars middle) := by
    have left : M.Marked .kept (before ++ first :: middle) := (joined ▸ marked).left
    rw [show M.startToken = Decoding.kept.shows M.startToken from rfl,
      ← left.chars_start started.here]
    exact left.end_clear ended.before
  have between := betweenDelta_tag (marked.left.start_clear started.before) end_clear shown
  exact (chunkSpoken_both plain fresh start_mem end_mem).trans between

/-- The end marker and then the start marker. -/
theorem chunkSpoken_crossed {first last : Token} {middle : List Token}
    (marked : M.Marked .kept (before ++ first :: (middle ++ last :: after)))
    (ended : At M.endTokenId before first (middle ++ last :: after))
    (started : At M.startTokenId (before ++ first :: middle) last after)
    (fresh : M.startTokenId ∉ previous) :
    K.chunkSpoken M previous (before ++ first :: (middle ++ last :: after)) =
      ⟨[], chars (middle ++ last :: after)⟩ := by
  let chunk := before ++ first :: (middle ++ last :: after)
  have start_mem : M.startTokenId ∈ tokenIds chunk := by simp [chunk, started.here]
  have end_mem : M.endTokenId ∈ tokenIds chunk := by simp [chunk, ended.here]
  have shown : (decoded chunk).toList = chars before ++ (M.endToken.toList ++
      (chars middle ++ (M.startToken.toList ++ chars after))) := by
    rw [toList_decoded, marked.chars_end ended.here, marked.right.chars_start started.here]
    rfl
  have joined : before ++ first :: (middle ++ last :: after) =
      (before ++ first :: middle) ++ last :: after := by simp
  have start_clear : ¬M.startToken.toList <:+:
      chars before ++ (M.endToken.toList ++ chars middle) := by
    have left : M.Marked .kept (before ++ first :: middle) := (joined ▸ marked).left
    rw [show M.endToken = Decoding.kept.shows M.endToken from rfl,
      ← left.chars_end ended.here]
    exact left.start_clear started.before
  have crossed : Spoken.ofDelta (some (M.betweenDelta (decoded chunk))) =
      ⟨[], chars (middle ++ last :: after)⟩ := by
    rw [betweenDelta_crossed (marked.left.end_clear ended.before) start_clear shown,
      marked.right.chars_start started.here]
    rfl
  exact (chunkSpoken_both plain fresh start_mem end_mem).trans crossed

/-- A chunk with the end marker, whose text does not show it, loses some of its text. -/
theorem chunkSpoken_stripped (marked : M.Marked .stripped chunk)
    (mem : M.endTokenId ∈ tokenIds chunk)
    (once : M.startTokenId ∈ tokenIds chunk → M.startTokenId ∉ previous) :
    (K.chunkSpoken M previous chunk).reasoning.length ≤ (chars chunk).length - 1 ∧
      (chars chunk = [] → K.chunkSpoken M previous chunk = ⟨[], []⟩) := by
  have start_clear := (toList_decoded chunk).symm ▸ marked.start_hidden
  have end_clear := (toList_decoded chunk).symm ▸ marked.end_hidden
  by_cases start_mem : M.startTokenId ∈ tokenIds chunk
  · rw [chunkSpoken_both plain (once start_mem) start_mem mem, ← toList_decoded]
    exact betweenDelta_clear start_clear end_clear
  · cases reads : K.reads M previous with
    | true =>
      rw [chunkSpoken_cut plain reads start_mem mem, ← toList_decoded]
      split_ifs with only
      · exact ⟨Nat.zero_le _, fun _ => rfl⟩
      · exact cutDelta_clear end_clear
    | false =>
      rw [chunkSpoken_unread start_mem reads]
      refine ⟨Nat.zero_le _, fun empty => ?_⟩
      rw [empty, ite_self]

end Plain

end TrajProxy.Parsers
