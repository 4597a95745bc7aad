import TrajProxy.Library.Transition
import TrajProxy.Library.Utf8
import TrajProxy.Pipeline.StreamBuffer

/-! `decode_streaming` folded over the chunks of a stream, for a tokenizer whose
tokens are byte strings. What has been sent cannot be taken back: a character
that a chunk completes was sent as U+FFFD by the chunk before. Between two full
decodings the last four tokens must hold the whole of an unfinished character,
or the chunk is decoded as if it stood alone. -/

namespace TrajProxy.Pipeline
open Text Transition

/-- The vocabulary of a byte-level tokenizer. -/
structure ByteLevel where
  bytes : Int → List UInt8
  special : Int → Bool
  encode : String → List Int

namespace ByteLevel

/-- The bytes of the tokens that `skip_special_tokens=True` leaves. -/
def clean (v : ByteLevel) (ids : List Int) : List UInt8 :=
  (ids.filter fun id => !v.special id).flatMap v.bytes

def tokenizer (v : ByteLevel) : Tokenizer where
  encode := v.encode
  decode ids := Utf8.decode (ids.flatMap v.bytes)
  decodeClean ids := Utf8.decode (v.clean ids)

theorem clean_append (v : ByteLevel) (ids more : List Int) :
    v.clean (ids ++ more) = v.clean ids ++ v.clean more := by
  simp only [clean, List.filter_append, List.flatMap_append]

end ByteLevel

/-- A stream after some of its chunks: the context and the deltas so far. -/
structure DecodeState (π : Type) where
  ctx : StreamContext π
  emitted : String

variable {π : Type} (tok : Tokenizer)

/-- One chunk with token ids, as `_process_stream_chunk` decodes it. -/
def DecodeState.step (s : DecodeState π) (tokenIds : List Int) : Option (DecodeState π) :=
  if tokenIds = [] then none
  else
    let (delta, ctx) := decodeStreaming tok tokenIds s.ctx
    some ⟨ctx, s.emitted ++ delta⟩

def streamMachine (π : Type) : Machine (DecodeState π) (List Int) where
  step := DecodeState.step tok

def DecodeState.initial (P : RequestParser π) : DecodeState π := ⟨.initial P, ""⟩

/-- The deltas and the buffer are the decoding of all ids so far. -/
structure DecodeState.Decoded (s : DecodeState π) : Prop where
  emitted : s.emitted = tok.decodeClean s.ctx.streamBufferIds
  buffered : s.ctx.streamBufferText = tok.decodeClean s.ctx.streamBufferIds

/-- The bytes of the tokens that overlap with the next decoding. -/
def ByteLevel.window (v : ByteLevel) (ids : List Int) : List UInt8 :=
  v.clean (ids.drop (ids.length - decodeOverlapWindow))

/-- The chunk completes no character whose first bytes have been sent as U+FFFD,
and if it goes on with such a character, it is decoded in full or the overlap
holds all bytes of the character so far. -/
def ByteLevel.ChunkOk (v : ByteLevel) (ids tokenIds : List Int) : Prop :=
  let unfinished := Utf8.coding.pending [] (v.clean ids)
  (v.tokenizer.decodeClean ids).toList <+: (v.tokenizer.decodeClean (ids ++ tokenIds)).toList ∧
    (decodeCommitInterval ≤ tokenIds.length ∨ unfinished.length ≤ (v.window ids).length ∨
      ¬Utf8.coding.Continues unfinished (v.clean tokenIds))

variable {tok} {s s' : DecodeState π} {ids tokenIds : List Int}

theorem checkpoint_decodeStreaming (tok : Tokenizer) (tokenIds : List Int)
    (ctx : StreamContext π) :
    (decodeStreaming tok tokenIds ctx).2.streamDecodeCheckpointLen =
      (decodeStreaming tok tokenIds ctx).2.streamBufferIds.length := by
  simp only [decodeStreaming]
  split_ifs <;> rfl

/-- Sending what a full decoding has beyond the text sent so far. -/
theorem append_dropFirst_iff (sent full : String) :
    sent ++ dropFirst full sent.length = full ↔ sent.toList <+: full.toList := by
  rw [← String.toList_inj, String.toList_append, dropFirst, String.toList_ofList,
    ← String.length_toList, List.prefix_iff_eq_append]

theorem startsWith_iff (s start : String) : startsWith s start = true ↔ start.toList <+: s.toList :=
  List.isPrefixOf_iff_prefix

namespace ByteLevel

variable (v : ByteLevel)

theorem toList_decodeClean (ids : List Int) :
    (v.tokenizer.decodeClean ids).toList = Utf8.coding.decode (v.clean ids) :=
  String.toList_ofList

theorem clean_window (ids : List Int) :
    v.clean ids = v.clean (ids.take (ids.length - decodeOverlapWindow)) ++ v.window ids := by
  rw [window, ← clean_append, List.take_append_drop]

theorem decode_prefix_iff (ids tokenIds : List Int) :
    (v.tokenizer.decodeClean ids).toList <+: (v.tokenizer.decodeClean (ids ++ tokenIds)).toList ↔
      Utf8.coding.decode (v.clean ids) <+: Utf8.coding.decode (v.clean ids ++ v.clean tokenIds) := by
  rw [toList_decodeClean, toList_decodeClean, clean_append]

/-- The text sliced off behind the overlap. -/
def newText (ids tokenIds : List Int) : String :=
  let overlap := v.window ids
  dropFirst (Utf8.decode (overlap ++ v.clean tokenIds)) (Utf8.decode overlap).length

theorem append_newText_iff (ids tokenIds : List Int) :
    v.tokenizer.decodeClean ids ++ v.newText ids tokenIds =
        v.tokenizer.decodeClean (ids ++ tokenIds) ↔
      Utf8.coding.decode (v.clean ids) ++
          (Utf8.coding.decode (v.window ids ++ v.clean tokenIds)).drop
            (Utf8.coding.decode (v.window ids)).length =
        Utf8.coding.decode (v.clean ids ++ v.clean tokenIds) := by
  rw [← String.toList_inj, String.toList_append, toList_decodeClean, toList_decodeClean,
    clean_append]
  simp only [newText, dropFirst, Utf8.decode, String.toList_ofList, String.length_ofList]

/-- When the overlap is a prefix of the segment, the slice is right exactly for
an admitted chunk. -/
theorem slice_iff (small : ¬decodeCommitInterval ≤ tokenIds.length)
    (starts : Utf8.coding.decode (v.window ids) <+:
      Utf8.coding.decode (v.window ids ++ v.clean tokenIds)) :
    v.tokenizer.decodeClean ids ++ v.newText ids tokenIds =
        v.tokenizer.decodeClean (ids ++ tokenIds) ↔ v.ChunkOk ids tokenIds := by
  rw [append_newText_iff, ChunkOk, decode_prefix_iff]
  by_cases holds : (Utf8.coding.pending [] (v.clean ids)).length ≤ (v.window ids).length
  · have same := Coding.pending_window (v.clean_window ids) holds
    refine iff_of_true (Coding.resume_window same starts) ⟨?_, Or.inr (Or.inl holds)⟩
    exact (Coding.window_prefix_iff same _).mp starts
  · have short : (v.window ids).length < (Utf8.coding.pending [] (v.clean ids)).length := by omega
    have none := Coding.pending_short_window (v.clean_window ids) short
    have started : Utf8.coding.pending [] (v.clean ids) ≠ [] :=
      List.ne_nil_of_length_pos (by omega)
    obtain ⟨-, alone⟩ := Coding.resume_short_window (v.clean tokenIds) none started
    constructor
    · intro right
      exact ⟨right ▸ List.prefix_append .., Or.inr (Or.inr (alone.mp right))⟩
    · rintro ⟨-, long | holds' | breaks⟩
      · exact absurd long small
      · exact absurd holds' holds
      · exact alone.mpr breaks

/-- When it is not, the unfinished character was within the overlap and the
chunk completes it. -/
theorem not_prefix_of_fallback
    (differs : ¬Utf8.coding.decode (v.window ids) <+:
      Utf8.coding.decode (v.window ids ++ v.clean tokenIds)) :
    ¬(v.tokenizer.decodeClean ids).toList <+:
      (v.tokenizer.decodeClean (ids ++ tokenIds)).toList := by
  rw [decode_prefix_iff]
  by_cases holds : (Utf8.coding.pending [] (v.clean ids)).length ≤ (v.window ids).length
  · have same := Coding.pending_window (v.clean_window ids) holds
    exact fun starts => differs ((Coding.window_prefix_iff same _).mpr starts)
  · have short : (v.window ids).length < (Utf8.coding.pending [] (v.clean ids)).length := by omega
    have none := Coding.pending_short_window (v.clean_window ids) short
    have started : Utf8.coding.pending [] (v.clean ids) ≠ [] :=
      List.ne_nil_of_length_pos (by omega)
    exact absurd (Coding.resume_short_window _ none started).1 differs

theorem realign_iff (small : ids = [] ∨ decodeCommitInterval ≤ tokenIds.length) :
    (v.tokenizer.decodeClean ids).toList <+:
        (v.tokenizer.decodeClean (ids ++ tokenIds)).toList ↔ v.ChunkOk ids tokenIds := by
  unfold ChunkOk
  simp only
  refine (and_iff_left ?_).symm
  rcases small with rfl | long
  · exact Or.inr (Or.inl (Nat.zero_le _))
  · exact Or.inl long

/-- A chunk keeps the stream decoded exactly if it is admitted. -/
theorem decodeStreaming_iff (ctx : StreamContext π) (tokenIds : List Int)
    (aligned : ctx.streamDecodeCheckpointLen = ctx.streamBufferIds.length)
    (buffered : ctx.streamBufferText = v.tokenizer.decodeClean ctx.streamBufferIds) :
    (v.tokenizer.decodeClean ctx.streamBufferIds ++ (decodeStreaming v.tokenizer tokenIds ctx).1 =
          v.tokenizer.decodeClean (ctx.streamBufferIds ++ tokenIds) ∧
        (decodeStreaming v.tokenizer tokenIds ctx).2.streamBufferText =
          v.tokenizer.decodeClean (ctx.streamBufferIds ++ tokenIds)) ↔
      v.ChunkOk ctx.streamBufferIds tokenIds := by
  have length : (ctx.streamBufferIds ++ tokenIds).length - ctx.streamDecodeCheckpointLen =
      tokenIds.length := by
    rw [aligned, List.length_append]
    omega
  have segment : v.tokenizer.decodeClean ((ctx.streamBufferIds ++ tokenIds).drop
      (ctx.streamDecodeCheckpointLen - decodeOverlapWindow)) =
        Utf8.decode (v.window ctx.streamBufferIds ++ v.clean tokenIds) := by
    have within : ctx.streamBufferIds.length - decodeOverlapWindow ≤ ctx.streamBufferIds.length :=
      Nat.sub_le _ _
    rw [aligned, List.drop_append_of_le_length within, window, ← clean_append]
    rfl
  have overlap : v.tokenizer.decodeClean (((ctx.streamBufferIds ++ tokenIds).take
      ctx.streamDecodeCheckpointLen).drop (ctx.streamDecodeCheckpointLen - decodeOverlapWindow)) =
        Utf8.decode (v.window ctx.streamBufferIds) := by
    rw [aligned, List.take_left]
    rfl
  have realigned := append_dropFirst_iff (v.tokenizer.decodeClean ctx.streamBufferIds)
    (v.tokenizer.decodeClean (ctx.streamBufferIds ++ tokenIds))
  simp only [decodeStreaming, length, segment, overlap, buffered]
  split_ifs with full starts
  · rw [realigned, and_iff_left rfl]
    refine v.realign_iff (full.imp_left fun none => ?_)
    rw [aligned] at none
    exact List.length_eq_zero_iff.mp none
  · rw [startsWith_iff, Utf8.decode, Utf8.decode, String.toList_ofList, String.toList_ofList]
      at starts
    rw [and_self]
    exact v.slice_iff (not_or.mp full).2 starts
  · rw [startsWith_iff, Utf8.decode, Utf8.decode, String.toList_ofList, String.toList_ofList]
      at starts
    rw [realigned, and_iff_left rfl]
    have broken := v.not_prefix_of_fallback starts
    exact iff_of_false broken fun ok => broken ok.1

end ByteLevel

/-- Every chunk was committed. -/
def DecodeState.Aligned (s : DecodeState π) : Prop :=
  s.ctx.streamDecodeCheckpointLen = s.ctx.streamBufferIds.length

structure DecodeState.Kept (tok : Tokenizer) (s : DecodeState π) : Prop
    extends DecodeState.Decoded tok s where
  aligned : s.Aligned

theorem step_kept_iff (v : ByteLevel) (s : DecodeState π) (tokenIds : List Int)
    (s' : DecodeState π) (kept : s.Kept v.tokenizer)
    (taken : (streamMachine v.tokenizer π).step s tokenIds = some s') :
    s'.Kept v.tokenizer ↔ v.ChunkOk s.ctx.streamBufferIds tokenIds := by
  change s.step v.tokenizer tokenIds = some s' at taken
  unfold DecodeState.step at taken
  split_ifs at taken
  rw [Option.some_inj] at taken
  subst taken
  have ids := decodeStreaming_ids v.tokenizer tokenIds s.ctx
  rw [← v.decodeStreaming_iff s.ctx tokenIds kept.aligned kept.buffered]
  constructor
  · intro after
    have emitted := after.emitted
    have buffered := after.buffered
    rw [ids] at buffered
    simp only [ids, kept.emitted] at emitted
    exact ⟨emitted, buffered⟩
  · rintro ⟨emitted, buffered⟩
    refine ⟨⟨?_, ?_⟩, checkpoint_decodeStreaming ..⟩
    · rw [ids, ← emitted, kept.emitted]
    · rw [ids, buffered]

/-- A stream is decoded in every state exactly when all its chunks are admitted. -/
theorem stream_decoded_iff (v : ByteLevel) (P : RequestParser π) (chunks : List (List Int)) :
    (streamMachine v.tokenizer π).Along (DecodeState.Decoded v.tokenizer) (.initial P) chunks ↔
      (streamMachine v.tokenizer π).Guarded (fun s => v.ChunkOk s.ctx.streamBufferIds)
        (.initial P) chunks := by
  have start : (DecodeState.initial P).Kept v.tokenizer := ⟨⟨rfl, rfl⟩, rfl⟩
  have aligned : (streamMachine v.tokenizer π).Along DecodeState.Aligned (.initial P) chunks := by
    refine Machine.along_of_step ?_ start.aligned chunks
    intro s tokenIds s' _ taken
    change s.step v.tokenizer tokenIds = some s' at taken
    unfold DecodeState.step at taken
    split_ifs at taken
    rw [Option.some_inj] at taken
    subst taken
    exact checkpoint_decodeStreaming ..
  rw [← Machine.along_iff_guarded (step_kept_iff v) start]
  constructor
  · intro decoded
    exact (decoded.and aligned).mono fun s h => ⟨h.1, h.2⟩
  · exact fun kept => kept.mono fun s h => h.toDecoded

private def anyParser : RequestParser Unit := ⟨(), fun _ _ _ _ => .ok (none, ()), fun _ => false⟩

/-- Two tokens that hold the bytes of one character. -/
private def twoBytes : ByteLevel where
  bytes id := if id = 0 then [0xC3] else [0xA9]
  special _ := false
  encode _ := []

private def streamed (chunks : List (List Int)) : Option (DecodeState Unit) :=
  (streamMachine twoBytes.tokenizer Unit).exec (.initial anyParser) chunks

/-- A character in two chunks: the first byte is sent as U+FFFD. -/
theorem split_character_sent :
    ¬∀ (v : ByteLevel) (chunks : List (List Int)) (s : DecodeState Unit),
      (streamMachine v.tokenizer Unit).exec (.initial anyParser) chunks = some s →
        s.Decoded v.tokenizer := by
  intro all
  have emitted : (streamed [[0], [1]]).map DecodeState.emitted = some "\uFFFD" := by decide
  have decode : twoBytes.tokenizer.decodeClean [0, 1] ≠ "\uFFFD" := by decide
  obtain ⟨s, ran, sent⟩ := Option.map_eq_some_iff.mp emitted
  have buffered : (streamed [[0], [1]]).map (·.ctx.streamBufferIds) = some [0, 1] := by decide
  have ids : s.ctx.streamBufferIds = [0, 1] := by
    rw [ran, Option.map_some, Option.some_inj] at buffered
    exact buffered
  have decoded := (all twoBytes [[0], [1]] s ran).emitted
  rw [sent, ids] at decoded
  exact decode decoded.symm

end TrajProxy.Pipeline
