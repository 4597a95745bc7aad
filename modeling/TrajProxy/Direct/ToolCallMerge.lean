import TrajProxy.Direct.Reconstructed
import TrajProxy.Library.Interleave

/-! `_merge_stream_tool_calls` of `StreamChunkBuilder`, a second copy of the one of
`DirectPipeline`, and what both make of tool calls that come in fragments. -/

namespace TrajProxy.Direct

namespace StreamChunkBuilder

/-- `merged[idx][key] = value` for an entry that is there. -/
def assign (merged : OrderedDict (Option Nat) MergedToolCall) (idx : Option Nat)
    (change : MergedToolCall → MergedToolCall) : OrderedDict (Option Nat) MergedToolCall :=
  match merged.get idx with
  | some entry => merged.setItem idx (change entry)
  | none => merged

/-- The body of the loop, after the test for an empty fragment. -/
def mergeToolCall (merged : OrderedDict (Option Nat) MergedToolCall) (tc : ToolCallDelta) :
    OrderedDict (Option Nat) MergedToolCall :=
  let idx := tc.index.getOr 0
  let merged := if idx ∈ merged then merged
    else merged.setItem idx ⟨tc.id.getOr "", tc.type.getOr "function", "", ""⟩
  let merged := if tc.id.text = "" then merged
    else assign merged idx fun entry => { entry with id := tc.id.get }
  let merged := if tc.type.text = "" then merged
    else assign merged idx fun entry => { entry with type := tc.type.get }
  match functionDelta tc.function with
  | none => merged
  | some func =>
    let merged := if func.name.text = "" then merged
      else assign merged idx fun entry => { entry with name := func.name.text }
    if func.arguments.text = "" then merged
    else assign merged idx fun entry =>
      { entry with arguments := entry.arguments ++ func.arguments.text }

/-- `StreamChunkBuilder._merge_stream_tool_calls` -/
def mergeStreamToolCalls (toolCalls : List ToolCallDelta) : List MergedToolCall :=
  OrderedDict.values (toolCalls.foldl
    (fun merged tc => if tc.isEmpty then merged else mergeToolCall merged tc) ∅)

end StreamChunkBuilder

/-- A function tool call as it was before it was streamed. -/
structure CompleteToolCall where
  index : Nat
  id : String
  type : String
  name : String
  arguments : String

def CompleteToolCall.merged (call : CompleteToolCall) : MergedToolCall :=
  ⟨some call.id, some call.type, call.name, call.arguments⟩

/-- The first fragment of a call. -/
structure Opens (call : CompleteToolCall) (tc : ToolCallDelta) : Prop where
  index : tc.index = .value call.index
  id : tc.id = .value call.id
  type : tc.type = .value call.type
  name : tc.namePiece = call.name

/-- A later fragment: only arguments. -/
structure Continues (call : CompleteToolCall) (tc : ToolCallDelta) : Prop where
  index : tc.index = .value call.index
  id : tc.id.text = ""
  type : tc.type.text = ""
  name : tc.namePiece = ""

/-- The call cut into fragments. -/
def Fragmented (call : CompleteToolCall) : List ToolCallDelta → Prop
  | [] => False
  | first :: rest => Opens call first ∧ (∀ tc ∈ rest, Continues call tc) ∧
      String.join ((first :: rest).map ToolCallDelta.argumentsPiece) = call.arguments

section Copies

variable {merged : OrderedDict (Option Nat) MergedToolCall} {idx : Option Nat}
  {entry : MergedToolCall}

open StreamChunkBuilder

theorem assign_eq (present : merged.get idx = some entry)
    (change : MergedToolCall → MergedToolCall) :
    assign merged idx change = merged.setItem idx (change entry) := by
  rw [assign, present]

/-- An assignment that is only made if the value is true. -/
theorem assign_unless (present : merged.get idx = some entry) (skip : Prop) [Decidable skip]
    (change : MergedToolCall → MergedToolCall) :
    (if skip then merged else assign merged idx change) =
      merged.setItem idx (if skip then entry else change entry) := by
  split_ifs
  · exact (OrderedDict.setItem_get present).symm
  · exact assign_eq present change

/-- One assignment of the whole entry in place of one for each key. -/
theorem mergeToolCall_eq (merged : OrderedDict (Option Nat) MergedToolCall) (tc : ToolCallDelta) :
    mergeToolCall merged tc = OrderedDict.updateItem ToolCallDelta.key mergeEntry merged tc := by
  set entry := (merged.get tc.key).getD (.start tc) with entry_eq
  have opened : (if tc.key ∈ merged then merged else merged.setItem tc.key (.start tc)) =
      merged.setItem tc.key entry := by
    split_ifs with mem
    · cases present : merged.get tc.key with
      | none => exact absurd mem (OrderedDict.get_eq_none.mp present)
      | some old =>
        rw [entry_eq, present]
        exact (OrderedDict.setItem_get present).symm
    · rw [entry_eq, OrderedDict.get_eq_none.mpr mem]
      rfl
  have step (entry : MergedToolCall) (skip : Prop) [Decidable skip]
      (change : MergedToolCall → MergedToolCall) :
      (if skip then merged.setItem tc.key entry
        else assign (merged.setItem tc.key entry) tc.key change) =
          merged.setItem tc.key (if skip then entry else change entry) := by
    rw [assign_unless (OrderedDict.get_setItem_self merged tc.key entry),
      OrderedDict.setItem_setItem]
  have ids : (if tc.id.text = "" then entry else { entry with id := tc.id.get }) =
      { entry with id := keepTruthyField entry.id tc.id } := by
    unfold keepTruthyField
    split_ifs <;> rfl
  have types (entry : MergedToolCall) :
      (if tc.type.text = "" then entry else { entry with type := tc.type.get }) =
        { entry with type := keepTruthyField entry.type tc.type } := by
    unfold keepTruthyField
    split_ifs <;> rfl
  have key : tc.index.getOr 0 = tc.key := rfl
  have start : (⟨tc.id.getOr "", tc.type.getOr "function", "", ""⟩ : MergedToolCall) =
      .start tc := rfl
  unfold mergeToolCall
  dsimp only
  rw [key, start, opened, step, ids, step, types, OrderedDict.updateItem, mergeEntry, ← entry_eq,
    MergedToolCall.merge]
  cases functionDelta tc.function with
  | none => rfl
  | some func =>
    dsimp only
    rw [step, step]
    unfold keepTruthy
    split_ifs with arguments
    · rw [arguments, String.append_empty]
    · rw [arguments, String.append_empty]
    · rfl
    · rfl

theorem builder_mergeStreamToolCalls (toolCalls : List ToolCallDelta) :
    StreamChunkBuilder.mergeStreamToolCalls toolCalls = mergeStreamToolCalls toolCalls := by
  unfold StreamChunkBuilder.mergeStreamToolCalls mergeStreamToolCalls
  rw [List.foldl_filter]
  congr 2
  funext merged tc
  rw [mergeToolCall_eq]
  cases tc.isEmpty <;> rfl

end Copies

section Fragments

variable {call : CompleteToolCall} {tc : ToolCallDelta} {rest : List ToolCallDelta}

theorem Fragmented.index {parts : List ToolCallDelta} (cut : Fragmented call parts) :
    ∀ tc ∈ parts, tc.index = .value call.index := by
  cases parts with
  | nil => exact cut.elim
  | cons first rest =>
    intro tc mem
    rcases List.mem_cons.mp mem with rfl | mem
    · exact cut.1.index
    · exact (cut.2.1 tc mem).index

theorem Fragmented.exists_mem {parts : List ToolCallDelta} (cut : Fragmented call parts) :
    ∃ tc, tc ∈ parts := by
  cases parts with
  | nil => exact cut.elim
  | cons first rest => exact ⟨first, List.mem_cons_self⟩

theorem Opens.mergeEntry (opens : Opens call tc) :
    mergeEntry none tc = ⟨some call.id, some call.type, call.name, tc.argumentsPiece⟩ := by
  have keeps (text : String) : keepTruthyField (some text) (.value text) = some text := by
    unfold keepTruthyField
    split_ifs <;> rfl
  have name : keepTruthy "" call.name = call.name := by
    unfold keepTruthy
    split_ifs with empty
    · exact empty.symm
    · rfl
  rw [Direct.mergeEntry, merge_eq, opens.name, opens.id, opens.type]
  simp only [Option.getD_none, MergedToolCall.start, opens.id, opens.type, Field.getOr, keeps, name,
    String.empty_append]

theorem Continues.merge (continues : Continues call tc) (entry : MergedToolCall) :
    entry.merge tc = { entry with arguments := entry.arguments ++ tc.argumentsPiece } := by
  rw [merge_eq, keepTruthyField, if_pos continues.id, keepTruthyField, if_pos continues.type,
    continues.name]
  rfl

/-- Later fragments only lengthen the arguments. -/
theorem foldl_continues (all : ∀ tc ∈ rest, Continues call tc) (entry : MergedToolCall) :
    rest.foldl (fun entry tc => some (mergeEntry entry tc)) (some entry) =
      some { entry with arguments :=
        entry.arguments ++ String.join (rest.map ToolCallDelta.argumentsPiece) } := by
  induction rest generalizing entry with
  | nil => simp
  | cons tc rest ih =>
    rw [List.forall_mem_cons] at all
    have step : mergeEntry (some entry) tc =
        { entry with arguments := entry.arguments ++ tc.argumentsPiece } :=
      all.1.merge entry
    rw [List.foldl_cons, step, ih all.2]
    simp [String.append_assoc]

/-- The fragments of one call make the call. -/
theorem Fragmented.merged {parts : List ToolCallDelta} (cut : Fragmented call parts) :
    parts.foldl (fun entry tc => some (mergeEntry entry tc)) none = some call.merged := by
  cases parts with
  | nil => exact cut.elim
  | cons first rest =>
    obtain ⟨opens, continues, whole⟩ := cut
    rw [List.foldl_cons, opens.mergeEntry, foldl_continues continues, CompleteToolCall.merged,
      ← whole]
    simp

theorem Fragmented.key {parts : List ToolCallDelta} (cut : Fragmented call parts) :
    ∀ tc ∈ parts, tc.key = some call.index := by
  intro tc mem
  rw [ToolCallDelta.key, cut.index tc mem]
  rfl

theorem Fragmented.isEmpty {parts : List ToolCallDelta} (cut : Fragmented call parts) :
    ∀ tc ∈ parts, tc.isEmpty = false := by
  intro tc mem
  have index := cut.index tc mem
  obtain ⟨_, id, type, function, extras⟩ := tc
  dsimp only at index
  subst index
  rfl

end Fragments

section Interleaved

variable {calls : List CompleteToolCall} {parts : Fin calls.length → List ToolCallDelta}
  {whole : List ToolCallDelta}

def CompleteToolCall.key (call : CompleteToolCall) : Option Nat := some call.index

theorem CompleteToolCall.eq_of_key (distinct : (calls.map CompleteToolCall.index).Nodup)
    {call other : CompleteToolCall} (mem : call ∈ calls) (mem' : other ∈ calls)
    (same : call.key = other.key) : call = other :=
  List.inj_on_of_nodup_map distinct mem mem' (Option.some.inj same)

theorem key_injective (distinct : (calls.map CompleteToolCall.index).Nodup) :
    Function.Injective fun i : Fin calls.length => calls[i].key := by
  intro i j same
  have eq : calls[i] = calls[j] :=
    CompleteToolCall.eq_of_key distinct (List.getElem_mem i.isLt) (List.getElem_mem j.isLt) same
  exact Fin.ext (distinct.of_map.getElem_inj_iff.mp eq)

/-- The value under the key of a call. -/
theorem merged_of_key (distinct : (calls.map CompleteToolCall.index).Nodup)
    (cut : ∀ i : Fin calls.length, Fragmented calls[i] (parts i)) (woven : Interleaves parts whole)
    {call : CompleteToolCall} (mem : call ∈ calls) :
    (whole.filter fun tc => tc.key = call.key).foldl
      (fun entry tc => some (mergeEntry entry tc)) none = some call.merged := by
  obtain ⟨i, bound, rfl⟩ := List.getElem_of_mem mem
  have own : ∀ i : Fin calls.length, ∀ tc ∈ parts i, tc.key = calls[i].key :=
    fun i => (cut i).key
  have part := woven.filter_key (key_injective distinct) own ⟨i, bound⟩
  rw [show calls[i].key = calls[(⟨i, bound⟩ : Fin calls.length)].key from rfl, part]
  exact (cut ⟨i, bound⟩).merged

theorem exists_ordered {keys : List (Option Nat)}
    (own : ∀ key ∈ keys, ∃ call ∈ calls, call.key = key) :
    ∃ ordered : List CompleteToolCall, ordered.map CompleteToolCall.key = keys ∧
      ∀ call ∈ ordered, call ∈ calls := by
  induction keys with
  | nil => exact ⟨[], rfl, List.forall_mem_nil _⟩
  | cons key keys ih =>
    rw [List.forall_mem_cons] at own
    obtain ⟨call, mem, here⟩ := own.1
    obtain ⟨ordered, same, all⟩ := ih own.2
    refine ⟨call :: ordered, by rw [List.map_cons, here, same], ?_⟩
    exact List.forall_mem_cons.mpr ⟨mem, all⟩

/-- Every call once, in the order of the first fragments, by both copies. -/
theorem mergeStreamToolCalls_fragments (calls : List CompleteToolCall)
    (parts : Fin calls.length → List ToolCallDelta) (whole : List ToolCallDelta)
    (distinct : (calls.map CompleteToolCall.index).Nodup)
    (cut : ∀ i : Fin calls.length, Fragmented calls[i] (parts i))
    (woven : Interleaves parts whole) :
    ∃ ordered : List CompleteToolCall, ordered.Perm calls ∧
      ordered.map CompleteToolCall.key = firstOccurrences (whole.map ToolCallDelta.key) ∧
      mergeStreamToolCalls whole = ordered.map CompleteToolCall.merged ∧
      StreamChunkBuilder.mergeStreamToolCalls whole = mergeStreamToolCalls whole := by
  have owner : ∀ tc ∈ whole, ∃ i : Fin calls.length, tc ∈ parts i := fun tc mem =>
    woven.mem_iff.mp mem
  have own : ∀ key ∈ firstOccurrences (whole.map ToolCallDelta.key),
      ∃ call ∈ calls, call.key = key := by
    intro key mem
    rw [mem_firstOccurrences, List.mem_map] at mem
    obtain ⟨tc, mem, rfl⟩ := mem
    obtain ⟨i, mem⟩ := owner tc mem
    exact ⟨calls[i], List.getElem_mem i.isLt, ((cut i).key tc mem).symm⟩
  obtain ⟨ordered, keys, all⟩ := exists_ordered own
  refine ⟨ordered, ?_, keys, ?_, builder_mergeStreamToolCalls whole⟩
  · have nodup : (ordered.map CompleteToolCall.key).Nodup := keys ▸ nodup_firstOccurrences _
    refine (List.perm_ext_iff_of_nodup nodup.of_map distinct.of_map).mpr fun call => ⟨all call, ?_⟩
    intro mem
    obtain ⟨i, bound, rfl⟩ := List.getElem_of_mem mem
    obtain ⟨tc, first⟩ := (cut ⟨i, bound⟩).exists_mem
    have key : calls[i].key ∈ firstOccurrences (whole.map ToolCallDelta.key) := by
      rw [mem_firstOccurrences, List.mem_map]
      exact ⟨tc, woven.mem_iff.mpr ⟨_, first⟩, (cut ⟨i, bound⟩).key tc first⟩
    rw [← keys, List.mem_map] at key
    obtain ⟨call, there, same⟩ := key
    exact CompleteToolCall.eq_of_key distinct (all call there) mem same ▸ there
  · have kept : (whole.filter fun tc => !tc.isEmpty) = whole := by
      rw [List.filter_eq_self]
      intro tc mem
      obtain ⟨i, mem⟩ := owner tc mem
      rw [(cut i).isEmpty tc mem]
      rfl
    have values := OrderedDict.values_foldl_updateItem ToolCallDelta.key mergeEntry whole
    rw [mergeStreamToolCalls, kept, values, ← firstOccurrences, ← keys, List.filterMap_map,
      ← List.filterMap_eq_map]
    apply List.filterMap_congr
    intro call mem
    exact merged_of_key distinct cut woven (all call mem)

end Interleaved

def CompleteToolCall.opening (call : CompleteToolCall) (arguments : String) : ToolCallDelta :=
  ⟨.value call.index, .value call.id, .value call.type,
    .value ⟨.value call.name, .value arguments, []⟩, []⟩

def CompleteToolCall.continuation (call : CompleteToolCall) (arguments : String) : ToolCallDelta :=
  ⟨.value call.index, .missing, .missing, .value ⟨.missing, .value arguments, []⟩, []⟩

/-- The arguments may be cut anywhere. -/
theorem CompleteToolCall.fragmented (call : CompleteToolCall) {first : String} {rest : List String}
    (whole : String.join (first :: rest) = call.arguments) :
    Fragmented call (call.opening first :: rest.map call.continuation) := by
  refine ⟨⟨rfl, rfl, rfl, rfl⟩, ?_, ?_⟩
  · intro tc mem
    obtain ⟨arguments, _, rfl⟩ := List.mem_map.mp mem
    exact ⟨rfl, rfl, rfl, rfl⟩
  · rw [← whole, List.map_cons, List.map_map]
    congr 2
    exact List.map_id'' (fun _ => rfl) rest

/-- The fragments of two calls, the second call first. -/
theorem mergeStreamToolCalls_fragments_two :
    ∃ ordered : List CompleteToolCall, ordered.Perm
        [⟨0, "a", "function", "f", "xy"⟩, ⟨1, "b", "function", "g", "z"⟩] ∧
      mergeStreamToolCalls
        [CompleteToolCall.opening ⟨1, "b", "function", "g", "z"⟩ "z",
          CompleteToolCall.opening ⟨0, "a", "function", "f", "xy"⟩ "x",
          CompleteToolCall.continuation ⟨0, "a", "function", "f", "xy"⟩ "y"] =
        ordered.map CompleteToolCall.merged := by
  have woven := Interleaves.take (1 : Fin 2)
    (CompleteToolCall.opening ⟨1, "b", "function", "g", "z"⟩ "z")
    (.take 0 (CompleteToolCall.opening ⟨0, "a", "function", "f", "xy"⟩ "x")
      (.take 0 (CompleteToolCall.continuation ⟨0, "a", "function", "f", "xy"⟩ "y") .done))
  obtain ⟨ordered, perm, _, merged, _⟩ := mergeStreamToolCalls_fragments
    [⟨0, "a", "function", "f", "xy"⟩, ⟨1, "b", "function", "g", "z"⟩] _ _ (by decide)
    (by
      refine Fin.forall_fin_two.mpr ⟨?_, ?_⟩
      · exact CompleteToolCall.fragmented ⟨0, "a", "function", "f", "xy"⟩
          (show String.join ["x", "y"] = "xy" by decide)
      · exact CompleteToolCall.fragmented ⟨1, "b", "function", "g", "z"⟩
          (show String.join ["z"] = "z" by decide))
    woven
  exact ⟨ordered, perm, merged⟩

end TrajProxy.Direct
