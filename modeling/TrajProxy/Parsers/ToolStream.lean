import TrajProxy.Direct.Rendering
import TrajProxy.Direct.ToolCallMerge
import TrajProxy.Pipeline.TokenStream

/-! The tool calls of a stream as a client puts them together: a call starts with its
id and its name, the calls start in the order of their indexes, and what comes later
only lengthens the arguments of a call. The tool parsers refine this. -/

namespace TrajProxy.Parsers
open Pipeline (DeltaToolCall DeltaMessage)

structure StreamedCall where
  id : String
  name : String
  arguments : String
  deriving DecidableEq

def StreamedCall.extend (arguments : String) (call : StreamedCall) : StreamedCall :=
  { call with arguments := call.arguments ++ arguments }

/-- A delta starts the next call or lengthens one; a client can take no other. -/
def takeDelta (calls : List StreamedCall) (delta : DeltaToolCall) : Option (List StreamedCall) :=
  match delta.id, delta.type, delta.name with
  | some id, some type, some name =>
    if type = "function" ∧ delta.index = calls.length then
      some (calls ++ [⟨id, name, delta.arguments.getD ""⟩])
    else none
  | none, none, none =>
    if delta.index < calls.length then
      some (calls.modify delta.index (.extend (delta.arguments.getD "")))
    else none
  | _, _, _ => none

def takeDeltas (calls : List StreamedCall) (deltas : List DeltaToolCall) :
    Option (List StreamedCall) :=
  deltas.foldlM takeDelta calls

theorem takeDelta_cases {calls calls' : List StreamedCall} {delta : DeltaToolCall}
    (taken : takeDelta calls delta = some calls') :
    (∃ id name arguments,
      delta = ⟨calls.length, some id, some "function", some name, arguments⟩ ∧
        calls' = calls ++ [⟨id, name, arguments.getD ""⟩]) ∨
      ∃ index arguments, delta = ⟨index, none, none, none, arguments⟩ ∧ index < calls.length ∧
        calls' = calls.modify index (.extend (arguments.getD "")) := by
  obtain ⟨index, id, type, name, arguments⟩ := delta
  unfold takeDelta at taken
  split at taken
  · rename_i id type name hid htype hname
    dsimp only at hid htype hname taken
    subst hid htype hname
    split_ifs at taken with next
    obtain ⟨rfl, rfl⟩ := next
    exact .inl ⟨id, name, arguments, rfl, (Option.some.inj taken).symm⟩
  · rename_i hid htype hname
    dsimp only at hid htype hname taken
    subst hid htype hname
    split_ifs at taken with there
    exact .inr ⟨index, arguments, rfl, there, (Option.some.inj taken).symm⟩
  · nomatch taken

theorem takeDeltas_append (calls : List StreamedCall) (first second : List DeltaToolCall) :
    takeDeltas calls (first ++ second) =
      (takeDeltas calls first).bind fun calls => takeDeltas calls second :=
  List.foldlM_append

theorem takeDeltas_trans {calls calls' calls'' : List StreamedCall}
    {first second : List DeltaToolCall} (h : takeDeltas calls first = some calls')
    (h' : takeDeltas calls' second = some calls'') :
    takeDeltas calls (first ++ second) = some calls'' := by
  rw [takeDeltas_append, h]
  exact h'

theorem modify_middle {β : Type} (before after : List β) (b : β) (f : β → β) :
    (before ++ b :: after).modify before.length f = before ++ f b :: after := by
  induction before with
  | nil => rfl
  | cons head before ih =>
    rw [List.cons_append, List.length_cons, List.modify_succ_cons, ih, List.cons_append]

theorem takeDelta_start (calls : List StreamedCall) (id name : String) (arguments : Option String) :
    takeDelta calls ⟨calls.length, some id, some "function", some name, arguments⟩ =
      some (calls ++ [⟨id, name, arguments.getD ""⟩]) :=
  if_pos ⟨rfl, rfl⟩

theorem takeDelta_arguments (before after : List StreamedCall) (call : StreamedCall)
    (arguments : Option String) :
    takeDelta (before ++ call :: after) ⟨before.length, none, none, none, arguments⟩ =
      some (before ++ call.extend (arguments.getD "") :: after) := by
  have inside : before.length < (before ++ call :: after).length := by
    rw [List.length_append, List.length_cons]
    omega
  rw [takeDelta]
  dsimp only
  rw [if_pos inside, modify_middle]

theorem takeDeltas_singleton (calls : List StreamedCall) (delta : DeltaToolCall) :
    takeDeltas calls [delta] = takeDelta calls delta := by
  rw [takeDeltas, List.foldlM_cons]
  cases takeDelta calls delta <;> rfl

/-- The content of the messages of a stream. -/
def sentContent (messages : List (Option DeltaMessage)) : List Char :=
  messages.flatMap fun message => ((message.bind DeltaMessage.content).getD "").toList

/-- The deltas of their tool calls. -/
def sentToolCalls (messages : List (Option DeltaMessage)) : List DeltaToolCall :=
  messages.flatMap fun message => (message.map DeltaMessage.toolCalls).getD []

theorem sentContent_cons (message : Option DeltaMessage) (messages : List (Option DeltaMessage)) :
    sentContent (message :: messages) = sentContent [message] ++ sentContent messages := by
  rw [sentContent, List.flatMap_cons, sentContent, List.flatMap_singleton]
  rfl

theorem sentToolCalls_cons (message : Option DeltaMessage)
    (messages : List (Option DeltaMessage)) :
    sentToolCalls (message :: messages) = sentToolCalls [message] ++ sentToolCalls messages := by
  rw [sentToolCalls, List.flatMap_cons, sentToolCalls, List.flatMap_singleton]
  rfl

/-- The delta as the client reads it. -/
def wire (delta : DeltaToolCall) : Direct.ToolCallDelta where
  index := .value delta.index
  id := delta.id.elim .missing .value
  type := delta.type.elim .missing .value
  function :=
    match delta.name, delta.arguments with
    | none, none => .missing
    | name, arguments =>
      .value ⟨name.elim .missing .value, arguments.elim .missing .value, []⟩
  extras := []

theorem wire_toItems (delta : DeltaToolCall) : .obj (wire delta).toItems = delta.toJson := by
  obtain ⟨index, id, type, name, arguments⟩ := delta
  cases id <;> cases type <;> cases name <;> cases arguments <;> rfl

def StreamedCall.merged (call : StreamedCall) : Direct.MergedToolCall :=
  ⟨some call.id, some "function", call.name, call.arguments⟩

section Merge

variable {calls calls' : List StreamedCall} {deltas : List DeltaToolCall}

theorem namePiece_wire (delta : DeltaToolCall) :
    (wire delta).namePiece = delta.name.getD "" := by
  obtain ⟨index, id, type, name, arguments⟩ := delta
  cases name <;> cases arguments <;> rfl

theorem argumentsPiece_wire (delta : DeltaToolCall) :
    (wire delta).argumentsPiece = delta.arguments.getD "" := by
  obtain ⟨index, id, type, name, arguments⟩ := delta
  cases name <;> cases arguments <;> rfl

theorem opens_wire (index : Nat) (id name : String) (arguments : Option String) :
    Direct.Opens ⟨index, id, "function", name, arguments.getD ""⟩
      (wire ⟨index, some id, some "function", some name, arguments⟩) where
  index := rfl
  id := rfl
  type := rfl
  name := namePiece_wire _

theorem continues_wire (index : Nat) (call : Direct.CompleteToolCall) (arguments : Option String)
    (same : call.index = index) :
    Direct.Continues call (wire ⟨index, none, none, none, arguments⟩) where
  index := congrArg Field.value same.symm
  id := rfl
  type := rfl
  name := namePiece_wire _

theorem mergeEntry_start (index : Nat) (id name : String) (arguments : Option String) :
    Direct.mergeEntry none (wire ⟨index, some id, some "function", some name, arguments⟩) =
      StreamedCall.merged ⟨id, name, arguments.getD ""⟩ := by
  rw [(opens_wire index id name arguments).mergeEntry, argumentsPiece_wire]
  rfl

theorem mergeEntry_extend (index : Nat) (call : StreamedCall) (arguments : Option String) :
    Direct.mergeEntry (some call.merged) (wire ⟨index, none, none, none, arguments⟩) =
      (call.extend (arguments.getD "")).merged := by
  have continues := continues_wire index ⟨index, "", "", "", ""⟩ arguments rfl
  rw [Direct.mergeEntry, Option.getD_some, continues.merge, argumentsPiece_wire]
  rfl

/-- The dictionary of the merge has the calls of the client, in their order. -/
structure Merges (d : OrderedDict (Option Nat) Direct.MergedToolCall)
    (calls : List StreamedCall) : Prop where
  keys : d.keys.reverse = (List.range calls.length).map some
  entries : ∀ index, d.get (some index) = calls[index]?.map StreamedCall.merged

theorem filterMap_range {β : Type} (l : List β) :
    (List.range l.length).filterMap (fun index => l[index]?) = l := by
  induction l using List.reverseRecOn with
  | nil => rfl
  | append_singleton l b ih =>
    have earlier : (List.range l.length).filterMap (fun index => (l ++ [b])[index]?) = l := by
      rw [List.filterMap_congr (g := fun index => l[index]?)]
      · exact ih
      · exact fun index mem => List.getElem?_append_left (List.mem_range.mp mem)
    rw [List.length_append, List.length_singleton, List.range_succ, List.filterMap_append, earlier]
    simp

theorem Merges.values {d : OrderedDict (Option Nat) Direct.MergedToolCall}
    (merges : Merges d calls) : d.values = calls.map StreamedCall.merged := by
  have entry : ∀ index ∈ List.range calls.length,
      (d.get ∘ some) index = (calls.map StreamedCall.merged)[index]? := by
    intro index _
    rw [Function.comp_apply, merges.entries, List.getElem?_map]
  have whole := filterMap_range (calls.map StreamedCall.merged)
  rw [List.length_map] at whole
  rw [OrderedDict.values_eq, merges.keys, List.filterMap_map, List.filterMap_congr entry, whole]

theorem Merges.mem_iff {d : OrderedDict (Option Nat) Direct.MergedToolCall}
    (merges : Merges d calls) {index : Nat} : some index ∈ d ↔ index < calls.length := by
  rw [← not_iff_not, ← OrderedDict.get_eq_none, merges.entries, Option.map_eq_none_iff,
    List.getElem?_eq_none_iff, Nat.not_lt]

theorem Merges.take {d : OrderedDict (Option Nat) Direct.MergedToolCall}
    (merges : Merges d calls) {delta : DeltaToolCall}
    (taken : takeDelta calls delta = some calls') :
    Merges (OrderedDict.updateItem Direct.ToolCallDelta.key Direct.mergeEntry d (wire delta))
      calls' := by
  have key : (wire delta).key = some delta.index := rfl
  obtain ⟨id, name, arguments, rfl, rfl⟩ | ⟨index, arguments, rfl, there, rfl⟩ :=
    takeDelta_cases taken
  · have absent : some calls.length ∉ d := fun mem => Nat.lt_irrefl _ (merges.mem_iff.mp mem)
    rw [OrderedDict.updateItem, key, OrderedDict.get_eq_none.mpr absent, mergeEntry_start]
    refine ⟨?_, fun index => ?_⟩
    · rw [OrderedDict.keys_setItem, if_neg (fun mem => absent (AList.mem_keys.mpr mem)),
        List.reverse_cons, merges.keys, List.length_append, List.length_singleton,
        List.range_succ, List.map_append]
      rfl
    · rw [OrderedDict.get_setItem, merges.entries]
      split_ifs with here
      · obtain rfl := Option.some.inj here
        simp
      · have other : index ≠ calls.length := fun same => here (congrArg some same)
        rw [List.getElem?_append]
        split_ifs with inside
        · rfl
        · have beyond : index - calls.length ≠ 0 := by omega
          rw [List.getElem?_eq_none_iff.mpr (Nat.not_lt.mp inside)]
          simp [beyond]
  · have present : d.get (some index) = some calls[index].merged := by
      rw [merges.entries, List.getElem?_eq_getElem there]
      rfl
    have mem : some index ∈ d.keys := AList.mem_keys.mpr (merges.mem_iff.mpr there)
    rw [OrderedDict.updateItem, key, present, mergeEntry_extend]
    refine ⟨?_, fun other => ?_⟩
    · rw [OrderedDict.keys_setItem, if_pos mem, merges.keys, List.length_modify]
    · rw [OrderedDict.get_setItem, merges.entries, List.getElem?_modify]
      split_ifs with here same
      · obtain rfl := Option.some.inj here
        rw [List.getElem?_eq_getElem there]
        rfl
      · obtain rfl := Option.some.inj here
        exact absurd rfl same
      · rename_i same
        subst same
        exact absurd rfl here
      · cases calls[other]? <;> rfl

end Merge

end TrajProxy.Parsers
