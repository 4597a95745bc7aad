import TrajProxy.Record.Rows
import TrajProxy.Store.References

/-! The ids a record is stored with and the ids it is looked up by. `_create_context`
composes `unique_id`, the two inserts replace a missing session in two ways, and
`get_record_detail` composes `unique_id` again. -/

namespace TrajProxy.Store

/-- A row of `request_metadata` with the column the archiver fills. -/
structure MetadataEntry where
  row : Record.MetadataRow
  archiveLocation : Option String

structure Database where
  metadata : List MetadataEntry
  details : List Record.DetailRow
  refs : List RefRow

/-- One call of `insert` with a context that `_create_context` made; `violation` is the
text of PostgreSQL where `unique_id` is taken. -/
structure Insertion where
  context : Record.ProcessContext
  tokenizerPath : Option String
  runId : Option String
  offloading : Bool
  env : Env
  violation : String
  created : context.uniqueId = Record.uniqueId context.sessionId context.requestId
  noComma : ',' ∉ context.requestId.toList

/-- A response attribute as the decorator reads it. -/
def responseJson : Option (Items Json) → Json
  | none => .null
  | some items => .obj items

def responseItems : Json → Option (Items Json)
  | .obj items => some items
  | _ => none

/-- The context as `OffloadingRepository` sees it, and back. -/
def view (c : Record.ProcessContext) : ProcessContext Record.ProcessContext where
  requestId := c.requestId
  sessionId := c.sessionId
  tokenResponse := responseJson c.tokenResponse
  rawResponse := responseJson c.rawResponse
  rest := c

def unview (context : ProcessContext Record.ProcessContext) : Record.ProcessContext :=
  { context.rest with
    tokenResponse := responseItems context.tokenResponse
    rawResponse := responseItems context.rawResponse }

namespace Database

def empty : Database := ⟨[], [], []⟩

/-- The constraint `UNIQUE` of `request_metadata.unique_id`. -/
def taken (db : Database) (uniqueId : String) : Bool :=
  db.metadata.any fun m => m.row.uniqueId = some uniqueId

end Database

namespace Insertion

/-- The metadata row and the detail row of a context. -/
def entry (call : Insertion) (c : Record.ProcessContext) : MetadataEntry where
  row := { Record.metadataRow c with runId := call.runId }
  archiveLocation := none

def detail (mode : Record.StorageMode) (call : Insertion) (c : Record.ProcessContext) :
    Record.DetailRow :=
  Record.detailRow mode (call.tokenizerPath.getD "") c

/-- What the repository answers: the transaction fails where `unique_id` is taken. -/
def surroundings (db : Database) (call : Insertion) : Env :=
  { call.env with
    inner := fun n =>
      if db.taken call.context.uniqueId then
        some (.exception ("插入轨迹记录失败: " ++ call.violation))
      else call.env.inner n }

def run (db : Database) (call : Insertion) : World Record.ProcessContext :=
  let env := call.surroundings db
  let insert := if call.offloading then insert env call.runId else innerInsert env
  (insert.run ⟨view call.context, db.refs, [], []⟩).2

/-- The contexts whose transaction was committed. -/
def committed (db : Database) (call : Insertion) : List Record.ProcessContext :=
  ((call.run db).handed.zipIdx.filter fun handed =>
    ((call.surroundings db).inner handed.2).isNone).map fun handed => unview handed.1

end Insertion

/-- A database and the records that were written to it, with their calls. -/
structure History where
  db : Database
  records : List (Insertion × Record.ProcessContext)

namespace History

def empty : History := ⟨.empty, []⟩

/-- One call of `insert`. -/
def insert (mode : Record.StorageMode) (h : History) (call : Insertion) : History where
  db :=
    { metadata := h.db.metadata ++ (call.committed h.db).map call.entry
      details := h.db.details ++ (call.committed h.db).map (call.detail mode)
      refs := (call.run h.db).refs }
  records := h.records ++ (call.committed h.db).map fun c => (call, c)

end History

section Calls

variable {ρ : Type}

theorem refs_addRef (w : World ρ) (row : RefRow) : (w.addRef row).refs = addRef w.refs row := by
  unfold World.addRef addRef
  split <;> rfl

/-- What the first call in a world can leave: no reference row and the untouched context,
handed on twice if the first delegation failed; or a reference row and a marked context. -/
theorem insert_spec (env : Env) (runId : Option String) {w : World ρ} (first : w.handed = []) :
    let final := ((insert env runId).run w).2
    (final.refs = w.refs ∧ (final.handed = [] ∨ final.handed = [w.context] ∨
        final.handed = [w.context, w.context] ∧ env.inner 0 ≠ none)) ∨
      ∃ row value source, row.requestId = w.context.requestId ∧
        row.sessionId = orUnknown w.context.sessionId ∧ final.refs = addRef w.refs row ∧
        final.handed = [w.context.assign value source] := by
  have call : w.call.handed = [w.context] := by rw [World.call, first, List.nil_append]
  cases there : extract w.context with
  | none =>
    rw [insert_absent there]
    exact .inl ⟨rfl, .inr (.inl call)⟩
  | some found =>
    obtain ⟨re, source⟩ := found
    cases serialised : env.serialise re with
    | error e =>
      rw [insert_serialise_raises there serialised]
      split_ifs
      · exact .inl ⟨rfl, .inr (.inl call)⟩
      · exact .inl ⟨rfl, .inl first⟩
    | ok data =>
      by_cases big : routeExpertsMaxBytes < data.length
      · rw [insert_oversize there serialised big, first]
        cases raised : env.inner 0 with
        | none => exact .inl ⟨rfl, .inr (.inl call)⟩
        | some e =>
          dsimp only
          split_ifs
          · refine .inl ⟨rfl, .inr (.inr ⟨?_, Option.some_ne_none e⟩)⟩
            change w.call.handed ++ [w.context] = _
            rw [call]
            rfl
          · exact .inl ⟨rfl, .inr (.inl call)⟩
      · have small : data.length ≤ routeExpertsMaxBytes := Nat.le_of_not_lt big
        cases granted : env.insertRefRaises with
        | some e =>
          rw [insert_ref_raises there serialised small granted]
          split_ifs
          · exact .inl ⟨rfl, .inr (.inl call)⟩
          · exact .inl ⟨rfl, .inl first⟩
        | none =>
          refine .inr ⟨w.refRow env runId data.length, buildMarker env.config (w.blobKey env runId),
            source, rfl, rfl, ?_⟩
          have refs : (w.offloaded env runId source data).call.refs =
              addRef w.refs (w.refRow env runId data.length) := refs_addRef w _
          have handed : (w.offloaded env runId source data).call.handed =
              [w.context.assign (buildMarker env.config (w.blobKey env runId)) source] := by
            rw [World.call, offloaded_handed, offloaded_context, first, List.nil_append]
          rw [insert_offloaded there serialised small granted]
          cases env.inner w.handed.length with
          | none => exact ⟨refs, handed⟩
          | some e =>
            dsimp only
            split_ifs
            · exact ⟨refs, handed⟩
            · exact ⟨refs, handed⟩

end Calls

/-- The three ids of a context, which no stage changes. -/
structure SameIds (c c' : Record.ProcessContext) : Prop where
  uniqueId : c'.uniqueId = c.uniqueId
  requestId : c'.requestId = c.requestId
  sessionId : c'.sessionId = c.sessionId

section Committed

variable {db : Database} {call : Insertion} {c : Record.ProcessContext}

@[simp] theorem responseItems_responseJson (response : Option (Items Json)) :
    responseItems (responseJson response) = response := by
  cases response <;> rfl

theorem unview_view (c : Record.ProcessContext) : unview (view c) = c := by
  simp [unview, view]

theorem sameIds_unview_view (c : Record.ProcessContext) : SameIds c (unview (view c)) :=
  ⟨rfl, rfl, rfl⟩

theorem sameIds_assign (c : Record.ProcessContext) (value : Json) (source : SourceField) :
    SameIds c (unview ((view c).assign value source)) := by
  cases source <;> exact ⟨rfl, rfl, rfl⟩

theorem committed_singleton {context : ProcessContext Record.ProcessContext}
    (handed : (call.run db).handed = [context]) (ids : SameIds call.context (unview context)) :
    call.committed db = [] ∨ ∃ c, call.committed db = [c] ∧ SameIds call.context c := by
  unfold Insertion.committed
  rw [handed, List.zipIdx_singleton, List.filter_singleton]
  cases ((call.surroundings db).inner 0).isNone with
  | false => exact .inl rfl
  | true => exact .inr ⟨_, rfl, ids⟩

/-- The second delegation of an oversized value. -/
theorem committed_pair {context : ProcessContext Record.ProcessContext}
    (handed : (call.run db).handed = [context, context])
    (failed : (call.surroundings db).inner 0 ≠ none)
    (ids : SameIds call.context (unview context)) :
    call.committed db = [] ∨ ∃ c, call.committed db = [c] ∧ SameIds call.context c := by
  have first : ((call.surroundings db).inner 0).isNone = false := by
    rwa [Option.isNone_eq_false_iff, Option.isSome_iff_ne_none]
  unfold Insertion.committed
  rw [handed, List.zipIdx_cons, List.zipIdx_singleton, List.filter_cons_of_neg (by simp [first]),
    List.filter_singleton]
  cases ((call.surroundings db).inner (0 + 1)).isNone with
  | false => exact .inl rfl
  | true => exact .inr ⟨_, rfl, ids⟩

/-- A call ends with the reference rows as they were or with its own row among them, and
at most one of its contexts is committed. -/
theorem run_spec (db : Database) (call : Insertion) :
    ((call.run db).refs = db.refs ∨ ∃ row, row.requestId = call.context.requestId ∧
      row.sessionId = orUnknown call.context.sessionId ∧
      (call.run db).refs = addRef db.refs row) ∧
    (call.committed db = [] ∨ ∃ c, call.committed db = [c] ∧ SameIds call.context c) := by
  have ids := sameIds_unview_view call.context
  by_cases offloading : call.offloading
  · let start : World Record.ProcessContext := ⟨view call.context, db.refs, [], []⟩
    have run : call.run db = ((insert (call.surroundings db) call.runId).run start).2 := by
      rw [Insertion.run, if_pos offloading]
    have first : start.handed = [] := rfl
    have spec := insert_spec (call.surroundings db) call.runId first
    rw [← run] at spec
    obtain ⟨refs, none | one | two⟩ | ⟨row, value, source, own, session, refs, marked⟩ := spec
    · refine ⟨.inl refs, .inl ?_⟩
      rw [Insertion.committed, none]
      rfl
    · exact ⟨.inl refs, committed_singleton one ids⟩
    · exact ⟨.inl refs, committed_pair two.1 two.2 ids⟩
    · exact ⟨.inr ⟨row, own, session, refs⟩,
        committed_singleton marked (sameIds_assign call.context value source)⟩
  · have run : call.run db = World.call ⟨view call.context, db.refs, [], []⟩ := by
      rw [Insertion.run, if_neg offloading, run_innerInsert]
    have one : (call.run db).handed = [view call.context] := by rw [run]; rfl
    exact ⟨.inl (by rw [run]; rfl), committed_singleton one ids⟩

end Committed

section Runs

variable {mode : Record.StorageMode} {done : List Insertion} {h : History} {call : Insertion}
  {c : Record.ProcessContext}

/-- What holds of a database all of whose rows are from these calls. -/
structure Stands (mode : Record.StorageMode) (done : List Insertion) (h : History) : Prop where
  metadata : h.db.metadata = h.records.map fun p => p.1.entry p.2
  details : h.db.details = h.records.map fun p => p.1.detail mode p.2
  own : ∀ p ∈ h.records, p.1 ∈ done ∧ SameIds p.1.context p.2
  distinct : (h.records.map fun p => p.1.context.requestId).Nodup
  refs : ∀ row ∈ h.db.refs, ∃ call ∈ done, row.requestId = call.context.requestId ∧
    row.sessionId = orUnknown call.context.sessionId
  primaryKey : (h.db.refs.map RefRow.requestId).Nodup

theorem nodup_addRef {refs : List RefRow} (unique : (refs.map RefRow.requestId).Nodup)
    (row : RefRow) : ((addRef refs row).map RefRow.requestId).Nodup := by
  unfold addRef
  split_ifs with used
  · exact unique
  · rw [List.map_append, List.nodup_append]
    refine ⟨unique, List.nodup_singleton _, ?_⟩
    intro a old b new same
    obtain ⟨other, mem, rfl⟩ := List.mem_map.mp old
    rw [List.map_singleton, List.mem_singleton] at new
    refine used (List.any_eq_true.mpr ⟨other, mem, ?_⟩)
    exact decide_eq_true (same.trans new)

theorem mem_addRef_cases {refs : List RefRow} {row row' : RefRow} (mem : row' ∈ addRef refs row) :
    row' ∈ refs ∨ row' = row := by
  unfold addRef at mem
  split_ifs at mem
  · exact .inl mem
  · rwa [List.mem_append, List.mem_singleton] at mem

theorem Stands.insert (stands : Stands mode done h)
    (fresh : call.context.requestId ∉ done.map fun call => call.context.requestId) :
    Stands mode (done ++ [call]) (h.insert mode call) := by
  obtain ⟨refs, committed⟩ := run_spec h.db call
  have new : ∀ p ∈ (call.committed h.db).map fun c => (call, c),
      p.1 = call ∧ SameIds call.context p.2 := by
    intro p mem
    obtain ⟨c, written, rfl⟩ := List.mem_map.mp mem
    rcases committed with none | ⟨c', one, ids⟩
    · rw [none] at written
      nomatch written
    · rw [one, List.mem_singleton] at written
      exact ⟨rfl, written ▸ ids⟩
  have old : ∀ p ∈ h.records, p.1.context.requestId ≠ call.context.requestId := by
    intro p mem same
    exact fresh (List.mem_map.mpr ⟨p.1, (stands.own p mem).1, same⟩)
  constructor
  · simp only [History.insert, stands.metadata, List.map_append, List.map_map, Function.comp_def]
  · simp only [History.insert, stands.details, List.map_append, List.map_map, Function.comp_def]
  · intro p mem
    rw [List.mem_append, List.mem_singleton]
    rcases List.mem_append.mp mem with before | now
    · exact ⟨.inl (stands.own p before).1, (stands.own p before).2⟩
    · obtain ⟨same, ids⟩ := new p now
      exact ⟨.inr same, same ▸ ids⟩
  · change ((h.records ++ (call.committed h.db).map fun c => (call, c)).map
      fun p => p.1.context.requestId).Nodup
    rw [List.map_append, List.nodup_append]
    refine ⟨stands.distinct, ?_, ?_⟩
    · rcases committed with none | ⟨c', one, -⟩
      · rw [none]
        exact List.nodup_nil
      · rw [one]
        exact List.nodup_singleton _
    · intro a before b now same
      obtain ⟨p, mem, rfl⟩ := List.mem_map.mp before
      obtain ⟨p', mem', rfl⟩ := List.mem_map.mp now
      rw [(new p' mem').1] at same
      exact old p mem same
  · intro row mem
    change row ∈ (call.run h.db).refs at mem
    have before : row ∈ h.db.refs → ∃ call' ∈ done ++ [call],
        row.requestId = call'.context.requestId ∧
        row.sessionId = orUnknown call'.context.sessionId := by
      intro mem
      obtain ⟨call', called, ids⟩ := stands.refs row mem
      exact ⟨call', List.mem_append_left _ called, ids⟩
    rcases refs with same | ⟨row', own, session, added⟩
    · exact before (same ▸ mem)
    · rw [added] at mem
      rcases mem_addRef_cases mem with mem | rfl
      · exact before mem
      · exact ⟨call, List.mem_append_right _ List.mem_cons_self, own, session⟩
  · change ((call.run h.db).refs.map RefRow.requestId).Nodup
    rcases refs with same | ⟨row', -, -, added⟩
    · rw [same]
      exact stands.primaryKey
    · rw [added]
      exact nodup_addRef stands.primaryKey row'

end Runs

section Lookups

variable {mode : Record.StorageMode} {calls : List Insertion} {h : History} {call : Insertion}
  {c : Record.ProcessContext} {p : Insertion × Record.ProcessContext}

namespace Stands

end Stands

end Lookups

end TrajProxy.Store
