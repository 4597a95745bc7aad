import TrajProxy.Archiver.Cycle
import TrajProxy.Library.Connection
import TrajProxy.Library.Substring

/-! `_create_partition` on `request_details_active`, partitioned by `created_at`, with
the statements it sends as PostgreSQL runs them. The tables carry what PostgreSQL
enforces: a row is in the partition of its range, ranges do not overlap, and an
attached default partition has no row of another range. -/

namespace TrajProxy.Archiver
open Transaction

/-- `FOR VALUES FROM start TO stop` -/
structure Range where
  start : Nat
  stop : Nat
  nonempty : start < stop
  deriving DecidableEq

def Range.contains (range : Range) (createdAt : Nat) : Bool :=
  range.start ≤ createdAt && createdAt < range.stop

def Range.overlaps (range other : Range) : Bool :=
  range.start < other.stop && other.start < range.stop

structure Partition (ρ : Type) where
  name : String
  range : Range
  rows : List (Detail ρ)
  inRange : ∀ d ∈ rows, range.contains d.createdAt = true

/-- `request_details_active_default` -/
inductive DefaultPartition (ρ : Type)
  | missing
  | detached (rows : List (Detail ρ))
  | attached (rows : List (Detail ρ))

structure PartitionedTable (ρ : Type) where
  partitions : List (Partition ρ)
  default : DefaultPartition ρ
  /-- the other relations of the schema -/
  relations : List String
  apart : partitions.Pairwise fun p q => p.range.overlaps q.range = false
  elsewhere : ∀ rows, default = .attached rows → ∀ d ∈ rows, ∀ p ∈ partitions,
    p.range.contains d.createdAt = false

inductive Statement
  | createPartition (ifNotExists : Bool) (name : String) (range : Range)
  | detachDefault
  | insertFromDefault (name : String) (range : Range)
  | deleteFromDefault (range : Range)
  | attachDefault

def parentName : String := "request_details_active"

def defaultName : String := "request_details_active_default"

section Statements

variable {ρ : Type}

def DefaultPartition.isAttached : DefaultPartition ρ → Bool
  | .attached _ => true
  | _ => false

/-- The rows `request_details_active` shows of it. -/
def DefaultPartition.visible : DefaultPartition ρ → List (Detail ρ)
  | .attached rows => rows
  | _ => []

def Partition.insert (p : Partition ρ) (rows : List (Detail ρ))
    (inRange : ∀ d ∈ rows, p.range.contains d.createdAt = true) : Partition ρ where
  name := p.name
  range := p.range
  rows := p.rows ++ rows
  inRange := by
    intro d mem
    exact (List.mem_append.mp mem).elim (p.inRange d) (inRange d)

/-- The partition after `INSERT INTO name`, which accepts rows of its range only. -/
def Partition.receive (name : String) (rows : List (Detail ρ)) (p : Partition ρ) : Partition ρ :=
  if into : p.name = name ∧ ∀ d ∈ rows, p.range.contains d.createdAt = true then
    p.insert rows into.2
  else p

theorem receive_range (name : String) (rows : List (Detail ρ)) (p : Partition ρ) :
    (p.receive name rows).range = p.range := by
  unfold Partition.receive
  split_ifs <;> rfl

theorem attached_of_visible {default : DefaultPartition ρ} {d : Detail ρ}
    (row : d ∈ default.visible) : default = .attached default.visible := by
  cases default with
  | attached rows => rfl
  | missing => nomatch row
  | detached rows => nomatch row

namespace PartitionedTable

/-- The rows of `request_details_active`. -/
def visible (db : PartitionedTable ρ) : List (Detail ρ) :=
  db.partitions.flatMap Partition.rows ++ db.default.visible

/-- `SELECT 1 FROM pg_class WHERE relname = name` finds a row. -/
def taken (db : PartitionedTable ρ) (name : String) : Bool :=
  db.partitions.any (·.name = name) || db.relations.contains name ||
    match db.default with
    | .missing => false
    | _ => name = defaultName

/-- No partition has a range that overlaps, and the default partition holds rows of it. -/
def Conflicts (db : PartitionedTable ρ) (range : Range) : Prop :=
  (∀ p ∈ db.partitions, p.range.overlaps range = false) ∧
    ∃ d ∈ db.default.visible, range.contains d.createdAt = true

def wouldBeViolated : String :=
  "updated partition constraint for default partition \"" ++ defaultName ++
    "\" would be violated by some row"

/-- `CREATE TABLE [IF NOT EXISTS] name PARTITION OF request_details_active …` -/
def createPartition (ifNotExists : Bool) (name : String) (range : Range)
    (db : PartitionedTable ρ) : Except String (PartitionedTable ρ) :=
  if db.taken name then
    if ifNotExists then .ok db else .error ("relation \"" ++ name ++ "\" already exists")
  else match overlap : db.partitions.find? fun p => p.range.overlaps range with
    | some p =>
      .error ("partition \"" ++ name ++ "\" would overlap partition \"" ++ p.name ++ "\"")
    | none =>
      if conflict : ∃ d ∈ db.default.visible, range.contains d.createdAt = true then
        .error wouldBeViolated
      else .ok
        { db with
          partitions := db.partitions ++ [⟨name, range, [], List.forall_mem_nil _⟩]
          apart := by
            refine List.pairwise_append.mpr ⟨db.apart, List.pairwise_singleton _ _, ?_⟩
            intro p mem q new
            rw [List.mem_singleton.mp new]
            exact Bool.eq_false_iff.mpr (List.find?_eq_none.mp overlap p mem)
          elsewhere := by
            intro rows same d mem p there
            rcases List.mem_append.mp there with old | new
            · exact db.elsewhere rows same d mem p old
            · rw [List.mem_singleton.mp new]
              refine Bool.eq_false_iff.mpr fun inRange => conflict ⟨d, ?_, inRange⟩
              rwa [same] }

def detachDefault (db : PartitionedTable ρ) : Except String (PartitionedTable ρ) :=
  match db.default with
  | .missing => .error ("relation \"" ++ defaultName ++ "\" does not exist")
  | .detached _ =>
    .error ("relation \"" ++ defaultName ++ "\" is not a partition of relation \"" ++
      parentName ++ "\"")
  | .attached rows => .ok
    { db with
      default := .detached rows
      elsewhere := by
        intro _ same
        nomatch same }

/-- `INSERT INTO name SELECT * FROM request_details_active_default WHERE …` -/
def insertFromDefault (name : String) (range : Range) (db : PartitionedTable ρ) :
    Except String (PartitionedTable ρ) :=
  match db.default with
  | .missing => .error ("relation \"" ++ defaultName ++ "\" does not exist")
  | .detached rows | .attached rows =>
    let moved := rows.filter fun d => range.contains d.createdAt
    if ¬∃ p ∈ db.partitions, p.name = name then
      .error ("relation \"" ++ name ++ "\" does not exist")
    else if ∃ p ∈ db.partitions, p.name = name ∧
        ∃ d ∈ moved, p.range.contains d.createdAt = false then
      .error ("new row for relation \"" ++ name ++ "\" violates partition constraint")
    else .ok
      { db with
        partitions := db.partitions.map (Partition.receive name moved)
        apart := by
          refine db.apart.map _ ?_
          intro p q apart
          rw [receive_range, receive_range, apart]
        elsewhere := by
          intro rows' same d mem p there
          obtain ⟨q, old, rfl⟩ := List.mem_map.mp there
          rw [receive_range]
          exact db.elsewhere rows' same d mem q old }

/-- `DELETE FROM request_details_active_default WHERE …` -/
def deleteFromDefault (range : Range) (db : PartitionedTable ρ) :
    Except String (PartitionedTable ρ) :=
  let kept := List.filter fun d : Detail ρ => !range.contains d.createdAt
  match same : db.default with
  | .missing => .error ("relation \"" ++ defaultName ++ "\" does not exist")
  | .detached rows => .ok
    { db with
      default := .detached (kept rows)
      elsewhere := by
        intro _ same
        nomatch same }
  | .attached rows => .ok
    { db with
      default := .attached (kept rows)
      elsewhere := by
        intro rows' same' d mem
        obtain rfl := DefaultPartition.attached.inj same'
        exact db.elsewhere rows same d (List.mem_of_mem_filter mem) }

def attachDefault (db : PartitionedTable ρ) : Except String (PartitionedTable ρ) :=
  match db.default with
  | .missing => .error ("relation \"" ++ defaultName ++ "\" does not exist")
  | .attached _ => .error ("\"" ++ defaultName ++ "\" is already a partition")
  | .detached rows =>
    if other : ∃ d ∈ rows, ∃ p ∈ db.partitions, p.range.contains d.createdAt = true then
      .error ("partition constraint of relation \"" ++ defaultName ++
        "\" is violated by some row")
    else .ok
      { db with
        default := .attached rows
        elsewhere := by
          intro rows' same d mem p there
          obtain rfl := DefaultPartition.attached.inj same
          exact Bool.eq_false_iff.mpr fun inRange => other ⟨d, mem, p, there, inRange⟩ }

end PartitionedTable

def Statement.run : Statement → PartitionedTable ρ → Except String (PartitionedTable ρ)
  | .createPartition ifNotExists name range =>
    PartitionedTable.createPartition ifNotExists name range
  | .detachDefault => PartitionedTable.detachDefault
  | .insertFromDefault name range => PartitionedTable.insertFromDefault name range
  | .deleteFromDefault range => PartitionedTable.deleteFromDefault range
  | .attachDefault => PartitionedTable.attachDefault

end Statements

section CreatePartition

variable {ρ : Type}

/-- `str(e)` -/
def errorText : Raised → String
  | .exception message => message
  | _ => ""

/-- The statements of the `except` branch. -/
def migration (name : String) (range : Range) : List Statement :=
  [.detachDefault, .createPartition false name range, .insertFromDefault name range,
    .deleteFromDefault range, .attachDefault]

/-- `_create_partition` -/
def createPartition (name : String) (range : Range) : Py (Connection (PartitionedTable ρ)) Unit :=
  Py.tryExcept (execute Statement.run (.createPartition true name range)) fun e =>
    if !Text.contains (errorText e) "default partition" ||
        !Text.contains (errorText e) "would be violated" then
      Py.raise e
    else executeAll Statement.run (migration name range)

end CreatePartition

section Outcomes

variable {ρ : Type} {name : String} {range : Range} {db : PartitionedTable ρ}
  {c : Connection (PartitionedTable ρ)}

/-- The new partition holds the rows of its range, the default partition is attached as
before, and the rows are the same. -/
structure Migrated (name : String) (range : Range) (before after : PartitionedTable ρ) : Prop where
  attached : ∃ p ∈ after.partitions, p.name = name ∧ p.range = range ∧
    p.rows.Perm (before.visible.filter fun d => range.contains d.createdAt)
  default : after.default.isAttached = before.default.isAttached
  rows : after.visible.Perm before.visible

/-- What a new partition is added to: it overlaps none, and its rows are not there yet. -/
structure Free (db : PartitionedTable ρ) (range : Range) : Prop where
  apart : ∀ p ∈ db.partitions, p.range.overlaps range = false
  rows : ∀ d ∈ db.default.visible, range.contains d.createdAt = false

theorem not_conflicts_of_free (free : Free db range) : ¬db.Conflicts range := by
  rintro ⟨-, d, mem, inRange⟩
  rw [free.rows d mem] at inRange
  nomatch inRange

theorem not_conflicts_of_overlap (overlap : ∃ p ∈ db.partitions, p.range.overlaps range = true) :
    ¬db.Conflicts range := by
  rintro ⟨apart, -⟩
  obtain ⟨p, mem, overlaps⟩ := overlap
  rw [apart p mem] at overlaps
  nomatch overlaps

/-- How `CREATE TABLE … PARTITION OF` ends for a name that is not taken. -/
theorem createPartition_cases (absent : db.taken name = false) (ifNotExists : Bool) :
    (Free db range ∧ ∃ db', Statement.run (.createPartition ifNotExists name range) db = .ok db' ∧
      db'.partitions = db.partitions ++ [⟨name, range, [], List.forall_mem_nil _⟩] ∧
      db'.default = db.default) ∨
    ((∃ p ∈ db.partitions, p.range.overlaps range = true) ∧
      ∃ message, Statement.run (.createPartition ifNotExists name range) db = .error message) ∨
    (db.Conflicts range ∧ Statement.run (.createPartition ifNotExists name range) db =
      .error PartitionedTable.wouldBeViolated) := by
  rw [Statement.run, PartitionedTable.createPartition, if_neg (Bool.eq_false_iff.mp absent)]
  split
  · next p overlap =>
    have overlaps := List.find?_some overlap
    exact .inr (.inl ⟨⟨p, List.mem_of_find?_eq_some overlap, overlaps⟩, _, rfl⟩)
  · next overlap =>
    have apart : ∀ p ∈ db.partitions, p.range.overlaps range = false := fun p mem =>
      Bool.eq_false_iff.mpr (List.find?_eq_none.mp overlap p mem)
    split_ifs with conflict
    · exact .inr (.inr ⟨⟨apart, conflict⟩, rfl⟩)
    · refine .inl ⟨⟨apart, fun d mem => ?_⟩, _, rfl, rfl, rfl⟩
      exact Bool.eq_false_iff.mpr fun inRange => conflict ⟨d, mem, inRange⟩

/-- Rows of a partition that does not overlap are not in the range. -/
theorem not_contains_of_apart {p : Partition ρ} (apart : p.range.overlaps range = false)
    {d : Detail ρ} (mem : d ∈ p.rows) : range.contains d.createdAt = false := by
  have own := p.inRange d mem
  simp only [Range.overlaps, Range.contains, Bool.and_eq_true, Bool.and_eq_false_iff,
    decide_eq_true_eq, decide_eq_false_iff_not] at apart own ⊢
  omega

theorem rows_outside {partitions : List (Partition ρ)}
    (apart : ∀ p ∈ partitions, p.range.overlaps range = false) :
    (partitions.flatMap Partition.rows).filter (fun d => range.contains d.createdAt) = [] := by
  rw [List.filter_eq_nil_iff]
  intro d mem
  obtain ⟨p, there, row⟩ := List.mem_flatMap.mp mem
  exact Bool.eq_false_iff.mp (not_contains_of_apart (apart p there) row)

end Outcomes

section Migration

variable {ρ : Type} {name : String} {range : Range} {db : PartitionedTable ρ}
  {rows : List (Detail ρ)}

theorem run_detachDefault (attached : db.default = .attached rows) :
    ∃ db', Statement.run .detachDefault db = .ok db' ∧ db'.partitions = db.partitions ∧
      db'.relations = db.relations ∧ db'.default = .detached rows := by
  rw [Statement.run, PartitionedTable.detachDefault]
  split
  · next same => nomatch attached.symm.trans same
  · next same => nomatch attached.symm.trans same
  · next same =>
    obtain rfl := DefaultPartition.attached.inj (attached.symm.trans same)
    exact ⟨_, rfl, rfl, rfl, rfl⟩

theorem run_insertFromDefault (detached : db.default = .detached rows)
    (there : ∃ p ∈ db.partitions, p.name = name)
    (accepts : ∀ p ∈ db.partitions, p.name = name → p.range = range) :
    ∃ db', Statement.run (.insertFromDefault name range) db = .ok db' ∧
      db'.partitions = db.partitions.map
        (Partition.receive name (rows.filter fun d => range.contains d.createdAt)) ∧
      db'.default = .detached rows := by
  rw [Statement.run, PartitionedTable.insertFromDefault]
  split
  · next same => nomatch detached.symm.trans same
  · next same =>
    obtain rfl := DefaultPartition.detached.inj (detached.symm.trans same)
    dsimp only
    rw [if_neg (not_not_intro there), if_neg]
    · exact ⟨_, rfl, rfl, same⟩
    · rintro ⟨p, mem, named, d, moved, outside⟩
      rw [accepts p mem named, (List.mem_filter.mp moved).2] at outside
      nomatch outside
  · next same => nomatch detached.symm.trans same

theorem run_deleteFromDefault (range : Range) (detached : db.default = .detached rows) :
    ∃ db', Statement.run (.deleteFromDefault range) db = .ok db' ∧
      db'.partitions = db.partitions ∧
      db'.default = .detached (rows.filter fun d => !range.contains d.createdAt) := by
  rw [Statement.run, PartitionedTable.deleteFromDefault]
  split
  · next same => nomatch detached.symm.trans same
  · next same =>
    obtain rfl := DefaultPartition.detached.inj (detached.symm.trans same)
    exact ⟨_, rfl, rfl, rfl⟩
  · next same => nomatch detached.symm.trans same

theorem run_attachDefault (detached : db.default = .detached rows)
    (elsewhere : ∀ d ∈ rows, ∀ p ∈ db.partitions, p.range.contains d.createdAt = false) :
    ∃ db', Statement.run .attachDefault db = .ok db' ∧ db'.partitions = db.partitions ∧
      db'.default = .attached rows := by
  rw [Statement.run, PartitionedTable.attachDefault]
  split
  · next same => nomatch detached.symm.trans same
  · next same => nomatch detached.symm.trans same
  · next same =>
    obtain rfl := DefaultPartition.detached.inj (detached.symm.trans same)
    rw [dif_neg]
    · exact ⟨_, rfl, rfl, rfl⟩
    · rintro ⟨d, mem, p, there, inRange⟩
      rw [elsewhere d mem p there] at inRange
      nomatch inRange

/-- A new partition takes the rows of its range and every other one stays as it is. -/
theorem map_receive {partitions : List (Partition ρ)} (fresh : ∀ p ∈ partitions, p.name ≠ name)
    {moved : List (Detail ρ)} (inRange : ∀ d ∈ moved, range.contains d.createdAt = true) :
    List.map (Partition.receive name moved)
        (partitions ++ [⟨name, range, [], List.forall_mem_nil _⟩]) =
      partitions ++ [⟨name, range, moved, inRange⟩] := by
  have old : partitions.map (Partition.receive name moved) = partitions := by
    refine (List.map_congr_left fun p mem => ?_).trans (List.map_id partitions)
    exact dif_neg fun into => fresh p mem into.1
  have into : name = name ∧ ∀ d ∈ moved, range.contains d.createdAt = true := ⟨rfl, inRange⟩
  rw [List.map_append, List.map_singleton, old, Partition.receive, dif_pos into, Partition.insert]
  rfl

theorem taken_false_iff : db.taken name = false ↔ (∀ p ∈ db.partitions, p.name ≠ name) ∧
    name ∉ db.relations ∧ (db.default = .missing ∨ name ≠ defaultName) := by
  unfold PartitionedTable.taken
  rw [Bool.or_eq_false_iff, Bool.or_eq_false_iff, and_assoc]
  refine and_congr (by simp) (and_congr (by simp) ?_)
  split
  · next missing => exact iff_of_true rfl (.inl missing)
  · next present => exact decide_eq_false_iff_not.trans (or_iff_right present).symm

theorem run_createPartition_free (absent : db.taken name = false) (ifNotExists : Bool)
    (free : Free db range) :
    ∃ db', Statement.run (.createPartition ifNotExists name range) db = .ok db' ∧
      db'.partitions = db.partitions ++ [⟨name, range, [], List.forall_mem_nil _⟩] ∧
      db'.default = db.default := by
  rcases createPartition_cases absent ifNotExists with done | ⟨⟨p, mem, overlaps⟩, -⟩ | refused
  · exact done.2
  · rw [free.apart p mem] at overlaps
    nomatch overlaps
  · exact absurd refused.1 (not_conflicts_of_free free)

/-- The rows after the branch: those of the range have gone to the new partition. -/
theorem migrated_of_moved (attached : db.default = .attached rows)
    (apart : ∀ p ∈ db.partitions, p.range.overlaps range = false)
    {moved : List (Detail ρ)} (taken : moved = rows.filter fun d => range.contains d.createdAt)
    (inRange : ∀ d ∈ moved, range.contains d.createdAt = true) {db' : PartitionedTable ρ}
    (partitions : db'.partitions = db.partitions ++ [⟨name, range, moved, inRange⟩])
    (default : db'.default = .attached (rows.filter fun d => !range.contains d.createdAt)) :
    Migrated name range db db' := by
  have there : ⟨name, range, moved, inRange⟩ ∈ db'.partitions := by
    rw [partitions]
    exact List.mem_append_right _ List.mem_cons_self
  have visible : db.visible = db.partitions.flatMap Partition.rows ++ rows := by
    rw [PartitionedTable.visible, attached]
    rfl
  refine ⟨⟨_, there, rfl, rfl, ?_⟩, by rw [default, attached]; rfl, ?_⟩
  · rw [visible, List.filter_append, rows_outside apart, List.nil_append, ← taken]
  · have visible' : db'.visible = db.partitions.flatMap Partition.rows ++
        (moved ++ rows.filter fun d => !range.contains d.createdAt) := by
      rw [PartitionedTable.visible, partitions, default, List.flatMap_append,
        List.flatMap_singleton, List.append_assoc]
      rfl
    rw [visible, visible', taken]
    exact (List.filter_append_perm _ rows).append_left _

/-- The five statements of the branch, one after the other, move the rows of the range. -/
theorem run_migration (absent : db.taken name = false) (conflict : db.Conflicts range) :
    ∃ db', (migration name range).foldlM (fun d s => Statement.run s d) db = .ok db' ∧
      Migrated name range db db' := by
  obtain ⟨rows, attached⟩ : ∃ rows, db.default = .attached rows :=
    let ⟨_, row, _⟩ := conflict.2
    ⟨_, attached_of_visible row⟩
  obtain ⟨fresh, notRelation, notDefault⟩ := taken_false_iff.mp absent
  let moved := rows.filter fun d => range.contains d.createdAt
  let kept := rows.filter fun d => !range.contains d.createdAt
  obtain ⟨db₁, detach, partitions₁, relations₁, default₁⟩ := run_detachDefault attached
  have absent₁ : db₁.taken name = false := by
    rw [taken_false_iff, partitions₁, relations₁]
    refine ⟨fresh, notRelation, .inr (notDefault.resolve_left fun missing => ?_)⟩
    nomatch attached.symm.trans missing
  have free₁ : Free db₁ range := by
    constructor
    · rw [partitions₁]
      exact conflict.1
    · rw [default₁]
      exact List.forall_mem_nil _
  obtain ⟨db₂, create, partitions₂, default₂⟩ := run_createPartition_free absent₁ false free₁
  rw [default₁] at default₂
  rw [partitions₁] at partitions₂
  have accepts : ∀ p ∈ db₂.partitions, p.name = name → p.range = range := by
    intro p mem named
    rw [partitions₂, List.mem_append, List.mem_singleton] at mem
    rcases mem with old | rfl
    · exact absurd named (fresh p old)
    · rfl
  obtain ⟨db₃, insert, partitions₃, default₃⟩ := run_insertFromDefault default₂
    (by rw [partitions₂]; exact ⟨_, List.mem_append_right _ List.mem_cons_self, rfl⟩) accepts
  have inRange : ∀ d ∈ moved, range.contains d.createdAt = true :=
    fun d mem => (List.mem_filter.mp mem).2
  rw [partitions₂, map_receive fresh inRange] at partitions₃
  obtain ⟨db₄, delete, partitions₄, default₄⟩ := run_deleteFromDefault range default₃
  rw [partitions₃] at partitions₄
  have elsewhere : ∀ d ∈ kept, ∀ p ∈ db₄.partitions, p.range.contains d.createdAt = false := by
    intro d mem p there
    rw [partitions₄, List.mem_append, List.mem_singleton] at there
    rcases there with old | rfl
    · exact db.elsewhere rows attached d (List.mem_of_mem_filter mem) p old
    · have outside := (List.mem_filter.mp mem).2
      rwa [Bool.not_eq_true'] at outside
  obtain ⟨db₅, attach, partitions₅, default₅⟩ := run_attachDefault default₄ elsewhere
  rw [partitions₄] at partitions₅
  refine ⟨db₅, ?_, migrated_of_moved attached conflict.1 rfl inRange partitions₅ default₅⟩
  rw [migration, List.foldlM_cons, bind_of_ok detach, List.foldlM_cons, bind_of_ok create,
    List.foldlM_cons, bind_of_ok insert, List.foldlM_cons, bind_of_ok delete, List.foldlM_cons,
    bind_of_ok attach]
  rfl

/-- The text of the conflict is the one the code looks for. -/
theorem wouldBeViolated_text :
    Text.contains PartitionedTable.wouldBeViolated "default partition" = true ∧
      Text.contains PartitionedTable.wouldBeViolated "would be violated" = true := by
  decide +kernel

/-- The branch itself is right: with autocommit, where the failed `CREATE` leaves no
aborted transaction, a conflict ends with the rows in place. -/
theorem createPartition_autocommit {c : Connection (PartitionedTable ρ)}
    (auto : c.autocommit = true) (live : c.status ≠ .inError)
    (absent : c.working.taken name = false) (conflict : c.working.Conflicts range) :
    ∃ c', (createPartition name range).run c = (.ok (), c') ∧
      Migrated name range c.working c'.working := by
  have refused : Statement.run (.createPartition true name range) c.working =
      .error PartitionedTable.wouldBeViolated := by
    rcases createPartition_cases absent true with done | overlap | refused
    · exact absurd conflict (not_conflicts_of_free done.1)
    · exact absurd conflict (not_conflicts_of_overlap overlap.1)
    · exact refused.2
  obtain ⟨db, migrated, rows⟩ := run_migration absent conflict
  obtain ⟨c', returned, working⟩ := executeAll_ok live migrated
  have caught : (Raised.exception PartitionedTable.wouldBeViolated).isException = true := rfl
  have same : c.fail = c := if_pos auto
  refine ⟨c', ?_, working ▸ rows⟩
  rw [createPartition, Py.run_tryExcept_error (execute_error live refused), if_pos caught, same,
    errorText, wouldBeViolated_text.1, wouldBeViolated_text.2]
  exact returned

end Migration

end TrajProxy.Archiver
