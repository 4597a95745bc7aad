import TrajProxy.Library.Effect

/-! A connection to a transactional database, over any tables and statements. Without
autocommit the first statement opens a transaction, and a statement that fails aborts it:
every further one is refused until the transaction is rolled back. -/

namespace TrajProxy.Transaction

inductive Status
  | idle
  | inTransaction
  | inError
  deriving DecidableEq

/-- `stored` is what is committed, `working` what the session sees. -/
structure Connection (δ : Type) where
  autocommit : Bool
  stored : δ
  working : δ
  status : Status

def aborted : String :=
  "current transaction is aborted, commands ignored until end of transaction block"

variable {δ σ : Type}

/-- The connection after a statement that led to these tables. -/
def Connection.advance (c : Connection δ) (working : δ) : Connection δ :=
  if c.autocommit then { c with stored := working, working := working }
  else { c with working := working, status := .inTransaction }

/-- The connection after a statement that failed. -/
def Connection.fail (c : Connection δ) : Connection δ :=
  if c.autocommit then c else { c with status := .inError }

/-- `await conn.execute(statement)` -/
def execute (run : σ → δ → Except String δ) (statement : σ) : Py (Connection δ) Unit := ⟨fun c =>
  if c.status = .inError then (.error (.exception aborted), c)
  else match run statement c.working with
    | .error message => (.error (.exception message), c.fail)
    | .ok working => (.ok (), c.advance working)⟩

/-- Statements in order, up to the first that raises. -/
def executeAll (run : σ → δ → Except String δ) : List σ → Py (Connection δ) Unit
  | [] => pure ()
  | statement :: rest => do
    execute run statement
    executeAll run rest

variable {run : σ → δ → Except String δ} {statement : σ} {rest : List σ} {c : Connection δ}
  {working : δ} {message : String}

@[simp] theorem advance_working (c : Connection δ) (working : δ) :
    (c.advance working).working = working := by
  unfold Connection.advance
  split_ifs <;> rfl

theorem advance_live (live : c.status ≠ .inError) (working : δ) :
    (c.advance working).status ≠ .inError := by
  unfold Connection.advance
  split_ifs
  · exact live
  · exact Status.noConfusion

theorem execute_ok (live : c.status ≠ .inError) (h : run statement c.working = .ok working) :
    (execute run statement).run c = (.ok (), c.advance working) := by
  unfold execute
  dsimp only
  rw [if_neg live, h]

theorem execute_error (live : c.status ≠ .inError) (h : run statement c.working = .error message) :
    (execute run statement).run c = (.error (.exception message), c.fail) := by
  unfold execute
  dsimp only
  rw [if_neg live, h]

theorem executeAll_cons (live : c.status ≠ .inError) (h : run statement c.working = .ok working) :
    (executeAll run (statement :: rest)).run c = (executeAll run rest).run (c.advance working) :=
  Py.run_bind_ok (execute_ok live h)

/-- Statements that succeed one after the other lead the session to their last tables. -/
theorem executeAll_ok (live : c.status ≠ .inError)
    (h : (statement :: rest).foldlM (fun d s => run s d) c.working = .ok working) :
    ∃ c', (executeAll run (statement :: rest)).run c = (.ok (), c') ∧ c'.working = working := by
  induction rest generalizing statement c with
  | nil =>
    rw [List.foldlM_cons] at h
    obtain ⟨d, first, last⟩ := bind_eq_ok h
    obtain rfl := Except.ok.inj last
    exact ⟨c.advance d, executeAll_cons live first, advance_working c d⟩
  | cons next rest ih =>
    rw [List.foldlM_cons] at h
    obtain ⟨d, first, later⟩ := bind_eq_ok h
    rw [executeAll_cons live first]
    exact ih (advance_live live d) (by rwa [advance_working])

end TrajProxy.Transaction
