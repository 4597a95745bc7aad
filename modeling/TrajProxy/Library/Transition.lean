import Mathlib.Logic.Basic

/-! Labelled machines with a partial, computable step.
A run chooses a label in each state; labels carry whatever the environment
decides (which task moves next, what a remote call answered).
`Along P` and `Guarded ok` look at every state and every step of a run; a
conditional invariant says that runs `Guarded ok` are runs `Along P`. -/

namespace TrajProxy.Transition

structure Machine (σ α : Type) where
  step : σ → α → Option σ

namespace Machine

variable {σ α : Type} (M : Machine σ α)

/-- `P` holds in every state a run from `s` goes through. -/
def Along (P : σ → Prop) : σ → List α → Prop
  | s, [] => P s
  | s, a :: as => P s ∧ ∀ s', M.step s a = some s' → Along P s' as

/-- Every step of a run from `s` is admitted by `ok`. -/
def Guarded (ok : σ → α → Prop) : σ → List α → Prop
  | _, [] => True
  | s, a :: as => ∀ s', M.step s a = some s' → ok s a ∧ Guarded ok s' as

def exec : σ → List α → Option σ
  | s, [] => some s
  | s, a :: as => (M.step s a).bind fun s' => exec s' as

variable {M} {ok : σ → α → Prop} {Inv : σ → Prop} {s s' : σ} {a : α}

/-- When a step keeps the invariant exactly if it is admitted, a run keeps it
exactly if all its steps are. -/
theorem along_iff_guarded (step : ∀ s a s', Inv s → M.step s a = some s' → (Inv s' ↔ ok s a))
    {s : σ} (start : Inv s) (as : List α) : M.Along Inv s as ↔ M.Guarded ok s as := by
  induction as generalizing s with
  | nil => exact ⟨fun _ => trivial, fun _ => start⟩
  | cons a as ih =>
    refine ⟨?_, ?_⟩
    · intro along s' taken
      have rest := along.2 s' taken
      have inv : Inv s' := by
        cases as with
        | nil => exact rest
        | cons b bs => exact rest.1
      exact ⟨(step s a s' start taken).mp inv, (ih inv).mp rest⟩
    · intro guarded
      refine ⟨start, fun s' taken => ?_⟩
      obtain ⟨admitted, rest⟩ := guarded s' taken
      exact (ih ((step s a s' start taken).mpr admitted)).mpr rest

theorem along_of_guarded
    (step : ∀ s a s', Inv s → ok s a → M.step s a = some s' → Inv s')
    {s : σ} (start : Inv s) {as : List α} (h : M.Guarded ok s as) : M.Along Inv s as := by
  induction as generalizing s with
  | nil => exact start
  | cons a as ih =>
    refine ⟨start, fun s' taken => ?_⟩
    obtain ⟨admitted, rest⟩ := h s' taken
    exact ih (step s a s' start admitted taken) rest

/-- What every step keeps holds along every run. -/
theorem along_of_step (step : ∀ s a s', Inv s → M.step s a = some s' → Inv s')
    {s : σ} (start : Inv s) (as : List α) : M.Along Inv s as := by
  induction as generalizing s with
  | nil => exact start
  | cons a as ih => exact ⟨start, fun s' taken => ih (step s a s' start taken)⟩

theorem guarded_cons {as : List α} (taken : M.step s a = some s') (admitted : ok s a)
    (rest : M.Guarded ok s' as) : M.Guarded ok s (a :: as) := by
  intro t taken'
  rw [taken, Option.some_inj] at taken'
  exact taken' ▸ ⟨admitted, rest⟩

theorem Along.mono {P Q : σ → Prop} {as : List α} (h : M.Along P s as) (le : ∀ s, P s → Q s) :
    M.Along Q s as := by
  induction as generalizing s with
  | nil => exact le s h
  | cons a as ih => exact ⟨le s h.1, fun s' step => ih (h.2 s' step)⟩

theorem Along.and {P Q : σ → Prop} {as : List α} (hP : M.Along P s as) (hQ : M.Along Q s as) :
    M.Along (fun s => P s ∧ Q s) s as := by
  induction as generalizing s with
  | nil => exact ⟨hP, hQ⟩
  | cons a as ih => exact ⟨⟨hP.1, hQ.1⟩, fun s' step => ih (hP.2 s' step) (hQ.2 s' step)⟩

/-- `along_iff_guarded` for a property whose step lemma rests on an invariant. -/
theorem along_iff_guarded_of_inv {P : σ → Prop}
    (keeps : ∀ s a s', Inv s → M.step s a = some s' → Inv s')
    (step : ∀ s a s', Inv s → P s → M.step s a = some s' → (P s' ↔ ok s a))
    (inv : Inv s) (start : P s) (as : List α) : M.Along P s as ↔ M.Guarded ok s as := by
  have both (s : σ) (a : α) (s' : σ) (h : Inv s ∧ P s) (taken : M.step s a = some s') :
      Inv s' ∧ P s' ↔ ok s a := by
    rw [and_iff_right (keeps s a s' h.1 taken), step s a s' h.1 h.2 taken]
  rw [← along_iff_guarded both ⟨inv, start⟩ as]
  exact ⟨(along_of_step keeps inv as).and, fun along => along.mono fun _ h => h.2⟩

theorem exec_append (s : σ) (as bs : List α) :
    M.exec s (as ++ bs) = (M.exec s as).bind fun s => M.exec s bs := by
  induction as generalizing s with
  | nil => rfl
  | cons a as ih =>
    rw [List.cons_append, Machine.exec, Machine.exec, Option.bind_assoc]
    exact congrArg _ (funext ih)

theorem Along.exec {P : σ → Prop} {as : List α} (h : M.Along P s as)
    (run : M.exec s as = some s') : P s' := by
  induction as generalizing s with
  | nil =>
    rw [Machine.exec, Option.some_inj] at run
    exact run ▸ h
  | cons a as ih =>
    rw [Machine.exec, Option.bind_eq_some_iff] at run
    obtain ⟨t, step, rest⟩ := run
    exact ih (h.2 t step) rest

end Machine

end TrajProxy.Transition
