import Mathlib.Data.List.Forall2
import Mathlib.Logic.Basic
import Mathlib.Tactic.SplitIfs

/-! Python control flow: a computation changes a state and then returns or
raises. The state of a computation that raises is the one it had reached, so a
handler sees every effect made before the exception.
`except Exception` lets `CancelledError` and `GeneratorExit` through: both
derive from `BaseException` only. -/

namespace TrajProxy

inductive Raised
  | exception (message : String)
  | cancelled
  | generatorExit
  deriving DecidableEq

/-- `isinstance(e, Exception)` -/
def Raised.isException : Raised → Bool
  | .exception _ => true
  | _ => false

/-- A chain of `Except` calls that returns returned at every link. -/
theorem bind_eq_ok {ε α β : Type} {m : Except ε α} {f : α → Except ε β} {b : β}
    (h : (m >>= f) = .ok b) : ∃ a, m = .ok a ∧ f a = .ok b := by
  cases m with
  | error e => nomatch h
  | ok a => exact ⟨a, rfl, h⟩

theorem bind_of_ok {ε α β : Type} {m : Except ε α} {f : α → Except ε β} {a : α}
    (h : m = .ok a) : (m >>= f) = f a := by
  rw [h]
  rfl

theorem bind_of_error {ε α β : Type} {m : Except ε α} {f : α → Except ε β} {e : ε}
    (h : m = .error e) : (m >>= f) = .error e := by
  rw [h]
  rfl

theorem bind_pure_ok_iff {ε α β : Type} {m : Except ε α} {f : α → β} :
    (∃ b, (m >>= fun a => pure (f a)) = .ok b) ↔ ∃ a, m = .ok a := by
  refine ⟨?_, ?_⟩
  · intro ⟨b, h⟩
    obtain ⟨a, ha, _⟩ := bind_eq_ok h
    exact ⟨a, ha⟩
  · intro ⟨a, ha⟩
    exact ⟨f a, by rw [ha]; rfl⟩

/-- A list of calls returns exactly if every call does. -/
theorem mapM_ok_iff {ε α β : Type} {f : α → Except ε β} {l : List α} :
    (∃ bs, l.mapM f = .ok bs) ↔ ∀ a ∈ l, ∃ b, f a = .ok b := by
  induction l with
  | nil => exact ⟨fun _ _ mem => (nomatch mem), fun _ => ⟨[], rfl⟩⟩
  | cons a l ih =>
    rw [List.mapM_cons, List.forall_mem_cons, ← ih]
    refine ⟨?_, ?_⟩
    · intro ⟨bs, h⟩
      obtain ⟨b, hb, h⟩ := bind_eq_ok h
      obtain ⟨rest, hrest, _⟩ := bind_eq_ok h
      exact ⟨⟨b, hb⟩, rest, hrest⟩
    · intro ⟨⟨b, hb⟩, rest, hrest⟩
      exact ⟨b :: rest, by rw [bind_of_ok hb, bind_of_ok hrest]; rfl⟩

/-- A loop whose rounds raise or not whatever the rounds before did returns
exactly if none of its rounds raises. -/
theorem foldlM_ok_iff {ε α β : Type} {f : β → α → Except ε β} {good : β → α → Prop}
    (round : ∀ b a, (∃ b', f b a = .ok b') ↔ good b a)
    (stable : ∀ b a b', f b a = .ok b' → ∀ other, good b' other ↔ good b other)
    (l : List α) (b : β) : (∃ b', l.foldlM f b = .ok b') ↔ ∀ a ∈ l, good b a := by
  induction l generalizing b with
  | nil => exact ⟨fun _ _ mem => (nomatch mem), fun _ => ⟨b, rfl⟩⟩
  | cons a l ih =>
    rw [List.foldlM_cons, List.forall_mem_cons]
    refine ⟨?_, ?_⟩
    · intro ⟨b', h⟩
      obtain ⟨mid, hmid, h⟩ := bind_eq_ok h
      refine ⟨(round b a).mp ⟨mid, hmid⟩, fun other mem => ?_⟩
      exact (stable b a mid hmid other).mp ((ih mid).mp ⟨b', h⟩ other mem)
    · intro ⟨here, later⟩
      obtain ⟨mid, hmid⟩ := (round b a).mpr here
      rw [bind_of_ok hmid]
      exact (ih mid).mpr fun other mem => (stable b a mid hmid other).mpr (later other mem)

theorem length_of_mapM_ok {ε α β : Type} {f : α → Except ε β} {l : List α} {bs : List β}
    (h : l.mapM f = .ok bs) : bs.length = l.length := by
  induction l generalizing bs with
  | nil =>
    obtain rfl := Except.ok.inj h
    rfl
  | cons a l ih =>
    rw [List.mapM_cons] at h
    obtain ⟨b, _, h⟩ := bind_eq_ok h
    obtain ⟨rest, hrest, h⟩ := bind_eq_ok h
    obtain rfl := Except.ok.inj h
    rw [List.length_cons, List.length_cons, ih hrest]

theorem forall₂_of_mapM_ok {ε α β : Type} {f : α → Except ε β} {l : List α} {bs : List β}
    (h : l.mapM f = .ok bs) : List.Forall₂ (fun a b => f a = .ok b) l bs := by
  induction l generalizing bs with
  | nil =>
    obtain rfl := Except.ok.inj h
    exact .nil
  | cons a l ih =>
    rw [List.mapM_cons] at h
    obtain ⟨b, hb, h⟩ := bind_eq_ok h
    obtain ⟨rest, hrest, h⟩ := bind_eq_ok h
    obtain rfl := Except.ok.inj h
    exact .cons hb (ih hrest)

/-- Calls that only return. -/
theorem mapM_eq_pure {m : Type → Type} [Monad m] [LawfulMonad m] {α β : Type} {f : α → m β}
    {g : α → β} {l : List α} (h : ∀ a ∈ l, f a = pure (g a)) : l.mapM f = pure (l.map g) := by
  induction l with
  | nil => rfl
  | cons a l ih =>
    obtain ⟨here, later⟩ := List.forall_mem_cons.mp h
    rw [List.mapM_cons, here, pure_bind, ih later, pure_bind]
    rfl

theorem toOption_eq_some {ε α : Type} {m : Except ε α} {a : α} :
    m.toOption = some a ↔ m = .ok a := by
  cases m <;> simp [Except.toOption]

structure Py (σ α : Type) where
  run : σ → Except Raised α × σ

namespace Py

variable {σ α β : Type}

instance : Monad (Py σ) where
  pure a := ⟨fun s => (.ok a, s)⟩
  bind m f := ⟨fun s =>
    match m.run s with
    | (.ok a, s') => (f a).run s'
    | (.error e, s') => (.error e, s')⟩

def raise (e : Raised) : Py σ α := ⟨fun s => (.error e, s)⟩

def read : Py σ σ := ⟨fun s => (.ok s, s)⟩

def modify (f : σ → σ) : Py σ Unit := ⟨fun s => (.ok (), f s)⟩

/-- A call that either returns or raises and leaves the state alone. -/
def ofExcept (r : Except Raised α) : Py σ α := ⟨fun s => (r, s)⟩

/-- `try: body except Exception as e: handler(e)` -/
def tryExcept (body : Py σ α) (handler : Raised → Py σ α) : Py σ α := ⟨fun s =>
  match body.run s with
  | (.ok a, s') => (.ok a, s')
  | (.error e, s') => if e.isException then (handler e).run s' else (.error e, s')⟩

/-- `try: body` with `except asyncio.CancelledError` before `except Exception`;
what the first handler raises does not reach the second. -/
def tryCancelled (body onCancelled : Py σ α) (onException : Raised → Py σ α) : Py σ α := ⟨fun s =>
  match body.run s with
  | (.ok a, s') => (.ok a, s')
  | (.error e, s') =>
    if e = .cancelled then onCancelled.run s'
    else if e.isException then (onException e).run s'
    else (.error e, s')⟩

/-- A computation on a part of the state. -/
def focus {ρ : Type} (part : σ → ρ) (put : ρ → σ → σ) (m : Py ρ α) : Py σ α := ⟨fun s =>
  let (result, r) := m.run (part s)
  (result, put r s)⟩

/-- Calls in order, each of which returns or raises and changes nothing. -/
def callAll : List (Option Raised) → Py σ Unit
  | [] => pure ()
  | some e :: _ => raise e
  | none :: rest => callAll rest

/-- What the first of the calls that raises does raise. -/
def firstRaised : List (Option Raised) → Option Raised
  | [] => none
  | some e :: _ => some e
  | none :: rest => firstRaised rest

@[simp] theorem run_pure (a : α) (s : σ) : (pure a : Py σ α).run s = (.ok a, s) := rfl

@[simp] theorem run_raise (e : Raised) (s : σ) : (raise e : Py σ α).run s = (.error e, s) := rfl

@[simp] theorem run_read (s : σ) : (read : Py σ σ).run s = (.ok s, s) := rfl

@[simp] theorem run_modify (f : σ → σ) (s : σ) : (modify f).run s = (.ok (), f s) := rfl

@[simp] theorem run_ofExcept (r : Except Raised α) (s : σ) :
    (ofExcept r : Py σ α).run s = (r, s) := rfl

theorem run_bind (m : Py σ α) (f : α → Py σ β) (s : σ) :
    (m >>= f).run s = match m.run s with
      | (.ok a, s') => (f a).run s'
      | (.error e, s') => (.error e, s') := rfl

theorem run_bind_ok {m : Py σ α} {f : α → Py σ β} {s s' : σ} {a : α}
    (h : m.run s = (.ok a, s')) : (m >>= f).run s = (f a).run s' := by
  rw [run_bind, h]

theorem run_bind_error {m : Py σ α} {f : α → Py σ β} {s s' : σ} {e : Raised}
    (h : m.run s = (.error e, s')) : (m >>= f).run s = (.error e, s') := by
  rw [run_bind, h]

theorem run_callAll (calls : List (Option Raised)) (s : σ) :
    (callAll calls).run s = match firstRaised calls with
      | some e => (.error e, s)
      | none => (.ok (), s) := by
  induction calls with
  | nil => rfl
  | cons call rest ih =>
    cases call with
    | some e => rfl
    | none => exact ih

theorem run_focus {ρ : Type} (part : σ → ρ) (put : ρ → σ → σ) (m : Py ρ α) (s : σ) :
    (focus part put m).run s = ((m.run (part s)).1, put (m.run (part s)).2 s) := rfl

theorem run_tryCancelled (body onCancelled : Py σ α) (onException : Raised → Py σ α) (s : σ) :
    (tryCancelled body onCancelled onException).run s = match body.run s with
      | (.ok a, s') => (.ok a, s')
      | (.error e, s') =>
        if e = .cancelled then onCancelled.run s'
        else if e.isException then (onException e).run s'
        else (.error e, s') := rfl

theorem run_tryExcept (body : Py σ α) (handler : Raised → Py σ α) (s : σ) :
    (tryExcept body handler).run s = match body.run s with
      | (.ok a, s') => (.ok a, s')
      | (.error e, s') => if e.isException then (handler e).run s' else (.error e, s') := rfl

theorem run_tryExcept_error {body : Py σ α} {handler : Raised → Py σ α} {s s' : σ} {e : Raised}
    (h : body.run s = (.error e, s')) :
    (tryExcept body handler).run s =
      if e.isException then (handler e).run s' else (.error e, s') := by
  rw [run_tryExcept, h]

section Ends

/-- What holds when a computation returns and what holds when it raises. -/
def Ends (m : Py σ α) (s : σ) (returns : α → σ → Prop) (raises : Raised → σ → Prop) : Prop :=
  match m.run s with
  | (.ok a, s') => returns a s'
  | (.error e, s') => raises e s'

variable {returns : α → σ → Prop} {raises : Raised → σ → Prop} {s : σ}

theorem ends_of_ok {m : Py σ α} {a : α} {s' : σ} (h : m.run s = (.ok a, s')) :
    m.Ends s returns raises ↔ returns a s' := by
  rw [Ends, h]

theorem ends_of_error {m : Py σ α} {e : Raised} {s' : σ} (h : m.run s = (.error e, s')) :
    m.Ends s returns raises ↔ raises e s' := by
  rw [Ends, h]

@[simp] theorem ends_pure (a : α) : (pure a : Py σ α).Ends s returns raises ↔ returns a s := Iff.rfl

@[simp] theorem ends_raise (e : Raised) :
    (raise e : Py σ α).Ends s returns raises ↔ raises e s := Iff.rfl

@[simp] theorem ends_read {returns : σ → σ → Prop} :
    (read : Py σ σ).Ends s returns raises ↔ returns s s := Iff.rfl

@[simp] theorem ends_modify (f : σ → σ) {returns : Unit → σ → Prop} :
    (modify f).Ends s returns raises ↔ returns () (f s) := Iff.rfl

@[simp] theorem ends_ofExcept (r : Except Raised α) :
    (ofExcept r : Py σ α).Ends s returns raises ↔
      match r with
      | .ok a => returns a s
      | .error e => raises e s := by
  cases r <;> rfl

@[simp] theorem ends_bind (m : Py σ α) (f : α → Py σ β) {returns : β → σ → Prop} :
    (m >>= f).Ends s returns raises ↔
      m.Ends s (fun a s' => (f a).Ends s' returns raises) raises := by
  unfold Ends
  rw [run_bind]
  cases m.run s with
  | mk result s' => cases result <;> rfl

@[simp] theorem ends_callAll (calls : List (Option Raised)) {returns : Unit → σ → Prop} :
    (callAll calls).Ends s returns raises ↔
      match firstRaised calls with
      | some e => raises e s
      | none => returns () s := by
  unfold Ends
  rw [run_callAll]
  cases firstRaised calls <;> rfl

theorem ends_tryExcept (body : Py σ α) (handler : Raised → Py σ α) :
    (tryExcept body handler).Ends s returns raises ↔
      body.Ends s returns fun e s' =>
        if e.isException then (handler e).Ends s' returns raises else raises e s' := by
  unfold Ends
  rw [run_tryExcept]
  cases body.run s with
  | mk result s' =>
    cases result with
    | ok a => rfl
    | error e => by_cases he : e.isException = true <;> simp [he]

theorem ends_tryCancelled (body onCancelled : Py σ α) (onException : Raised → Py σ α) :
    (tryCancelled body onCancelled onException).Ends s returns raises ↔
      body.Ends s returns fun e s' =>
        if e = .cancelled then onCancelled.Ends s' returns raises
        else if e.isException then (onException e).Ends s' returns raises
        else raises e s' := by
  unfold Ends
  rw [run_tryCancelled]
  cases body.run s with
  | mk result s' =>
    cases result with
    | ok a => rfl
    | error e =>
      by_cases hc : e = .cancelled
      · simp [hc]
      · by_cases he : e.isException = true <;> simp [hc, he]

theorem Ends.mono {m : Py σ α} {returns' : α → σ → Prop} {raises' : Raised → σ → Prop}
    (h : m.Ends s returns raises) (hreturns : ∀ a s', returns a s' → returns' a s')
    (hraises : ∀ e s', raises e s' → raises' e s') : m.Ends s returns' raises' := by
  unfold Ends at h ⊢
  cases hrun : m.run s with
  | mk result s' =>
    rw [hrun] at h
    cases result with
    | ok a => exact hreturns a s' h
    | error e => exact hraises e s' h

theorem Ends.and {m : Py σ α} {returns' : α → σ → Prop} {raises' : Raised → σ → Prop}
    (h : m.Ends s returns raises) (h' : m.Ends s returns' raises') :
    m.Ends s (fun a s' => returns a s' ∧ returns' a s') fun e s' => raises e s' ∧ raises' e s' := by
  unfold Ends at h h' ⊢
  cases hrun : m.run s with
  | mk result s' =>
    rw [hrun] at h h'
    cases result with
    | ok a => exact ⟨h, h'⟩
    | error e => exact ⟨h, h'⟩

/-- What the ends a computation can have decide. -/
theorem Ends.iff {m : Py σ α} {returns' : α → σ → Prop} {raises' : Raised → σ → Prop} {P : Prop}
    (h : m.Ends s returns raises) (hreturns : ∀ a s', returns a s' → (returns' a s' ↔ P))
    (hraises : ∀ e s', raises e s' → (raises' e s' ↔ P)) : m.Ends s returns' raises' ↔ P := by
  unfold Ends at h ⊢
  cases hrun : m.run s with
  | mk result s' =>
    rw [hrun] at h
    cases result with
    | ok a => exact hreturns a s' h
    | error e => exact hraises e s' h

/-- Ends that are the same wherever a computation can end. -/
theorem Ends.congr {m : Py σ α} {returns' returns'' : α → σ → Prop}
    {raises' raises'' : Raised → σ → Prop} (h : m.Ends s returns raises)
    (hreturns : ∀ a s', returns a s' → (returns' a s' ↔ returns'' a s'))
    (hraises : ∀ e s', raises e s' → (raises' e s' ↔ raises'' e s')) :
    m.Ends s returns' raises' ↔ m.Ends s returns'' raises'' := by
  unfold Ends at h ⊢
  cases hrun : m.run s with
  | mk result s' =>
    rw [hrun] at h
    cases result with
    | ok a => exact hreturns a s' h
    | error e => exact hraises e s' h

/-- What only what follows decides. -/
theorem ends_bind_any {m : Py σ α} {f : α → Py σ β} {returns : β → σ → Prop}
    (h : ∀ a s', (f a).Ends s' returns fun _ _ => True) :
    (m >>= f).Ends s returns fun _ _ => True := by
  rw [ends_bind]
  unfold Ends
  cases m.run s with
  | mk result s' =>
    cases result with
    | ok a => exact h a s'
    | error e => trivial

/-- A property of the state alone. -/
theorem ends_state {m : Py σ α} {P : σ → Prop} :
    m.Ends s (fun _ s' => P s') (fun _ s' => P s') ↔ P (m.run s).2 := by
  unfold Ends
  cases m.run s with
  | mk result s' => cases result <;> rfl

end Ends

section Keeps

/-- An invariant that a computation keeps, whether it returns or raises. -/
def Keeps (I : σ → Prop) (m : Py σ α) : Prop := ∀ s, I s → I (m.run s).2

variable {I : σ → Prop}

theorem keeps_pure (a : α) : Keeps I (pure a : Py σ α) := fun _ h => h

theorem keeps_raise (e : Raised) : Keeps I (raise e : Py σ α) := fun _ h => h

theorem keeps_read : Keeps I (read : Py σ σ) := fun _ h => h

theorem keeps_modify {f : σ → σ} (h : ∀ s, I s → I (f s)) : Keeps I (modify f) := h

theorem keeps_ofExcept (r : Except Raised α) : Keeps I (ofExcept r : Py σ α) := fun _ h => h

theorem keeps_focus {ρ : Type} {part : σ → ρ} {put : ρ → σ → σ} (m : Py ρ α)
    (h : ∀ r s, I s → I (put r s)) : Keeps I (focus part put m) := fun s hs => h _ s hs

theorem keeps_callAll (calls : List (Option Raised)) : Keeps I (callAll calls : Py σ Unit) := by
  intro s h
  rw [run_callAll]
  cases firstRaised calls <;> exact h

theorem state_bind {m : Py σ α} {f : α → Py σ β} {s : σ} (hm : I (m.run s).2)
    (hf : ∀ a, Keeps I (f a)) : I ((m >>= f).run s).2 := by
  rw [run_bind]
  cases hrun : m.run s with
  | mk result s' =>
    rw [hrun] at hm
    cases result with
    | ok a => exact hf a s' hm
    | error e => exact hm

theorem state_tryExcept {body : Py σ α} {handler : Raised → Py σ α} {s : σ}
    (hbody : I (body.run s).2) (hhandler : ∀ e, Keeps I (handler e)) :
    I ((tryExcept body handler).run s).2 := by
  rw [run_tryExcept]
  cases hrun : body.run s with
  | mk result s' =>
    rw [hrun] at hbody
    cases result with
    | ok a => exact hbody
    | error e =>
      dsimp only
      split_ifs
      · exact hhandler e s' hbody
      · exact hbody

theorem state_tryCancelled {body onCancelled : Py σ α} {onException : Raised → Py σ α} {s : σ}
    (hbody : I (body.run s).2) (hcancelled : Keeps I onCancelled)
    (hexception : ∀ e, Keeps I (onException e)) :
    I ((tryCancelled body onCancelled onException).run s).2 := by
  rw [run_tryCancelled]
  cases hrun : body.run s with
  | mk result s' =>
    rw [hrun] at hbody
    cases result with
    | ok a => exact hbody
    | error e =>
      dsimp only
      split_ifs
      · exact hcancelled s' hbody
      · exact hexception e s' hbody
      · exact hbody

theorem Keeps.bind {m : Py σ α} {f : α → Py σ β} (hm : Keeps I m) (hf : ∀ a, Keeps I (f a)) :
    Keeps I (m >>= f) :=
  fun s h => state_bind (hm s h) hf

theorem Keeps.tryExcept {body : Py σ α} {handler : Raised → Py σ α} (hbody : Keeps I body)
    (hhandler : ∀ e, Keeps I (handler e)) : Keeps I (tryExcept body handler) :=
  fun s h => state_tryExcept (hbody s h) hhandler

theorem Keeps.tryCancelled {body onCancelled : Py σ α} {onException : Raised → Py σ α}
    (hbody : Keeps I body) (hcancelled : Keeps I onCancelled)
    (hexception : ∀ e, Keeps I (onException e)) :
    Keeps I (tryCancelled body onCancelled onException) :=
  fun s h => state_tryCancelled (hbody s h) hcancelled hexception

end Keeps

end Py
end TrajProxy
