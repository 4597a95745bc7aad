import TrajProxy.Library.Effect
import TrajProxy.Library.Json

/-! Calls of Python functions `def f(a, b=default, **kwargs)`.
At a call the first parameters may be filled by position; the explicit keyword
arguments and the items of a splatted dictionary are merged, no key twice, and
fill the other parameters by name. What names no parameter ends in `kwargs`. -/

namespace TrajProxy

/-- Why a call raises `TypeError`. -/
inductive CallError
  | multipleValues (name : String)
  | missingArgument (name : String)
  deriving DecidableEq

/-- The parameters before `**kwargs`, with the defaults of those that have one. -/
structure Signature (ν : Type) where
  params : Items (Option ν)

/-- The parameters filled by name, and `kwargs`. -/
structure Bound (ν : Type) where
  args : Items ν
  kwargs : Items ν

namespace Signature

variable {ν : Type}

def names (f : Signature ν) : List String := f.params.map Prod.fst

/-- The value of a parameter that was not filled by position. -/
def argument (keywords : Items ν) (param : String × Option ν) : Except CallError (String × ν) :=
  match (keywords.get? param.1).or param.2 with
  | some value => .ok (param.1, value)
  | none => .error (.missingArgument param.1)

/-- The arguments of a call that fills the first `positional` parameters by
position. -/
def bind (f : Signature ν) (positional : Nat) (keywords : Items ν) : Except CallError (Bound ν) :=
  match keywords.find? fun item => item.1 ∈ f.names.take positional with
  | some item => .error (.multipleValues item.1)
  | none => do
    let args ← (f.params.drop positional).mapM (argument keywords)
    pure ⟨args, keywords.filter fun item => item.1 ∉ f.names⟩

/-- `f(…, key=value, …, **splat)` -/
def call (f : Signature ν) (positional : Nat) (explicit splat : Items ν) :
    Except CallError (Bound ν) :=
  match splat.find? fun item => item.1 ∈ explicit.map Prod.fst with
  | some item => .error (.multipleValues item.1)
  | none => f.bind positional (explicit ++ splat)

theorem find?_key_eq_none {items : Items ν} {keys : List String} :
    items.find? (fun item => item.1 ∈ keys) = none ↔ ∀ key ∈ items.map Prod.fst, key ∉ keys := by
  simp [List.find?_eq_none]

/-- A call that returned was given no key twice and none of a parameter filled
by position. -/
theorem call_ok {f : Signature ν} {positional : Nat} {explicit splat : Items ν}
    {bound : Bound ν} (h : f.call positional explicit splat = .ok bound) :
    (∀ key ∈ splat.map Prod.fst, key ∉ explicit.map Prod.fst) ∧
      (∀ key ∈ splat.map Prod.fst, key ∉ f.names.take positional) ∧
      f.bind positional (explicit ++ splat) = .ok bound := by
  unfold call at h
  cases hdouble : splat.find? fun item => item.1 ∈ explicit.map Prod.fst with
  | some item =>
    rw [hdouble] at h
    nomatch h
  | none =>
    rw [hdouble] at h
    refine ⟨find?_key_eq_none.mp hdouble, ?_, h⟩
    intro key mem
    have hbind : f.bind positional (explicit ++ splat) = .ok bound := h
    unfold bind at hbind
    cases hfilled : (explicit ++ splat).find? fun item => item.1 ∈ f.names.take positional with
    | some item =>
      rw [hfilled] at hbind
      nomatch hbind
    | none =>
      refine find?_key_eq_none.mp hfilled key ?_
      rw [List.map_append]
      exact List.mem_append_right _ mem

theorem mapM_argument {keywords : Items ν} {params : Items (Option ν)} {args : Items ν}
    (names : args.map Prod.fst = params.map Prod.fst)
    (values : ∀ item ∈ args, keywords.get? item.1 = some item.2) :
    params.mapM (argument keywords) = .ok args := by
  induction params generalizing args with
  | nil =>
    obtain rfl := List.map_eq_nil_iff.mp names
    rfl
  | cons param params ih =>
    cases args with
    | nil => nomatch names
    | cons item args =>
      obtain ⟨name, rest⟩ := List.cons.inj names
      have here : argument keywords param = .ok item := by
        rw [argument, ← name, values item List.mem_cons_self]
        rfl
      have later := ih rest fun other mem => values other (List.mem_cons_of_mem _ mem)
      rw [List.mapM_cons, here, later]
      rfl

/-- Where every parameter has an argument of its own, the splatted dictionary is
what `kwargs` holds. -/
theorem bind_named {f : Signature ν} {positional : Nat} {explicit splat : Items ν}
    (unique : f.names.Nodup) (named : explicit.map Prod.fst = f.names.drop positional)
    (free : ∀ key ∈ splat.map Prod.fst, key ∉ f.names) :
    f.bind positional (explicit ++ splat) = .ok ⟨explicit, splat⟩ := by
  have split : f.names.take positional ++ f.names.drop positional = f.names :=
    List.take_append_drop positional f.names
  have apart := (List.nodup_append.mp (split.symm ▸ unique))
  have unfilled : (explicit ++ splat).find? (fun item => item.1 ∈ f.names.take positional) =
      none := by
    apply find?_key_eq_none.mpr
    intro key mem filled
    rw [List.map_append, List.mem_append, named] at mem
    rcases mem with own | client
    · exact apart.2.2 key filled key own rfl
    · exact free key client (List.mem_of_mem_take filled)
  have args : (f.params.drop positional).mapM (argument (explicit ++ splat)) = .ok explicit := by
    apply mapM_argument
    · rw [named, names, List.map_drop]
    · intro item mem
      exact Items.get?_append_of_mem (named ▸ apart.2.1) splat mem
  have rest : (explicit ++ splat).filter (fun item => item.1 ∉ f.names) = splat := by
    rw [List.filter_append, List.filter_eq_nil_iff.mpr, List.nil_append, List.filter_eq_self.mpr]
    · intro item mem
      simpa using free item.1 (List.mem_map_of_mem mem)
    · intro item mem
      have own : item.1 ∈ f.names := List.mem_of_mem_drop (named ▸ List.mem_map_of_mem mem)
      simpa using own
  unfold bind
  rw [unfilled, args, rest]
  rfl

theorem call_named {f : Signature ν} {positional : Nat} {explicit splat : Items ν}
    (unique : f.names.Nodup) (named : explicit.map Prod.fst = f.names.drop positional)
    (free : ∀ key ∈ splat.map Prod.fst, key ∉ f.names) :
    f.call positional explicit splat = .ok ⟨explicit, splat⟩ := by
  have single : splat.find? (fun item => item.1 ∈ explicit.map Prod.fst) = none := by
    apply find?_key_eq_none.mpr
    intro key mem own
    exact free key mem (List.mem_of_mem_drop (named ▸ own))
  rw [call, single]
  exact bind_named unique named free

/-- A wrapper `def w(a, …, **kwargs)` that names no parameter by keyword hands on
both kinds of keyword arguments. -/
theorem call_wrapper {f : Signature ν} {positional : Nat} {explicit splat : Items ν}
    (unique : f.names.Nodup) (filled : f.names.drop positional = [])
    (single : ∀ key ∈ splat.map Prod.fst, key ∉ explicit.map Prod.fst)
    (free : ∀ key ∈ (explicit ++ splat).map Prod.fst, key ∉ f.names) :
    f.call positional explicit splat = .ok ⟨[], explicit ++ splat⟩ := by
  rw [call, find?_key_eq_none.mpr single]
  exact @bind_named _ _ _ [] _ unique filled.symm free

theorem call_nil (f : Signature ν) (positional : Nat) (keywords : Items ν) :
    f.call positional [] keywords = f.bind positional keywords := by
  have single : keywords.find? (fun item => item.1 ∈ ([] : Items ν).map Prod.fst) = none :=
    find?_key_eq_none.mpr fun _ _ => List.not_mem_nil
  rw [call, single]
  rfl

/-- A call that names every parameter returned, so the dictionary names none. -/
theorem call_named_ok {f : Signature ν} {positional : Nat} {explicit splat : Items ν}
    {bound : Bound ν} (unique : f.names.Nodup)
    (named : explicit.map Prod.fst = f.names.drop positional)
    (h : f.call positional explicit splat = .ok bound) :
    (∀ key ∈ splat.map Prod.fst, key ∉ f.names) ∧ bound = ⟨explicit, splat⟩ := by
  obtain ⟨single, unfilled, _⟩ := call_ok h
  have free : ∀ key ∈ splat.map Prod.fst, key ∉ f.names := by
    intro key mem there
    rw [← List.take_append_drop positional f.names, List.mem_append] at there
    rcases there with filled | own
    · exact unfilled key mem filled
    · exact single key mem (named ▸ own)
  rw [call_named unique named free] at h
  exact ⟨free, (Except.ok.inj h).symm⟩

end Signature
end TrajProxy
