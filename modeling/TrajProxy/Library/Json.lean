import Mathlib.Logic.Basic
import Mathlib.Data.List.Basic
import Mathlib.Tactic.SplitIfs

/-! JSON values as Python holds them after `json.loads`.
An object is the list of its items in insertion order; `get?`, `set`, `erase`,
`update` and `setdefault` are the dictionary operations on that list.
A missing key and `null` are different items and both read as `None` by
`.get(key)`, which is `getD` below. A float is its bit pattern. -/

namespace TrajProxy

/-- A key of a dictionary: missing, `null`, or there with a value. -/
inductive Field (α : Type)
  | missing
  | null
  | value (a : α)

namespace Field

variable {α : Type}

/-- `d.get(key)` -/
def get : Field α → Option α
  | .value a => some a
  | _ => none

/-- `d.get(key, default)` -/
def getOr (field : Field α) (default : α) : Option α :=
  match field with
  | .missing => some default
  | .null => none
  | .value a => some a

def map {β : Type} (f : α → β) : Field α → Field β
  | .missing => .missing
  | .null => .null
  | .value a => .value (f a)

/-- The text of a string field; it is empty exactly if the field is false. -/
def text (field : Field String) : String := field.get.getD ""

end Field

/-- Items of a dictionary whose values are of any type. -/
abbrev Items (ν : Type) := List (String × ν)

inductive Json
  | null
  | bool (b : Bool)
  | int (n : Int)
  | float (bits : UInt64)
  | str (s : String)
  | arr (items : List Json)
  | obj (items : List (String × Json))

namespace Items

variable {ν : Type}

/-- `d[key]` when the key is there. -/
def get? : Items ν → String → Option ν
  | [], _ => none
  | (k, v) :: d, key => if k = key then some v else get? d key

/-- `d[key] = value`: in place for a key that is there, at the end otherwise. -/
def set : Items ν → String → ν → Items ν
  | [], key, value => [(key, value)]
  | (k, v) :: d, key, value =>
    if k = key then (k, value) :: d else (k, v) :: set d key value

/-- The items left by `d.pop(key, None)`. -/
def erase : Items ν → String → Items ν
  | [], _ => []
  | (k, v) :: d, key => if k = key then erase d key else (k, v) :: erase d key

/-- `d.update(e)` -/
def update (d e : Items ν) : Items ν := e.foldl (fun d item => d.set item.1 item.2) d

/-- `d.setdefault(key, value)` -/
def setdefault (d : Items ν) (key : String) (value : ν) : Items ν :=
  match d.get? key with
  | some _ => d
  | none => d.set key value

@[simp] theorem get?_nil (key : String) : get? ([] : Items ν) key = none := rfl

@[simp] theorem get?_cons_self (key : String) (v : ν) (d : Items ν) :
    get? ((key, v) :: d) key = some v := by simp [get?]

theorem get?_cons_ne {k key : String} (v : ν) (d : Items ν) (h : k ≠ key) :
    get? ((k, v) :: d) key = get? d key := by simp [get?, h]

theorem get?_set (d : Items ν) (key key' : String) (value : ν) :
    (d.set key value).get? key' = if key' = key then some value else d.get? key' := by
  induction d with
  | nil => simp [set, get?, eq_comm]
  | cons item d ih =>
    obtain ⟨k, v⟩ := item
    by_cases here : k = key
    · subst here
      by_cases eq : k = key'
      · simp [set, eq]
      · simp [set, get?, eq, Ne.symm eq]
    · by_cases eq : k = key'
      · subst eq
        simp [set, get?, here]
      · simp [set, get?, here, eq, ih]

@[simp] theorem get?_set_self (d : Items ν) (key : String) (value : ν) :
    (d.set key value).get? key = some value := by simp [get?_set]

theorem set_set (d : Items ν) (key : String) (value value' : ν) :
    (d.set key value).set key value' = d.set key value' := by
  induction d with
  | nil => simp [set]
  | cons item d ih =>
    obtain ⟨k, v⟩ := item
    by_cases here : k = key
    · simp [set, here]
    · simp [set, here, ih]

theorem set_get (d : Items ν) (key : String) (value : ν) (h : d.get? key = some value) :
    d.set key value = d := by
  induction d with
  | nil => simp at h
  | cons item d ih =>
    obtain ⟨k, v⟩ := item
    by_cases here : k = key
    · subst here
      rw [get?_cons_self, Option.some_inj] at h
      simp [set, h]
    · rw [get?_cons_ne v d here] at h
      simp [set, here, ih h]

/-- Writing back the value a key had before restores the dictionary. -/
theorem set_set_get (d : Items ν) (key : String) (value original : ν)
    (h : d.get? key = some original) : (d.set key value).set key original = d := by
  rw [set_set, set_get d key original h]

/-- What a function does not tell apart may be written under a key that is there. -/
theorem map_set {β : Type} (f : String × ν → β) {d : Items ν} {key : String} {value value' : ν}
    (h : d.get? key = some value) (same : f (key, value') = f (key, value)) :
    (d.set key value').map f = d.map f := by
  induction d with
  | nil => simp at h
  | cons item d ih =>
    obtain ⟨k, v⟩ := item
    by_cases here : k = key
    · subst here
      rw [get?_cons_self, Option.some_inj] at h
      simp [set, same, h]
    · rw [get?_cons_ne v d here] at h
      simp [set, here, ih h]

theorem erase_set (d : Items ν) (key : String) (value : ν) :
    (d.set key value).erase key = d.erase key := by
  induction d with
  | nil => simp [set, erase]
  | cons item d ih =>
    obtain ⟨k, v⟩ := item
    by_cases here : k = key
    · simp [set, erase, here]
    · simp [set, erase, here, ih]

theorem get?_set_ne (d : Items ν) {key key' : String} (value : ν) (h : key' ≠ key) :
    (d.set key value).get? key' = d.get? key' := by
  rw [get?_set, if_neg h]

theorem get?_erase (d : Items ν) (key key' : String) :
    (d.erase key).get? key' = if key' = key then none else d.get? key' := by
  induction d with
  | nil => simp [erase]
  | cons item d ih =>
    obtain ⟨k, v⟩ := item
    by_cases here : k = key
    · subst here
      rw [erase, if_pos rfl, ih]
      split_ifs with eq
      · rfl
      · rw [get?_cons_ne v d (Ne.symm eq)]
    · by_cases eq : k = key'
      · subst eq
        simp [erase, get?, here]
      · simp [erase, get?, here, eq, ih]

theorem update_append (d e e' : Items ν) : d.update (e ++ e') = (d.update e).update e' := by
  unfold update
  exact List.foldl_append

/-- The value an update with these items leaves under a key. -/
def lastValue (e : Items ν) (key : String) : Option ν :=
  (e.filter (·.1 = key)).getLast?.map (·.2)

theorem lastValue_cons (k : String) (v : ν) (e : Items ν) (key : String) :
    lastValue ((k, v) :: e) key = (e.lastValue key).or (if k = key then some v else none) := by
  unfold lastValue
  by_cases eq : k = key
  · rw [List.filter_cons_of_pos (by simpa using eq), List.getLast?_cons, if_pos eq]
    cases (e.filter (·.1 = key)).getLast? <;> rfl
  · rw [List.filter_cons_of_neg (by simpa using eq), if_neg eq, Option.or_none]

theorem get?_update (d e : Items ν) (key : String) :
    (d.update e).get? key = (e.lastValue key).or (d.get? key) := by
  induction e generalizing d with
  | nil => rfl
  | cons item e ih =>
    obtain ⟨k, v⟩ := item
    change ((d.set k v).update e).get? key = _
    rw [ih, lastValue_cons, Option.or_assoc, get?_set]
    by_cases eq : k = key
    · simp [eq]
    · simp [eq, Ne.symm eq]

theorem get?_eq_none_of_notMem {d : Items ν} {key : String} (h : key ∉ d.map Prod.fst) :
    d.get? key = none := by
  induction d with
  | nil => rfl
  | cons item d ih =>
    obtain ⟨k, v⟩ := item
    rw [List.map_cons, List.mem_cons, not_or] at h
    rw [get?_cons_ne v d (Ne.symm h.1), ih h.2]

theorem get?_append_of_mem {d : Items ν} (unique : (d.map Prod.fst).Nodup) (e : Items ν)
    {item : String × ν} (mem : item ∈ d) : get? (d ++ e) item.1 = some item.2 := by
  induction d with
  | nil => nomatch mem
  | cons first d ih =>
    rw [List.map_cons, List.nodup_cons] at unique
    rcases List.mem_cons.mp mem with rfl | later
    · exact get?_cons_self _ _ _
    · have other : first.1 ≠ item.1 := by
        intro same
        exact unique.1 (same ▸ List.mem_map_of_mem later)
      rw [List.cons_append, get?_cons_ne _ _ other]
      exact ih unique.2 later

/-- In a dictionary every key occurs once. -/
theorem lastValue_of_nodup {d : Items ν} (unique : (d.map Prod.fst).Nodup) (key : String) :
    d.lastValue key = d.get? key := by
  induction d with
  | nil => rfl
  | cons item d ih =>
    obtain ⟨k, v⟩ := item
    rw [List.map_cons, List.nodup_cons] at unique
    rw [lastValue_cons, ih unique.2]
    by_cases eq : k = key
    · subst eq
      simp [get?_eq_none_of_notMem unique.1]
    · rw [if_neg eq, Option.or_none, get?_cons_ne v d eq]

theorem map_fst_set (d : Items ν) (key : String) (value : ν) :
    (d.set key value).map Prod.fst =
      if key ∈ d.map Prod.fst then d.map Prod.fst else d.map Prod.fst ++ [key] := by
  induction d with
  | nil => simp [set]
  | cons item d ih =>
    obtain ⟨k, v⟩ := item
    by_cases here : k = key
    · simp [set, here]
    · rw [set, if_neg here, List.map_cons, ih, List.map_cons]
      by_cases later : key ∈ d.map Prod.fst
      · rw [if_pos later, if_pos (List.mem_cons_of_mem _ later)]
      · rw [if_neg later, if_neg]
        · rfl
        · rw [List.mem_cons, not_or]
          exact ⟨Ne.symm here, later⟩

theorem set_of_notMem {d : Items ν} {key : String} (h : key ∉ d.map Prod.fst) (value : ν) :
    d.set key value = d ++ [(key, value)] := by
  induction d with
  | nil => rfl
  | cons item d ih =>
    obtain ⟨k, v⟩ := item
    rw [List.map_cons, List.mem_cons, not_or] at h
    rw [set, if_neg (Ne.symm h.1), ih h.2, List.cons_append]

theorem erase_of_notMem {d : Items ν} {key : String} (h : key ∉ d.map Prod.fst) :
    d.erase key = d := by
  induction d with
  | nil => rfl
  | cons item d ih =>
    obtain ⟨k, v⟩ := item
    rw [List.map_cons, List.mem_cons, not_or] at h
    rw [erase, if_neg (Ne.symm h.1), ih h.2]

/-- New keys come after those that are there. -/
theorem update_of_disjoint {d e : Items ν} (unique : (e.map Prod.fst).Nodup)
    (disjoint : ∀ key ∈ e.map Prod.fst, key ∉ d.map Prod.fst) : d.update e = d ++ e := by
  induction e generalizing d with
  | nil => exact (List.append_nil d).symm
  | cons item e ih =>
    obtain ⟨k, v⟩ := item
    rw [List.map_cons, List.nodup_cons] at unique
    change (d.set k v).update e = _
    rw [set_of_notMem (disjoint k List.mem_cons_self), ih unique.2, List.append_assoc]
    · rfl
    · intro key later there
      rw [List.map_append, List.mem_append] at there
      rcases there with old | new
      · exact disjoint key (List.mem_cons_of_mem _ later) old
      · rw [List.map_singleton, List.mem_singleton] at new
        exact unique.1 (new ▸ later)

theorem nodup_set {d : Items ν} (unique : (d.map Prod.fst).Nodup) (key : String) (value : ν) :
    ((d.set key value).map Prod.fst).Nodup := by
  rw [map_fst_set]
  split_ifs with there
  · exact unique
  · rw [List.nodup_append]
    exact ⟨unique, List.pairwise_singleton _ key, fun k mem k' single => by
      rw [List.mem_singleton.mp single]
      rintro rfl
      exact there mem⟩

theorem nodup_foldl {α : Type} {step : Items ν → α → Items ν}
    (keeps : ∀ d a, (d.map Prod.fst).Nodup → ((step d a).map Prod.fst).Nodup) (l : List α)
    {d : Items ν} (unique : (d.map Prod.fst).Nodup) :
    ((l.foldl step d).map Prod.fst).Nodup := by
  induction l generalizing d with
  | nil => exact unique
  | cons a l ih => exact ih (keeps d a unique)

theorem nodup_update {d : Items ν} (unique : (d.map Prod.fst).Nodup) (e : Items ν) :
    ((d.update e).map Prod.fst).Nodup :=
  nodup_foldl (fun _ item unique => nodup_set unique item.1 item.2) e unique

theorem get?_filter {d : Items ν} (unique : (d.map Prod.fst).Nodup) (p : String × ν → Bool)
    (key : String) : get? (d.filter p) key = (d.get? key).filter fun value => p (key, value) := by
  induction d with
  | nil => rfl
  | cons item d ih =>
    obtain ⟨k, v⟩ := item
    rw [List.map_cons, List.nodup_cons] at unique
    by_cases eq : k = key
    · subst eq
      rw [get?_cons_self, List.filter_cons]
      split_ifs with kept
      · rw [get?_cons_self, Option.filter_some, if_pos kept]
      · have gone : k ∉ (d.filter p).map Prod.fst := fun mem =>
          unique.1 ((List.filter_sublist.map _).mem mem)
        rw [get?_eq_none_of_notMem gone, Option.filter_some, if_neg kept]
    · rw [get?_cons_ne v d eq, ← ih unique.2, List.filter_cons]
      split_ifs
      · rw [get?_cons_ne v _ eq]
      · rfl

theorem nodup_setdefault {d : Items ν} (unique : (d.map Prod.fst).Nodup) (key : String)
    (value : ν) : ((d.setdefault key value).map Prod.fst).Nodup := by
  unfold setdefault
  cases d.get? key with
  | some old => exact unique
  | none => exact nodup_set unique key value

theorem get?_setdefault (d : Items ν) (key key' : String) (value : ν) :
    (d.setdefault key value).get? key' =
      (d.get? key').or (if key' = key then some value else none) := by
  unfold setdefault
  cases h : d.get? key with
  | some old =>
    dsimp only
    split_ifs with heq
    · rw [heq, h]
      rfl
    · rw [Option.or_none]
  | none =>
    dsimp only
    rw [get?_set]
    split_ifs with heq
    · rw [heq, h]
      rfl
    · rw [Option.or_none]

/-- Items added with `setdefault` never replace one that is there. -/
theorem get?_foldl_setdefault (items d : Items ν) (key : String) :
    (items.foldl (fun d item => d.setdefault item.1 item.2) d).get? key =
      (d.get? key).or (items.get? key) := by
  induction items generalizing d with
  | nil => simp
  | cons item items ih =>
    obtain ⟨k, v⟩ := item
    rw [List.foldl_cons, ih, get?_setdefault, Option.or_assoc]
    by_cases heq : k = key
    · simp [heq]
    · rw [if_neg (Ne.symm heq), Option.none_or, get?_cons_ne v items heq]

end Items

/-- A dictionary: no key occurs twice. -/
structure Dict (ν : Type) where
  items : Items ν
  unique : (items.map Prod.fst).Nodup

namespace Json

/-- `bool(value)` -/
def truthy : Json → Bool
  | null => false
  | bool b => b
  | int n => n ≠ 0
  | float bits => bits ≠ 0 ∧ bits ≠ 0x8000000000000000
  | str s => s ≠ ""
  | arr items => !items.isEmpty
  | obj items => !items.isEmpty

/-- `value is None` -/
def isNull : Json → Bool
  | null => true
  | _ => false

/-- `d.get(key)` on the items of an object. -/
def getD (d : Items Json) (key : String) : Json := (d.get? key).getD null

/-- `None` is `null`. -/
def ofOption {α : Type} (f : α → Json) : Option α → Json
  | none => null
  | some a => f a

end Json

/-- A dictionary with the field under a key of its own. -/
def Items.setField {α : Type} (d : Items Json) (key : String) (f : α → Json) :
    Field α → Items Json
  | .missing => d.erase key
  | .null => d.set key .null
  | .value a => d.set key (f a)

theorem Items.get?_setField {α : Type} (d : Items Json) (key key' : String) (f : α → Json)
    (field : Field α) : (d.setField key f field).get? key' =
      if key' = key then
        match field with
        | .missing => none
        | .null => some .null
        | .value a => some (f a)
      else d.get? key' := by
  cases field with
  | missing => exact get?_erase d key key'
  | null => exact get?_set d key key' _
  | value a => exact get?_set d key key' _

namespace Json

theorem getD_setField {α : Type} (d : Items Json) (key key' : String) (f : α → Json)
    (field : Field α) :
    getD (d.setField key f field) key' =
      if key' = key then ofOption f field.get else getD d key' := by
  unfold getD
  rw [Items.get?_setField]
  split_ifs
  · cases field <;> rfl
  · rfl

theorem getD_set (d : Items Json) (key key' : String) (value : Json) :
    getD (d.set key value) key' = if key' = key then value else getD d key' := by
  unfold getD
  rw [Items.get?_set]
  split_ifs <;> rfl

theorem getD_erase (d : Items Json) (key key' : String) :
    getD (d.erase key) key' = if key' = key then .null else getD d key' := by
  unfold getD
  rw [Items.get?_erase]
  split_ifs <;> rfl

end Json

end TrajProxy
