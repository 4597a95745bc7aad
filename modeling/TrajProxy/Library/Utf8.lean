import Mathlib.Data.List.Basic
import Mathlib.Data.List.Infix
import Mathlib.Tactic.Common

/-! Decoding with replacement, for any coding in which a unit that continues a
character cannot begin one: what cannot be decoded becomes one replacement for
each maximal part of a character, and a decoder that starts in the middle is in
step again at the next unit that begins a character. UTF-8 is such a coding. -/

namespace TrajProxy

/-- `next pending b` says what the unit `b` does behind the units of an
unfinished character: it cannot follow (`none`), goes on (`some none`), or
completes a character. -/
structure Coding (β γ : Type) where
  next : List β → β → Option (Option γ)
  replacement : γ
  separate : ∀ q b, q ≠ [] → next q b ≠ none → next [] b = none

namespace Coding

variable {β γ : Type} (C : Coding β γ)

/-- The output and the pending units after a unit that begins anew. -/
def start (b : β) : List γ × List β :=
  match C.next [] b with
  | some (some c) => ([c], [])
  | some none => ([], [b])
  | none => ([C.replacement], [])

def step (q : List β) (b : β) : List γ × List β :=
  match C.next q b, q with
  | some (some c), _ => ([c], [])
  | some none, q => ([], q ++ [b])
  | none, [] => ([C.replacement], [])
  | none, _ :: _ => (C.replacement :: (C.start b).1, (C.start b).2)

/-- What an unfinished character leaves at the end. -/
def flush : List β → List γ
  | [] => []
  | _ :: _ => [C.replacement]

def emitted : List β → List β → List γ
  | _, [] => []
  | q, b :: bs => (C.step q b).1 ++ emitted (C.step q b).2 bs

def pending : List β → List β → List β
  | q, [] => q
  | q, b :: bs => pending (C.step q b).2 bs

/-- The text of `bs` behind the pending units `q`. -/
def decodeFrom (q bs : List β) : List γ := C.emitted q bs ++ C.flush (C.pending q bs)

def decode (bs : List β) : List γ := C.decodeFrom [] bs

/-- The first unit of `bs` continues the character begun by `q`. -/
def Continues (q bs : List β) : Prop := ∃ b rest, bs = b :: rest ∧ C.next q b ≠ none

variable {C} {q : List β} {b : β}

theorem step_nil (b : β) : C.step [] b = C.start b := by
  unfold step start
  cases C.next [] b with
  | none => rfl
  | some found => cases found <;> rfl

theorem step_completes {c : γ} (h : C.next q b = some (some c)) : C.step q b = ([c], []) := by
  simp only [step, h]

theorem step_goesOn (h : C.next q b = some none) : C.step q b = ([], q ++ [b]) := by
  simp only [step, h]

theorem step_broken (h : C.next q b = none) (started : q ≠ []) :
    C.step q b = (C.replacement :: (C.start b).1, (C.start b).2) := by
  cases q with
  | nil => exact absurd rfl started
  | cons a q => simp only [step, h]

/-- A unit that continues a character is replaced where it stands alone. -/
theorem step_alone (started : q ≠ []) (h : C.next q b ≠ none) :
    C.step [] b = ([C.replacement], []) := by
  rw [step_nil, start, C.separate q b started h]

theorem emitted_append (q xs ys : List β) :
    C.emitted q (xs ++ ys) = C.emitted q xs ++ C.emitted (C.pending q xs) ys := by
  induction xs generalizing q with
  | nil => rfl
  | cons b xs ih => simp only [List.cons_append, emitted, pending, ih, List.append_assoc]

theorem pending_append (q xs ys : List β) :
    C.pending q (xs ++ ys) = C.pending (C.pending q xs) ys := by
  induction xs generalizing q with
  | nil => rfl
  | cons b xs ih => exact ih (C.step q b).2

theorem decodeFrom_cons (q : List β) (b : β) (bs : List β) :
    C.decodeFrom q (b :: bs) = (C.step q b).1 ++ C.decodeFrom (C.step q b).2 bs := by
  simp only [decodeFrom, emitted, pending, List.append_assoc]

theorem decode_append (xs ys : List β) :
    C.decode (xs ++ ys) = C.emitted [] xs ++ C.decodeFrom (C.pending [] xs) ys := by
  rw [decode, decodeFrom, emitted_append, pending_append, decodeFrom, List.append_assoc]

theorem decodeFrom_broken (h : C.next q b = none) (started : q ≠ []) (bs : List β) :
    C.decodeFrom q (b :: bs) = C.replacement :: C.decode (b :: bs) := by
  rw [decode, decodeFrom_cons, decodeFrom_cons, step_broken h started, step_nil]
  rfl

theorem decode_alone (started : q ≠ []) (h : C.next q b ≠ none) (bs : List β) :
    C.decode (b :: bs) = C.replacement :: C.decode bs := by
  rw [decode, decodeFrom_cons, step_alone started h]
  rfl

/-- Starting anew in the middle of `bs` ends with the same pending units, unless
all of `bs` goes on with the character begun by `q`. -/
theorem pending_sync (q bs : List β) :
    C.pending q bs = C.pending [] bs ∨
      C.pending q bs = q ++ bs ∧ C.pending [] bs = [] ∧
        C.emitted [] bs = List.replicate bs.length C.replacement := by
  induction bs generalizing q with
  | nil => exact Or.inr ⟨(List.append_nil q).symm, rfl, rfl⟩
  | cons b bs ih =>
    by_cases started : q = []
    · exact Or.inl (by rw [started])
    · cases found : C.next q b with
      | none =>
        refine Or.inl ?_
        rw [pending, pending, step_broken found started, step_nil]
      | some completed =>
        have alone := step_alone started (by rw [found]; exact Option.some_ne_none completed)
        cases completed with
        | some c =>
          refine Or.inl ?_
          rw [pending, pending, alone, step_completes found]
        | none =>
          simp only [pending, emitted, alone, step_goesOn found]
          rcases ih (q ++ [b]) with same | ⟨all, none, replaced⟩
          · exact Or.inl same
          · refine Or.inr ⟨?_, none, ?_⟩
            · rw [all, List.append_assoc, List.singleton_append]
            · rw [replaced, List.length_cons, List.replicate_succ, List.singleton_append]

theorem length_decodeFrom_le (q bs : List β) :
    (C.decodeFrom q bs).length ≤ (C.decode bs).length + 1 := by
  induction bs generalizing q with
  | nil => cases q <;> simp [decodeFrom, emitted, pending, flush]
  | cons b bs ih =>
    by_cases started : q = []
    · rw [started, decode]
      omega
    · cases found : C.next q b with
      | none =>
        rw [decodeFrom_broken found started]
        exact le_of_eq (List.length_cons ..)
      | some completed =>
        have alone := decode_alone started (by rw [found]; exact Option.some_ne_none completed) bs
        rw [alone, decodeFrom_cons]
        cases completed with
        | some c =>
          have same : C.decodeFrom [] bs = C.decode bs := rfl
          simp [step_completes found, same]
        | none =>
          have bound := ih (q ++ [b])
          simp only [step_goesOn found, List.nil_append, List.length_cons]
          omega

/-- Behind an unfinished character a text is decoded as if alone exactly if it
does not continue the character. -/
theorem decodeFrom_eq_iff (started : q ≠ []) (bs : List β) :
    C.decodeFrom q bs = C.replacement :: C.decode bs ↔ ¬C.Continues q bs := by
  cases bs with
  | nil =>
    refine iff_of_true ?_ (fun continues => ?_)
    · cases q with
      | nil => exact absurd rfl started
      | cons a q => rfl
    · obtain ⟨b, rest, none, -⟩ := continues
      cases none
  | cons b bs =>
    cases found : C.next q b with
    | none =>
      refine iff_of_true (decodeFrom_broken found started bs) ?_
      rintro ⟨b', rest, same, follows⟩
      cases same
      exact follows found
    | some completed =>
      have follows : C.next q b ≠ none := by
        rw [found]
        exact Option.some_ne_none completed
      refine iff_of_false ?_ (fun alone => alone ⟨b, bs, rfl, follows⟩)
      intro same
      have lengths := congrArg List.length same
      rw [decode_alone started follows, decodeFrom_cons] at lengths
      cases completed with
      | some c =>
        have same : C.decodeFrom [] bs = C.decode bs := rfl
        simp [step_completes found, same] at lengths
      | none =>
        have bound := (length_decodeFrom_le (q ++ [b]) bs : (C.decodeFrom _ bs).length ≤ _)
        simp only [step_goesOn found, List.nil_append, List.length_cons] at lengths
        omega

/-! ### Resuming from a window

`xs` has been decoded; the units behind it are decoded together with the last
units `ws` of `xs` only. -/

variable {xs ys ws zs : List β}

theorem decode_eq (xs : List β) : C.decode xs = C.emitted [] xs ++ C.flush (C.pending [] xs) := rfl

theorem length_step_le (q : List β) (b : β) : (C.step q b).2.length ≤ q.length + 1 := by
  have anew : (C.start b).2.length ≤ 1 := by
    unfold start
    cases C.next [] b with
    | none => exact Nat.zero_le 1
    | some completed => cases completed <;> simp
  cases found : C.next q b with
  | none =>
    by_cases started : q = []
    · rw [started, step_nil]
      exact anew.trans (Nat.le_add_left 1 _)
    · rw [step_broken found started]
      exact anew.trans (Nat.le_add_left 1 _)
  | some completed =>
    cases completed with
    | some c => simp [step_completes found]
    | none => simp [step_goesOn found]

theorem length_pending_le (q bs : List β) : (C.pending q bs).length ≤ q.length + bs.length := by
  induction bs generalizing q with
  | nil => exact le_rfl
  | cons b bs ih =>
    have one : (C.step q b).2.length ≤ q.length + 1 := length_step_le q b
    have rest := ih (C.step q b).2
    rw [pending, List.length_cons]
    omega

/-- A window that holds the unfinished character. -/
theorem pending_window (h : xs = ys ++ ws) (holds : (C.pending [] xs).length ≤ ws.length) :
    C.pending [] ws = C.pending [] xs := by
  rw [h, pending_append] at holds ⊢
  rcases C.pending_sync (C.pending [] ys) ws with same | ⟨all, none, -⟩
  · exact same.symm
  · rw [all, List.length_append] at holds
    have empty : C.pending [] ys = [] := List.length_eq_zero_iff.mp (by omega)
    rw [empty]

/-- A window inside the unfinished character. -/
theorem pending_short_window (h : xs = ys ++ ws) (short : ws.length < (C.pending [] xs).length) :
    C.pending [] ws = [] := by
  rw [h, pending_append] at short
  rcases C.pending_sync (C.pending [] ys) ws with same | ⟨-, none, -⟩
  · have bound : (C.pending [] ws).length ≤ 0 + ws.length := length_pending_le [] ws
    rw [same] at short
    omega
  · exact none

theorem decode_prefix_iff (xs zs : List β) :
    C.decode xs <+: C.decode (xs ++ zs) ↔
      C.flush (C.pending [] xs) <+: C.decodeFrom (C.pending [] xs) zs := by
  rw [decode_append, decode_eq, List.prefix_append_right_inj]

theorem window_prefix_iff (same : C.pending [] ws = C.pending [] xs) (zs : List β) :
    C.decode ws <+: C.decode (ws ++ zs) ↔ C.decode xs <+: C.decode (xs ++ zs) := by
  rw [decode_prefix_iff, decode_prefix_iff, same]

/-- A window in step with the whole yields what the whole does. -/
theorem resume_window (same : C.pending [] ws = C.pending [] xs)
    (starts : C.decode ws <+: C.decode (ws ++ zs)) :
    C.decode xs ++ (C.decode (ws ++ zs)).drop (C.decode ws).length = C.decode (xs ++ zs) := by
  obtain ⟨new, grown⟩ := starts
  have tail : C.flush (C.pending [] xs) ++ new = C.decodeFrom (C.pending [] xs) zs := by
    rw [decode_append, decode_eq, List.append_assoc, same] at grown
    exact List.append_cancel_left grown
  rw [← grown, List.drop_left, decode_append, decode_eq xs, List.append_assoc, tail]

/-- A window inside an unfinished character yields `zs` decoded alone. -/
theorem resume_short_window (zs : List β) (none : C.pending [] ws = [])
    (started : C.pending [] xs ≠ []) :
    C.decode ws <+: C.decode (ws ++ zs) ∧
      (C.decode xs ++ (C.decode (ws ++ zs)).drop (C.decode ws).length = C.decode (xs ++ zs) ↔
        ¬C.Continues (C.pending [] xs) zs) := by
  have grown : C.decode (ws ++ zs) = C.decode ws ++ C.decode zs := by
    rw [decode_append, decode_eq ws, none, flush, List.append_nil]
    rfl
  have replaced : C.flush (C.pending [] xs) = [C.replacement] := by
    cases unfinished : C.pending [] xs with
    | nil => exact absurd unfinished started
    | cons b q => rfl
  refine ⟨grown ▸ List.prefix_append .., ?_⟩
  rw [grown, List.drop_left, decode_append, decode_eq xs, replaced, List.append_assoc,
    List.append_cancel_left_eq, List.singleton_append, ← decodeFrom_eq_iff started, eq_comm]

end Coding

namespace Utf8

/-- `80..BF` -/
def Tail (b : UInt8) : Prop := 0x80 ≤ b.toNat ∧ b.toNat ≤ 0xBF

instance : DecidablePred Tail := fun _ => inferInstanceAs (Decidable (_ ∧ _))

/-- The second byte of a character that begins with `a`: no overlong form, no
surrogate, nothing above U+10FFFF. -/
def Second (a b : UInt8) : Prop :=
  (if a = 0xE0 then 0xA0 else if a = 0xF0 then 0x90 else 0x80) ≤ b.toNat ∧
    b.toNat ≤ if a = 0xED then 0x9F else if a = 0xF4 then 0x8F else 0xBF

instance (a : UInt8) : DecidablePred (Second a) := fun _ => inferInstanceAs (Decidable (_ ∧ _))

/-- The low six bits of a continuation byte. -/
def low (b : UInt8) : Nat := b.toNat - 0x80

def next : List UInt8 → UInt8 → Option (Option Char)
  | [], b =>
    if b.toNat ≤ 0x7F then some (some (Char.ofNat b.toNat))
    else if 0xC2 ≤ b.toNat ∧ b.toNat ≤ 0xF4 then some none
    else none
  | [a], b =>
    if Second a b then
      if a.toNat ≤ 0xDF then some (some (Char.ofNat ((a.toNat - 0xC0) * 0x40 + low b)))
      else some none
    else none
  | [a, b], c =>
    if Tail c then
      if a.toNat ≤ 0xEF then
        some (some (Char.ofNat ((a.toNat - 0xE0) * 0x1000 + low b * 0x40 + low c)))
      else some none
    else none
  | [a, b, c], d =>
    if Tail d then
      some (some (Char.ofNat
        ((a.toNat - 0xF0) * 0x40000 + low b * 0x1000 + low c * 0x40 + low d)))
    else none
  | _, _ => none

theorem tail_of_next {q : List UInt8} {b : UInt8} (started : q ≠ []) (h : next q b ≠ none) :
    Tail b := by
  match q with
  | [] => exact absurd rfl started
  | [a] =>
    have second : Second a b := by
      by_contra not
      exact h (if_neg not)
    obtain ⟨low, high⟩ := second
    unfold Tail
    split_ifs at low high <;> omega
  | [a, b'] =>
    by_contra not
    exact h (if_neg not)
  | [a, b', c] =>
    by_contra not
    exact h (if_neg not)
  | a :: b' :: c :: d :: rest => exact absurd rfl h

/-- UTF-8 with U+FFFD for what is invalid or incomplete. -/
def coding : Coding UInt8 Char where
  next := next
  replacement := Char.ofNat 0xFFFD
  separate := by
    intro q b started h
    obtain ⟨low, high⟩ := tail_of_next started h
    have notAscii : ¬b.toNat ≤ 0x7F := by omega
    have notLead : ¬(0xC2 ≤ b.toNat ∧ b.toNat ≤ 0xF4) := by omega
    rw [next, if_neg notAscii, if_neg notLead]

/-- `bytes.decode("utf-8", errors="replace")` -/
def decode (bytes : List UInt8) : String := String.ofList (coding.decode bytes)

example : decode [0x61, 0xE4, 0xB8, 0xAD, 0xF0, 0x9F, 0x41] = "a中\uFFFDA" := by decide

end Utf8
end TrajProxy
