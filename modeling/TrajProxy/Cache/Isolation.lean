import TrajProxy.Cache.PrefixSoundness

/-! What the prefix cache of one model sees of the others.
The query for candidates asks for the session alone, since a session belongs to
one model and one run. Where ids of sessions are reused all the same, a record
of another model, tokenizer or run takes part in the search; it makes no
difference unless it is the one the search prefers. -/

namespace TrajProxy.Cache
open Pipeline Text

/-- A row with the columns the query ignores. -/
structure Record extends Row where
  runId : Option String
  model : String
  tokenizerPath : Option String

/-- A TITO request as its pipeline and context know it. -/
structure Caller where
  sessionId : Option String
  runId : Option String
  model : String
  tokenizerPath : Option String

/-- The record was produced by the caller's session under its model, its
tokenizer and its run. -/
def Caller.Own (caller : Caller) (record : Record) : Prop :=
  record.sessionId = caller.sessionId.getD "" ∧ record.runId = caller.runId ∧
    record.model = caller.model ∧ record.tokenizerPath = caller.tokenizerPath

instance (caller : Caller) : DecidablePred caller.Own :=
  fun _ => inferInstanceAs (Decidable (_ ∧ _))

/-- The query returns two columns of the rows of one session. -/
def encodeFor (tok : Tokenizer) (records : List Record) (caller : Caller) (text : String) :
    Encoded :=
  encodeWithCache tok (records.map Record.toRow) caller.sessionId text

def Record.Candidate (sessionId : String) (record : Record) : Prop :=
  record.sessionId = sessionId ∧ record.archived = false ∧
    record.fullConversationText ≠ none ∧ record.fullConversationText ≠ some ""

instance (sessionId : String) : DecidablePred (Record.Candidate sessionId) :=
  fun _ => inferInstanceAs (Decidable (_ ∧ _))

/-- The order of the search. -/
def Record.Before (a b : Record) : Prop := b.tokenCount ≤ a.tokenCount

instance : DecidableRel Record.Before := fun a b => Nat.decLe b.tokenCount a.tokenCount

instance : IsTrans Record Record.Before := ⟨fun _ _ _ ab bc => le_trans bc ab⟩

instance : Std.Total Record.Before := ⟨fun a b => Nat.le_total b.tokenCount a.tokenCount⟩

/-- The record whose row `_find_longest_prefix_match` returns. -/
def preferred (records : List Record) (sessionId text : String) : Option Record :=
  ((records.filter fun record => record.Candidate sessionId).reverse.insertionSort
    Record.Before).find? (·.matchesPrefix text)

/-- The search finds no record, or one of the caller's own. -/
def LandsOnOwn (caller : Caller) (records : List Record) (text : String) : Prop :=
  ∀ record, preferred records (caller.sessionId.getD "") text = some record → caller.Own record

section Stable

variable {α : Type} {r : α → α → Prop} [DecidableRel r]

theorem orderedInsert_of_forall {a : α} {l : List α} (h : ∀ b ∈ l, r a b) :
    l.orderedInsert r a = a :: l := by
  cases l with
  | nil => rfl
  | cons b l => exact List.orderedInsert_cons_of_le r l (h b List.mem_cons_self)

/-- Insertion sort is stable: it sorts a part as if it were all. -/
theorem filter_insertionSort [IsTrans α r] [Std.Total r] (p : α → Bool) (l : List α) :
    (l.insertionSort r).filter p = (l.filter p).insertionSort r := by
  have insert : ∀ (a : α) (l : List α), l.Pairwise r → (l.orderedInsert r a).filter p =
      if p a then (l.filter p).orderedInsert r a else l.filter p := by
    intro a l sorted
    induction l with
    | nil => cases h : p a <;> simp [h]
    | cons b l ih =>
      obtain ⟨first, rest⟩ := List.pairwise_cons.mp sorted
      by_cases le : r a b
      · have all : ∀ c ∈ (b :: l).filter p, r a c := by
          intro c mem
          rcases List.mem_cons.mp (List.mem_of_mem_filter mem) with rfl | later
          · exact le
          · exact IsTrans.trans a b c le (first c later)
        rw [List.orderedInsert_cons_of_le r l le, orderedInsert_of_forall all, List.filter_cons]
      · rw [List.orderedInsert_of_not_le r l le, List.filter_cons, ih rest, List.filter_cons]
        cases hb : p b <;> cases ha : p a <;> simp [le]
  induction l with
  | nil => rfl
  | cons a l ih =>
    rw [List.insertionSort_cons, insert a _ (List.pairwise_insertionSort r l), ih, List.filter_cons]
    cases h : p a <;> simp

/-- What is found first satisfies `p` as well: it is also found among those. -/
theorem find?_filter_of_found {p q : α → Bool} {l : List α}
    (h : ∀ a, l.find? q = some a → p a = true) : (l.filter p).find? q = l.find? q := by
  induction l with
  | nil => rfl
  | cons a l ih =>
    by_cases found : q a = true
    · have own := h a (List.find?_cons_of_pos found)
      rw [List.filter_cons_of_pos own, List.find?_cons_of_pos found, List.find?_cons_of_pos found]
    · rw [List.find?_cons_of_neg found] at h ⊢
      rw [← ih h, List.filter_cons]
      split_ifs
      · rw [List.find?_cons_of_neg found]
      · rfl

end Stable

variable {tok : Tokenizer} {caller : Caller} {records records' : List Record} {text : String}

theorem findLongestPrefixMatch_eq (records : List Record) (sessionId text : String) :
    findLongestPrefixMatch text (getPrefixCandidates (records.map Record.toRow) sessionId) =
      (preferred records sessionId text).map Record.toRow := by
  unfold findLongestPrefixMatch getPrefixCandidates preferred
  rw [List.filter_map, ← List.map_reverse,
    ← List.map_insertionSort Record.Before _ Record.toRow _ fun _ _ _ _ => Iff.rfl, List.find?_map]
  rfl

/-- When the search lands on an own record, the others could be left out. -/
theorem preferred_own (h : LandsOnOwn caller records text) :
    preferred (records.filter caller.Own) (caller.sessionId.getD "") text =
      preferred records (caller.sessionId.getD "") text := by
  have swap : (records.filter caller.Own).filter (Record.Candidate (caller.sessionId.getD "")) =
      (records.filter (Record.Candidate (caller.sessionId.getD ""))).filter caller.Own := by
    rw [List.filter_filter, List.filter_filter]
    simp only [Bool.and_comm]
  have own : ∀ record, preferred records (caller.sessionId.getD "") text = some record →
      decide (caller.Own record) = true := fun record found => decide_eq_true (h record found)
  unfold preferred at own ⊢
  rw [swap, ← List.filter_reverse, ← filter_insertionSort, find?_filter_of_found own]

theorem encodeFor_eq (tok : Tokenizer) (records : List Record) (caller : Caller) (text : String) :
    encodeFor tok records caller text =
      match caller.sessionId.filter (· ≠ "") with
      | none => encodeUncached tok text
      | some _ =>
        match preferred records (caller.sessionId.getD "") text with
        | some record => encodeMatched tok text record.toRow
        | none => encodeUncached tok text := by
  unfold encodeFor encodeWithCache
  cases session : caller.sessionId.filter (· ≠ "") with
  | none => rfl
  | some id =>
    have same : caller.sessionId = some id := (Option.filter_eq_some_iff.mp session).1
    rw [same, Option.getD_some]
    simp only [findLongestPrefixMatch_eq]
    cases preferred records id text <;> rfl

/-- Two states of the tables that agree on the records of the session under its
model, tokenizer and run give the same encoding, if in neither the search lands
on a record of another model, tokenizer or run; and all ids of it are those of an
own record or the tokenizer's. -/
theorem encodeFor_isolated (tok : Tokenizer) (caller : Caller) (records records' : List Record)
    (text : String) (agree : records.filter caller.Own = records'.filter caller.Own)
    (own : LandsOnOwn caller records text) (own' : LandsOnOwn caller records' text) :
    encodeFor tok records caller text = encodeFor tok records' caller text ∧
      (encodeFor tok records caller text = encodeUncached tok text ∨
        ∃ record ∈ records, caller.Own record ∧
          encodeFor tok records caller text = encodeMatched tok text record.toRow) := by
  have same : preferred records (caller.sessionId.getD "") text =
      preferred records' (caller.sessionId.getD "") text := by
    rw [← preferred_own own, ← preferred_own own', agree]
  refine ⟨by rw [encodeFor_eq, encodeFor_eq, same], ?_⟩
  rw [encodeFor_eq]
  cases caller.sessionId.filter (· ≠ "") with
  | none => exact Or.inl rfl
  | some id =>
    cases found : preferred records (caller.sessionId.getD "") text with
    | none => exact Or.inl rfl
    | some record =>
      have mem : record ∈ records := by
        have sorted := List.mem_of_find?_eq_some found
        rw [List.mem_insertionSort, List.mem_reverse] at sorted
        exact List.mem_of_mem_filter sorted
      exact Or.inr ⟨record, mem, own record found, rfl⟩

private def asked : Caller := ⟨some "s", some "run", "m", some "/m"⟩

private def answered : Record :=
  { sessionId := "s", archived := false, fullConversationText := some "a"
    fullConversationTokenIds := some [97], runId := some "run", model := "m"
    tokenizerPath := some "/m" }

/-- A record of another model whose conversation is no prefix of the prompt. -/
private def elsewhere : Record :=
  { answered with fullConversationText := some "x", model := "other" }

theorem encodeFor_isolated_two :
    encodeFor codePoints [answered] asked "ab" =
        encodeFor codePoints [elsewhere, answered] asked "ab" ∧
      (encodeFor codePoints [answered] asked "ab" = encodeUncached codePoints "ab" ∨
        ∃ record ∈ [answered], asked.Own record ∧
          encodeFor codePoints [answered] asked "ab" =
            encodeMatched codePoints "ab" record.toRow) := by
  have found : ∀ record, some answered = some record → asked.Own record := by
    intro record same
    cases same
    decide
  exact encodeFor_isolated codePoints asked [answered] [elsewhere, answered] "ab" rfl found found

/-- A record of another model with the same session id supplies the ids. -/
theorem foreign_ids_sent :
    ¬∀ (tok : Tokenizer) (caller : Caller) (records records' : List Record) (text : String),
      records.filter caller.Own = records'.filter caller.Own →
        (encodeFor tok records caller text).tokenIds =
          (encodeFor tok records' caller text).tokenIds := by
  intro all
  let foreign : Record :=
    { answered with model := "other", fullConversationTokenIds := some [7] }
  have same := all codePoints asked [] [foreign] "a" rfl
  revert same
  decide

end TrajProxy.Cache
