import TrajProxy.Library.Text
import Mathlib.Data.List.Forall2

/-! Names under which the archiver files one session: the temp file of
`SessionArchiveWorker.archive` and the key handed to `storage.upload`.
Both are built from `_safe_path` of the run and of the displayed session, a
lossy encoding. `Conflated` says on the ids alone when it loses the difference
between two sessions. -/

namespace TrajProxy.Archiver
open Text

/-- `_NULL_SESSION_DIR` -/
def nullSessionDir : String := "_null_session"

/-- `_safe_path` -/
def safePath (segment : String) : String :=
  replaceChar (replaceChar segment ',' '_') '/' '_'

/-- `session_id or _NULL_SESSION_DIR` -/
def display : Option String → String
  | none => nullSessionDir
  | some session => if session = "" then nullSessionDir else session

def suffix (compress : Bool) : String := if compress then ".jsonl.gz" else ".jsonl"

/-- One `archive(run_id, session_id)` call of a cycle. `_find_expired_runs`
selects no run whose id is empty. -/
structure ArchiveTask where
  runId : String
  sessionId : Option String
  runId_ne : runId ≠ ""
  deriving DecidableEq

namespace ArchiveTask

def safeRun (t : ArchiveTask) : String := safePath t.runId
def safeSession (t : ArchiveTask) : String := safePath (display t.sessionId)

def fileName (compress : Bool) (t : ArchiveTask) : String := t.safeSession ++ suffix compress

/-- `self.temp_root / safe_run / f"{safe_session}{suffix}"` -/
def tempPath (tempRoot : List String) (compress : Bool) (t : ArchiveTask) : List String :=
  joinPath (joinPath tempRoot t.safeRun) (t.fileName compress)

/-- `f"{safe_run}/{safe_session}{suffix}"` -/
def storageKey (compress : Bool) (t : ArchiveTask) : String :=
  t.safeRun ++ "/" ++ t.fileName compress

end ArchiveTask

/-- `_safe_path` writes both characters the same way. -/
def SameSafeChar (c d : Char) : Prop :=
  c = d ∨ c ∈ [',', '/', '_'] ∧ d ∈ [',', '/', '_']

instance : DecidableRel SameSafeChar := fun _ _ => inferInstanceAs (Decidable (_ ∨ _))

def SameSafeText (s t : String) : Prop := List.Forall₂ SameSafeChar s.toList t.toList

/-- Two sessions whose ids differ at most in which of `,`, `/` and `_` stand
where, a missing or empty session id counting as `_null_session`. -/
def Conflated (t u : ArchiveTask) : Prop :=
  SameSafeText t.runId u.runId ∧
    SameSafeText (display t.sessionId) (display u.sessionId)

def safeChar (c : Char) : Char :=
  if (if c = ',' then '_' else c) = '/' then '_' else if c = ',' then '_' else c

theorem toList_safePath (s : String) : (safePath s).toList = s.toList.map safeChar := by
  simp [safePath, Function.comp_def, safeChar]

theorem safeChar_eq_iff (c d : Char) : safeChar c = safeChar d ↔ SameSafeChar c d := by
  have fixed : ∀ c, c ∉ [',', '/', '_'] → safeChar c = c := by
    intro c h
    simp only [List.mem_cons, List.not_mem_nil, or_false, not_or] at h
    simp [safeChar, h]
  have merged : ∀ c, c ∈ [',', '/', '_'] → safeChar c = '_' := by
    intro c h
    simp only [List.mem_cons, List.not_mem_nil, or_false] at h
    rcases h with rfl | rfl | rfl <;> rfl
  have kept : ∀ c, c ∉ [',', '/', '_'] → c ≠ '_' := by
    rintro c h rfl
    exact h (by simp)
  unfold SameSafeChar
  by_cases hc : c ∈ [',', '/', '_'] <;> by_cases hd : d ∈ [',', '/', '_']
  · simp [merged c hc, merged d hd, hc, hd]
  · rw [merged c hc, fixed d hd]
    refine ⟨?_, ?_⟩
    · exact fun h => absurd h.symm (kept d hd)
    · rintro (rfl | ⟨-, h⟩)
      · exact absurd hc hd
      · exact absurd h hd
  · rw [fixed c hc, merged d hd]
    refine ⟨?_, ?_⟩
    · exact fun h => absurd h (kept c hc)
    · rintro (rfl | ⟨h, -⟩)
      · exact absurd hd hc
      · exact absurd h hc
  · simp [fixed c hc, fixed d hd, hc]

theorem safePath_eq_iff (s t : String) : safePath s = safePath t ↔ SameSafeText s t := by
  rw [← String.toList_inj, toList_safePath, toList_safePath, SameSafeText]
  generalize s.toList = l
  generalize t.toList = m
  induction l generalizing m with
  | nil => cases m <;> simp
  | cons c l ih =>
    cases m with
    | nil => simp
    | cons d m => simp [safeChar_eq_iff, ih]

theorem slash_notMem_safePath (s : String) : '/' ∉ (safePath s).toList := by
  rw [toList_safePath, List.mem_map]
  rintro ⟨c, -, h⟩
  unfold safeChar at h
  split_ifs at h <;> simp_all

theorem safePath_ne_empty {s : String} (h : s ≠ "") : safePath s ≠ "" := by
  intro empty
  have nil : (safePath s).toList = [] := by rw [empty]; rfl
  rw [toList_safePath, List.map_eq_nil_iff] at nil
  exact h (String.toList_inj.mp nil)

theorem slash_notMem_fileName (compress : Bool) (t : ArchiveTask) :
    '/' ∉ (t.fileName compress).toList := by
  have dir := slash_notMem_safePath (display t.sessionId)
  cases compress <;> simp [ArchiveTask.fileName, ArchiveTask.safeSession, suffix, dir]

theorem fileName_length (compress : Bool) (t : ArchiveTask) :
    1 < (t.fileName compress).toList.length := by
  cases compress <;> simp [ArchiveTask.fileName, suffix]

theorem fileName_eq_iff (compress : Bool) (t u : ArchiveTask) :
    t.fileName compress = u.fileName compress ↔ t.safeSession = u.safeSession := by
  rw [← String.toList_inj, ← String.toList_inj]
  simp [ArchiveTask.fileName]

/-- pathlib drops a run segment `.`; every other one is a directory. -/
theorem tempPath_eq (tempRoot : List String) (compress : Bool) (t : ArchiveTask) :
    t.tempPath tempRoot compress =
      tempRoot ++ ((if t.safeRun = "." then [] else [t.safeRun]) ++ [t.fileName compress]) := by
  have long := fileName_length compress t
  have named : ¬(t.fileName compress = "" ∨ t.fileName compress = ".") := by
    rintro (h | h) <;> simp [h] at long
  have run : t.safeRun ≠ "" := safePath_ne_empty t.runId_ne
  rw [ArchiveTask.tempPath, joinPath_of_notMem (slash_notMem_fileName compress t),
    if_neg named, ArchiveTask.safeRun, joinPath_of_notMem (slash_notMem_safePath t.runId)]
  simp only [ArchiveTask.safeRun] at run
  simp [run]

theorem conflated_iff (t u : ArchiveTask) :
    Conflated t u ↔ t.safeRun = u.safeRun ∧ t.safeSession = u.safeSession := by
  rw [Conflated, ← safePath_eq_iff, ← safePath_eq_iff]
  rfl

theorem tempPath_eq_iff (tempRoot : List String) (compress : Bool) (t u : ArchiveTask) :
    t.tempPath tempRoot compress = u.tempPath tempRoot compress ↔ Conflated t u := by
  rw [tempPath_eq, tempPath_eq, List.append_cancel_left_eq, conflated_iff,
    ← fileName_eq_iff compress]
  split_ifs with ht hu hu
  · simp [ht, hu]
  · simp [ht, Ne.symm hu]
  · simp [hu, ht]
  · simp

private theorem append_slash_cancel {a b c d : List Char} (ha : '/' ∉ a) (hb : '/' ∉ b)
    (h : a ++ '/' :: c = b ++ '/' :: d) : a = b ∧ c = d := by
  induction a generalizing b with
  | nil =>
    cases b with
    | nil => simpa using h
    | cons y b =>
      simp only [List.nil_append, List.cons_append, List.cons.injEq] at h
      exact absurd (h.1 ▸ List.mem_cons_self) hb
  | cons x a ih =>
    cases b with
    | nil =>
      simp only [List.nil_append, List.cons_append, List.cons.injEq] at h
      exact absurd (h.1 ▸ List.mem_cons_self) ha
    | cons y b =>
      simp only [List.cons_append, List.cons.injEq] at h
      obtain ⟨rest, tail⟩ := ih (fun m => ha (.tail _ m)) (fun m => hb (.tail _ m)) h.2
      exact ⟨by rw [h.1, rest], tail⟩

theorem storageKey_eq_iff (compress : Bool) (t u : ArchiveTask) :
    t.storageKey compress = u.storageKey compress ↔ Conflated t u := by
  rw [conflated_iff, ← fileName_eq_iff compress]
  refine ⟨?_, ?_⟩
  · intro h
    have chars := congrArg String.toList h
    simp only [ArchiveTask.storageKey, String.toList_append, List.append_assoc] at chars
    have parts := append_slash_cancel (slash_notMem_safePath t.runId)
      (slash_notMem_safePath u.runId) chars
    exact ⟨String.toList_inj.mp parts.1, String.toList_inj.mp parts.2⟩
  · rintro ⟨run, name⟩
    rw [ArchiveTask.storageKey, ArchiveTask.storageKey, run, name]

/-- A cycle files its sessions under distinct temp paths and distinct keys
exactly when no two of them are conflated. -/
theorem names_nodup_iff (tempRoot : List String) (compress : Bool) (tasks : List ArchiveTask) :
    ((tasks.map (·.tempPath tempRoot compress)).Nodup ∧
        (tasks.map (·.storageKey compress)).Nodup) ↔
      tasks.Pairwise fun t u => ¬Conflated t u := by
  simp only [List.Nodup, List.pairwise_map, ne_eq, tempPath_eq_iff, storageKey_eq_iff, and_self]

/-- `a,b` and `a_b` are two sessions of one run with one archive file. -/
theorem names_collide : ¬∀ (tempRoot : List String) (compress : Bool) (tasks : List ArchiveTask),
    tasks.Nodup → (tasks.map (·.tempPath tempRoot compress)).Nodup ∧
      (tasks.map (·.storageKey compress)).Nodup := by
  intro all
  have distinct := (all [] true
    [⟨"run", some "a,b", by decide⟩, ⟨"run", some "a_b", by decide⟩] (by decide)).2
  revert distinct
  decide

end TrajProxy.Archiver
