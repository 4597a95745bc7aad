import TrajProxy.Store.ReferencesSafety
import TrajProxy.Library.Path
import TrajProxy.Library.OrderedDict

/-! Where `LocalDiskBlobStorage` keeps the blob of a key. A sanitised segment is
one part of the path or none (it may be `.`), and never `..`; the last one ends
in `.json`, so the blob is a file below the prefix whatever the ids are. -/

namespace TrajProxy.Store
open Text TrajProxy.Path

theorem replaceDots_ne_dots (l : List Char) : replaceDots l ≠ ['.', '.'] := by
  intro same
  unfold replaceDots at same
  split at same
  · cases same
  · rename_i c rest other
    obtain ⟨rfl, second⟩ := List.cons.inj same
    unfold replaceDots at second
    split at second
    · cases second
    · rename_i d rest' _
      obtain ⟨rfl, -⟩ := List.cons.inj second
      exact other rest' rfl rfl
    · cases second
  · cases same

theorem sanitizePathSegment_ne_dots (segment : String) : sanitizePathSegment segment ≠ ".." := by
  unfold sanitizePathSegment
  dsimp only
  split_ifs
  · decide
  · intro same
    have chars := congrArg String.toList same
    rw [String.toList_ofList] at chars
    exact replaceDots_ne_dots _ chars

theorem plain_of_mem_kept_sanitized {segment part : String}
    (mem : part ∈ kept (sanitizePathSegment segment)) : Plain part := by
  refine plain_of_mem_kept mem ?_
  rw [kept_of_notMem (slash_notMem_sanitizePathSegment segment)] at mem
  split_ifs at mem
  · cases mem
  · rw [List.mem_singleton.mp mem]
    exact sanitizePathSegment_ne_dots segment

/-- The last part of a key. -/
def fileName (requestId : String) : String := sanitizePathSegment requestId ++ ".json"

theorem length_fileName (requestId : String) : 5 ≤ (fileName requestId).toList.length := by
  unfold fileName
  rw [String.toList_append, List.length_append]
  exact Nat.le_add_left 5 _

theorem plain_fileName (requestId : String) : Plain (fileName requestId) := by
  have long := length_fileName requestId
  refine ⟨?_, ?_, ?_⟩ <;>
    · intro same
      rw [same] at long
      exact absurd long (by decide)

theorem kept_fileName (requestId : String) : kept (fileName requestId) = [fileName requestId] := by
  have noSlash : '/' ∉ (fileName requestId).toList := by
    unfold fileName
    rw [String.toList_append, List.mem_append, not_or]
    exact ⟨slash_notMem_sanitizePathSegment requestId, by decide⟩
  obtain ⟨nonempty, notDot, -⟩ := plain_fileName requestId
  rw [kept_of_notMem noSlash, if_neg (not_or.mpr ⟨nonempty, notDot⟩)]

abbrev Disk := OrderedDict (List String) (List UInt8)

namespace LocalDiskBlobStorage

/-- `self._root / key`, with `.` and `..` resolved. -/
def dest (root : List String) (key : String) : List String := normalise (joinPath root key)

def put (root : List String) (key : String) (data : List UInt8) (disk : Disk) : Disk :=
  disk.setItem (dest root key) data

/-- The bytes of the stream, `none` for a file that does not open. -/
def openStream (root : List String) (key : String) (disk : Disk) : Option (List UInt8) :=
  disk.get (dest root key)

/-- `missing_ok=True` -/
def delete (root : List String) (key : String) (disk : Disk) : Disk := disk.pop (dest root key)

end LocalDiskBlobStorage

/-- A JSON file strictly below a directory. -/
def Inside (dir path : List String) : Prop :=
  ∃ between file, path = dir ++ between ++ [file] ∧ ".json".toList <:+ file.toList

/-- The prefix of the configuration: not empty, not absolute, and without `..`. -/
structure PlainRelative (blobKeyPrefix : String) : Prop extends Relative blobKeyPrefix where
  plain : ".." ∉ splitSlash blobKeyPrefix

def storeDir (cfg : Config) (root : List String) : List String :=
  normalise (joinPath root cfg.blobKeyPrefix)

/-- A blob key stays inside the store, and so does what is done under it. -/
structure StaysInside (cfg : Config) (root : List String) (key : String) : Prop where
  store : normalise root <+: storeDir cfg root
  file : Inside (storeDir cfg root) (LocalDiskBlobStorage.dest root key)
  put : ∀ data disk path, ¬Inside (storeDir cfg root) path →
    (LocalDiskBlobStorage.put root key data disk).get path = disk.get path
  openStream : ∀ disk disk' : Disk,
    (∀ path, Inside (storeDir cfg root) path → disk.get path = disk'.get path) →
    LocalDiskBlobStorage.openStream root key disk = LocalDiskBlobStorage.openStream root key disk'
  delete : ∀ disk path, ¬Inside (storeDir cfg root) path →
    (LocalDiskBlobStorage.delete root key disk).get path = disk.get path

variable {cfg : Config} (runId sessionId : Option String) (requestId : String)

theorem dest_makeBlobKey (h : Relative cfg.blobKeyPrefix) (root : List String) :
    LocalDiskBlobStorage.dest root (makeBlobKey cfg runId sessionId requestId) =
      storeDir cfg root ++ (kept (sanitizePathSegment (orUnknown runId)) ++
        kept (sanitizePathSegment (orUnknown sessionId))) ++ [fileName requestId] := by
  have key : makeBlobKey cfg runId sessionId requestId =
      cfg.blobKeyPrefix ++ "/" ++ (sanitizePathSegment (orUnknown runId) ++ "/" ++
        (sanitizePathSegment (orUnknown sessionId) ++ "/" ++ fileName requestId)) := by
    unfold makeBlobKey fileName
    simp only [String.append_assoc]
  have plain : ∀ part ∈ kept (sanitizePathSegment (orUnknown runId)) ++
      (kept (sanitizePathSegment (orUnknown sessionId)) ++ [fileName requestId]), Plain part := by
    intro part mem
    simp only [List.mem_append, List.mem_singleton] at mem
    obtain run | session | rfl := mem
    · exact plain_of_mem_kept_sanitized run
    · exact plain_of_mem_kept_sanitized session
    · exact plain_fileName requestId
  unfold LocalDiskBlobStorage.dest storeDir
  rw [key, joinPath_append h, kept_append, kept_append, kept_fileName, normalise_append _ plain]
  simp only [List.append_assoc]

/-- Every key names a JSON file strictly below the prefix, which is below the
root; nothing else on the disk is written, read or deleted under it. -/
theorem makeBlobKey_staysInside (plain : PlainRelative cfg.blobKeyPrefix) (root : List String) :
    StaysInside cfg root (makeBlobKey cfg runId sessionId requestId) := by
  have file : Inside (storeDir cfg root)
      (LocalDiskBlobStorage.dest root (makeBlobKey cfg runId sessionId requestId)) := by
    refine ⟨_, _, dest_makeBlobKey runId sessionId requestId plain.toRelative root, ?_⟩
    exact ⟨(sanitizePathSegment requestId).toList, (String.toList_append ..).symm⟩
  have other {path : List String} (outside : ¬Inside (storeDir cfg root) path) :
      path ≠ LocalDiskBlobStorage.dest root (makeBlobKey cfg runId sessionId requestId) := by
    rintro rfl
    exact outside file
  refine ⟨?_, file, ?_, ?_, ?_⟩
  · have parts : ∀ part ∈ kept cfg.blobKeyPrefix, Plain part := by
      intro part mem
      refine plain_of_mem_kept mem ?_
      rintro rfl
      exact plain.plain (List.mem_of_mem_filter mem)
    unfold storeDir
    rw [joinPath_relative plain.toRelative, normalise_append root parts]
    exact List.prefix_append ..
  · intro data disk path outside
    exact OrderedDict.get_setItem_ne disk data (other outside)
  · intro disk disk' same
    exact same _ file
  · intro disk path outside
    unfold LocalDiskBlobStorage.delete
    rw [OrderedDict.get_pop, if_neg (other outside)]

theorem makeBlobKey_staysInside_dots :
    StaysInside ⟨"local", "", "", "/data", 24, "route_experts"⟩ ["/", "data"]
      (makeBlobKey ⟨"local", "", "", "/data", 24, "route_experts"⟩ (some "../../etc") (some ".")
        "..\\passwd") :=
  makeBlobKey_staysInside (some "../../etc") (some ".") "..\\passwd"
    ⟨⟨by decide, by decide⟩, by decide⟩ ["/", "data"]

example : LocalDiskBlobStorage.dest ["/", "data"]
    (makeBlobKey ⟨"local", "", "", "/data", 24, "route_experts"⟩ (some "../../etc") (some ".")
      "..\\passwd") = ["/", "data", "route_experts", "____etc", "__passwd.json"] := by decide

end TrajProxy.Store
