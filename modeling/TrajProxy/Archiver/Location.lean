import TrajProxy.Library.Base64
import TrajProxy.Library.Separator
import TrajProxy.Library.Substring

/-! Where the object storages of the archiver put a file, and which object they look
for when they are given the location that `upload` returned or the relative key.
The CSB gateway is addressed with the encoded key; a request that gets no answer is
left out, since it does not change which object was meant. -/

namespace TrajProxy.Archiver

/-- `prefix.rstrip("/") + "/" if prefix else ""` -/
def keyPrefix (configured : String) : String :=
  if configured = "" then "" else Text.rstripChar '/' configured ++ "/"

structure Object where
  bucket : String
  key : String
  deriving DecidableEq

/-- `MAX_RETRIES` -/
def maxRetries : Nat := 3

/-- What became of one PUT. -/
inductive PutResult
  | status (code : Nat) (text : String)
  | raised (message : String)

structure CSBStorage where
  bucket : String
  keyPrefix : String
  fileServer : String
  vendor : String
  region : String
  appToken : String

namespace CSBStorage

/-- `CSBStorage.__init__` after the endpoint was resolved. -/
def init (bucket configured fileServer vendor region appToken : String) : CSBStorage :=
  ⟨bucket, Archiver.keyPrefix configured, fileServer, vendor, region, appToken⟩

variable (s : CSBStorage)

/-- `base64.urlsafe_b64encode(key.encode("utf-8")).decode("utf-8")` -/
def encodeKey (key : String) : String :=
  String.ofList (Base64.encode key.toByteArray.data.toList)

def buildUploadUrl (encodedKey : String) : String :=
  s.fileServer ++ "/rest/boto3/s3/" ++ s.vendor ++ "/" ++ s.region ++ "/" ++ s.appToken ++ "/" ++
    s.bucket ++ "/" ++ encodedKey

def metadataUrl (encodedKey : String) : String :=
  s.fileServer ++ "/rest/boto3/s3/object/metadata?vendor=" ++ s.vendor ++ "&region=" ++ s.region ++
    "&bucketid=" ++ s.bucket ++ "&apptoken=" ++ s.appToken ++ "&objectkey=" ++ encodedKey

/-- The loop over the attempts. -/
def attempt (location fileName : String) : List PutResult → String → Except String String
  | [], lastError =>
    .error ("上传失败（已重试 " ++ toString maxRetries ++ " 次）: " ++ fileName ++ " → " ++ lastError)
  | .status code text :: later, _ =>
    if code = 200 then .ok location
    else attempt location fileName later
      ("HTTP " ++ toString code ++ ": " ++ String.ofList (text.toList.take 200))
  | .raised message :: later, _ => attempt location fileName later message

/-- `upload`: the key it puts the file under and the location it returns. -/
def upload (fileName : String) (results : List PutResult) (key : String) :
    String × Except String String :=
  let fullKey := s.keyPrefix ++ key
  (encodeKey fullKey,
    attempt ("csb://" ++ s.bucket ++ "/" ++ fullKey) fileName (results.take maxRetries) "None")

/-- `key.split("://", 1)[-1] if "://" in key else f"{self.prefix}{key}"` -/
def statedKey (key : String) : String :=
  if Text.contains key "://" then (Text.partition key "://").2.2 else s.keyPrefix ++ key

/-- The key that `download` asks for. -/
def download (key : String) : String :=
  let fullKey := s.statedKey key
  encodeKey
    (if Text.startsWith fullKey (s.bucket ++ "/") then
      Text.dropFirst fullKey (s.bucket.length + 1)
    else if Text.startsWith fullKey s.keyPrefix then fullKey
    else s.keyPrefix ++ key)

/-- The key that `exists` asks for. -/
def existsKey (key : String) : String :=
  let fullKey := s.statedKey key
  encodeKey
    (if Text.startsWith fullKey (s.bucket ++ "/") then
      Text.dropFirst fullKey (s.bucket.length + 1)
    else fullKey)

end CSBStorage

structure S3Storage where
  bucket : String
  keyPrefix : String

namespace S3Storage

/-- `S3Storage.__init__`, without the client. -/
def init (bucket configured : String) : S3Storage := ⟨bucket, Archiver.keyPrefix configured⟩

variable (s : S3Storage)

/-- `upload`: the object it writes and the URI it returns, unless the client raised. -/
def upload (raised : Option String) (key : String) : Object × Except String String :=
  let fullKey := s.keyPrefix ++ key
  (⟨s.bucket, fullKey⟩,
    match raised with
    | some message => .error message
    | none => .ok ("s3://" ++ s.bucket ++ "/" ++ fullKey))

/-- `_resolve_key` -/
def resolveKey (key : String) : Object :=
  if Text.startsWith key "s3://" then
    match Text.splitOnce '/' (Text.dropFirst key 5) with
    | some (bucket, fullKey) => ⟨bucket, fullKey⟩
    | none => ⟨Text.dropFirst key 5, ""⟩
  else ⟨s.bucket, s.keyPrefix ++ key⟩

end S3Storage

/-- What the archiver uses of a storage: the object a file goes to and the location
`upload` returns, and the objects that `download` and `exists` look for. -/
structure Storage (answers : Type) where
  upload : answers → String → Object × Except String String
  download : String → Object
  exists_ : String → Object

def CSBStorage.storage (s : CSBStorage) : Storage (String × List PutResult) where
  upload answers key :=
    let put := s.upload answers.1 answers.2 key
    (⟨s.bucket, put.1⟩, put.2)
  download key := ⟨s.bucket, s.download key⟩
  exists_ key := ⟨s.bucket, s.existsKey key⟩

def S3Storage.storage (s : S3Storage) : Storage (Option String) where
  upload := s.upload
  download := s.resolveKey
  exists_ := s.resolveKey

/-- After a successful upload both the location and the relative key lead to the
object, and the locations of other keys to others. -/
structure Storage.LeadsBack {answers : Type} (S : Storage answers) (key : String) : Prop where
  location : ∀ a location, (S.upload a key).2 = .ok location →
    S.download location = (S.upload a key).1 ∧ S.exists_ location = (S.upload a key).1
  relative : ∀ a location, (S.upload a key).2 = .ok location →
    S.download key = (S.upload a key).1 ∧ S.exists_ key = (S.upload a key).1
  distinct : ∀ a location b other location', (S.upload a key).2 = .ok location →
    (S.upload b other).2 = .ok location' → other ≠ key →
      S.download location' ≠ S.download location ∧ S.exists_ location' ≠ S.exists_ location

section CSB

variable {s : CSBStorage} {key : String}

theorem encodeKey_injective : Function.Injective CSBStorage.encodeKey := by
  intro key other same
  have bytes := Base64.encode_injective (String.ofList_injective same)
  apply String.toByteArray_inj.mp
  exact ByteArray.ext (Array.toList_inj.mp bytes)

theorem attempt_eq_ok {location fileName lastError returned : String} {results : List PutResult}
    (done : CSBStorage.attempt location fileName results lastError = .ok returned) :
    returned = location := by
  induction results generalizing lastError with
  | nil => nomatch done
  | cons result results ih =>
    cases result with
    | raised message => exact ih done
    | status code text =>
      rw [CSBStorage.attempt] at done
      split_ifs at done
      · exact (Except.ok.inj done).symm
      · exact ih done

theorem scheme_tag : Substring.Tag "://".toList := ⟨':', ['/', '/'], by decide, by decide⟩

theorem statedKey_location (fullKey : String) :
    s.statedKey ("csb://" ++ s.bucket ++ "/" ++ fullKey) = s.bucket ++ "/" ++ fullKey := by
  have clear : ¬"://".toList <:+: "csb".toList := by decide
  have text : ("csb://" ++ s.bucket ++ "/" ++ fullKey).toList =
      "csb".toList ++ ("://".toList ++ (s.bucket ++ "/" ++ fullKey).toList) := by
    simp [String.toList_append]
  rw [CSBStorage.statedKey, Text.contains_of_tag scheme_tag clear text, if_pos rfl,
    Text.partition_of_tag scheme_tag clear text]
  exact String.ofList_toList

theorem strip_bucket (fullKey : String) :
    Text.dropFirst (s.bucket ++ "/" ++ fullKey) (s.bucket.length + 1) = fullKey := by
  have length : (s.bucket ++ "/").length = s.bucket.length + 1 := String.length_append _ _
  rw [← length]
  exact Text.dropFirst_append _ _

/-- A location always leads back. -/
theorem csb_location (fullKey : String) :
    s.download ("csb://" ++ s.bucket ++ "/" ++ fullKey) = CSBStorage.encodeKey fullKey ∧
      s.existsKey ("csb://" ++ s.bucket ++ "/" ++ fullKey) = CSBStorage.encodeKey fullKey := by
  have starts : Text.startsWith (s.bucket ++ "/" ++ fullKey) (s.bucket ++ "/") = true :=
    Text.startsWith_append _ _
  unfold CSBStorage.download CSBStorage.existsKey
  dsimp only
  rw [statedKey_location]
  constructor
  · rw [if_pos starts, strip_bucket]
  · rw [if_pos starts, strip_bucket]

/-- A relative key that neither has a scheme nor makes a full key that starts with the
bucket. -/
def CSBStorage.Addressable (s : CSBStorage) (key : String) : Prop :=
  Text.contains key "://" = false ∧
    Text.startsWith (s.keyPrefix ++ key) (s.bucket ++ "/") = false

theorem existsKey_iff :
    s.existsKey key = CSBStorage.encodeKey (s.keyPrefix ++ key) ↔ s.Addressable key := by
  unfold CSBStorage.existsKey CSBStorage.statedKey CSBStorage.Addressable
  rw [encodeKey_injective.eq_iff]
  have total : (s.keyPrefix ++ key).length = s.keyPrefix.length + key.length :=
    String.length_append _ _
  cases scheme : Text.contains key "://" with
  | true =>
    refine iff_of_false (fun same => ?_) fun both => Bool.noConfusion both.1
    have shorter := Text.length_partition_lt scheme (by decide)
    have lengths := congrArg String.length same
    rw [if_pos rfl] at lengths
    split_ifs at lengths
    · have le := Text.length_dropFirst_le (Text.partition key "://").2.2 (s.bucket.length + 1)
      omega
    · omega
  | false =>
    rw [if_neg Bool.false_ne_true, and_iff_right rfl]
    cases starts : Text.startsWith (s.keyPrefix ++ key) (s.bucket ++ "/") with
    | true =>
      refine iff_of_false (fun same => ?_) Bool.noConfusion
      have lengths := congrArg String.length (Text.append_dropFirst starts)
      have slash : (s.bucket ++ "/").length = s.bucket.length + 1 := String.length_append _ _
      rw [if_pos rfl] at same
      rw [String.length_append, slash, same] at lengths
      omega
    | false => exact iff_of_true rfl rfl

theorem download_of_addressable (addressable : s.Addressable key) :
    s.download key = CSBStorage.encodeKey (s.keyPrefix ++ key) := by
  have starts : Text.startsWith (s.keyPrefix ++ key) s.keyPrefix = true :=
    Text.startsWith_append _ _
  unfold CSBStorage.download CSBStorage.statedKey
  dsimp only
  rw [addressable.1, if_neg Bool.false_ne_true, addressable.2, if_neg Bool.false_ne_true,
    if_pos starts]

theorem csb_leadsBack_iff (s : CSBStorage) (key : String) :
    s.storage.LeadsBack key ↔ s.Addressable key := by
  have returned {answers : String × List PutResult} {key location : String}
      (done : (s.storage.upload answers key).2 = .ok location) :
      location = "csb://" ++ s.bucket ++ "/" ++ (s.keyPrefix ++ key) := attempt_eq_ok done
  constructor
  · intro leadsBack
    have done := (leadsBack.relative ("", [.status 200 ""]) _ rfl).2
    exact existsKey_iff.mp (congrArg Object.key done)
  · intro addressable
    refine ⟨?_, ?_, ?_⟩
    · intro answers location done
      obtain rfl := returned done
      obtain ⟨download, exists_⟩ := csb_location (s := s) (s.keyPrefix ++ key)
      exact ⟨congrArg (Object.mk s.bucket) download, congrArg (Object.mk s.bucket) exists_⟩
    · intro answers location done
      exact ⟨congrArg (Object.mk s.bucket) (download_of_addressable addressable),
        congrArg (Object.mk s.bucket) (existsKey_iff.mpr addressable)⟩
    · intro answers location answers' other location' done done' ne
      obtain rfl := returned done
      obtain rfl := returned done'
      obtain ⟨download, exists_⟩ := csb_location (s := s) (s.keyPrefix ++ key)
      obtain ⟨download', exists'⟩ := csb_location (s := s) (s.keyPrefix ++ other)
      have keys : CSBStorage.encodeKey (s.keyPrefix ++ other) ≠
          CSBStorage.encodeKey (s.keyPrefix ++ key) := fun same =>
        ne (String.append_right_inj _ |>.mp (encodeKey_injective same))
      constructor
      · intro same
        have there := congrArg Object.key same
        exact keys (download'.symm.trans (there.trans download))
      · intro same
        have there := congrArg Object.key same
        exact keys (exists'.symm.trans (there.trans exists_))

end CSB

section S3

variable {s : S3Storage} {key : String}

/-- A bucket without a slash, and a relative key that is no URI. -/
def S3Storage.Addressable (s : S3Storage) (key : String) : Prop :=
  '/' ∉ s.bucket.toList ∧ Text.startsWith key "s3://" = false

theorem resolveKey_uri (path : String) :
    s.resolveKey ("s3://" ++ path) =
      match Text.splitOnce '/' path with
      | some (bucket, fullKey) => ⟨bucket, fullKey⟩
      | none => ⟨path, ""⟩ := by
  have rest : Text.dropFirst ("s3://" ++ path) 5 = path := Text.dropFirst_append "s3://" path
  rw [S3Storage.resolveKey, if_pos (Text.startsWith_append _ _), rest]

theorem toList_path (bucket fullKey : String) :
    (bucket ++ ("/" ++ fullKey)).toList = bucket.toList ++ '/' :: fullKey.toList := by
  simp [String.toList_append]

theorem resolveKey_location (plain : '/' ∉ s.bucket.toList) (fullKey : String) :
    s.resolveKey ("s3://" ++ s.bucket ++ "/" ++ fullKey) = ⟨s.bucket, fullKey⟩ := by
  rw [String.append_assoc, String.append_assoc, resolveKey_uri,
    Text.splitOnce_join plain (toList_path s.bucket fullKey)]

/-- The bucket of a URI ends at the first slash. -/
theorem resolveKey_location_ne (slash : '/' ∈ s.bucket.toList) (fullKey : String) :
    s.resolveKey ("s3://" ++ s.bucket ++ "/" ++ fullKey) ≠ ⟨s.bucket, fullKey⟩ := by
  rw [String.append_assoc, String.append_assoc, resolveKey_uri]
  cases split : Text.splitOnce '/' (s.bucket ++ ("/" ++ fullKey)) with
  | none =>
    have fresh := Text.splitOnce_eq_none_iff.mp split
    rw [toList_path] at fresh
    exact absurd (List.mem_append_left _ slash) fresh
  | some parts =>
    intro same
    have bucket : parts.1 = s.bucket := congrArg Object.bucket same
    exact (Text.splitOnce_eq_some split).2 (bucket ▸ slash)

theorem length_resolveKey_lt (starts : Text.startsWith key "s3://" = true) :
    (s.resolveKey key).key.length < key.length := by
  have whole := Text.append_dropFirst starts
  generalize Text.dropFirst key "s3://".length = path at whole
  obtain rfl := whole
  have total : ("s3://" ++ path).length = 5 + path.length := String.length_append _ _
  rw [resolveKey_uri, total]
  cases split : Text.splitOnce '/' path with
  | none =>
    have nothing : "".length = 0 := rfl
    dsimp only
    rw [nothing]
    omega
  | some parts =>
    have lengths := congrArg List.length (Text.splitOnce_eq_some split).1
    rw [List.length_append, List.length_cons] at lengths
    simp only [String.length_toList] at lengths
    dsimp only
    omega

theorem s3_leadsBack_iff (s : S3Storage) (key : String) :
    s.storage.LeadsBack key ↔ s.Addressable key := by
  have returned {raised : Option String} {key location : String}
      (done : (s.storage.upload raised key).2 = .ok location) :
      location = "s3://" ++ s.bucket ++ "/" ++ (s.keyPrefix ++ key) := by
    cases raised with
    | none => exact (Except.ok.inj done).symm
    | some message => nomatch done
  constructor
  · intro leadsBack
    constructor
    · intro slash
      have there := (leadsBack.location none ("s3://" ++ s.bucket ++ "/" ++ (s.keyPrefix ++ key))
        rfl).1
      exact resolveKey_location_ne slash (s.keyPrefix ++ key) there
    · cases starts : Text.startsWith key "s3://" with
      | false => rfl
      | true =>
        have shorter := length_resolveKey_lt (s := s) starts
        have there : s.resolveKey key = ⟨s.bucket, s.keyPrefix ++ key⟩ :=
          (leadsBack.relative none _ rfl).1
        have total : (s.keyPrefix ++ key).length = s.keyPrefix.length + key.length :=
          String.length_append _ _
        rw [there] at shorter
        dsimp only at shorter
        omega
  · rintro ⟨plain, relative⟩
    refine ⟨?_, ?_, ?_⟩
    · intro raised location done
      have there : s.resolveKey location = ⟨s.bucket, s.keyPrefix ++ key⟩ := by
        rw [returned done]
        exact resolveKey_location plain _
      exact ⟨there, there⟩
    · intro raised location done
      have there : s.resolveKey key = ⟨s.bucket, s.keyPrefix ++ key⟩ := by
        rw [S3Storage.resolveKey, relative, if_neg Bool.false_ne_true]
      exact ⟨there, there⟩
    · intro raised location raised' other location' done done' ne
      have objects : s.resolveKey location' ≠ s.resolveKey location := by
        rw [returned done, returned done', resolveKey_location plain, resolveKey_location plain]
        intro same
        have keys : s.keyPrefix ++ other = s.keyPrefix ++ key := congrArg Object.key same
        exact ne ((String.append_right_inj _).mp keys)
      exact ⟨objects, objects⟩

end S3

/-- When locations and relative keys lead back, for both storages. -/
theorem storage_leadsBack_iff (bucket configured fileServer vendor region appToken key : String) :
    ((CSBStorage.init bucket configured fileServer vendor region appToken).storage.LeadsBack key ↔
      (CSBStorage.init bucket configured fileServer vendor region appToken).Addressable key) ∧
    ((S3Storage.init bucket configured).storage.LeadsBack key ↔
      (S3Storage.init bucket configured).Addressable key) :=
  ⟨csb_leadsBack_iff _ key, s3_leadsBack_iff _ key⟩

/-- A prefix that repeats the bucket is taken for the bucket. -/
theorem repeated_bucket_lost :
    ¬∀ bucket configured fileServer vendor region appToken key : String,
      (CSBStorage.init bucket configured fileServer vendor region appToken).storage.LeadsBack
        key := by
  intro all
  have addressable := (csb_leadsBack_iff _ _).mp
    (all "archives" "archives" "" "" "" "" "run/session.jsonl")
  exact absurd addressable.2 (by decide +kernel)

end TrajProxy.Archiver
