import Friet.Core
import Mathlib.Logic.Function.Basic

/-!
# Where the files are: `S3StorageBackend`

A file goes to S3, or into the memory of the process when the call to S3 raises; S3 may have
taken a file whose upload raised. Under the address it was given a file is found again as
long as the store it went to answers.
-/

set_option autoImplicit false

namespace Friet.Documents.Storage

abbrev Bytes := List UInt8

/-- `hashlib.sha256(_).hexdigest()`, and what is relied on of a UUID's text: that its digits are
hexadecimal, so that there is no `s` among them. -/
class FileTexts extends Text where
  hexdigest : Bytes → String
  no_s_in_uuidStr : ∀ id, 's' ∉ (uuidStr id).toList

export FileTexts (hexdigest no_s_in_uuidStr)

structure Upload where
  fileBytes : Bytes
  filename : String
  contentType : Option String
  shipmentId : Uuid

structure S3Object where
  body : Bytes
  contentType : String

/-- The objects of the bucket, and `_storage` of the fallback. -/
structure Stores where
  bucket : String → Option S3Object
  storage : String → Option Bytes

def Stores.empty : Stores := ⟨fun _ => none, fun _ => none⟩

/-- How a call of `put_object` ends. -/
inductive Answer where
  | stored
  | refused
  /-- It raises, but the object is there. -/
  | lost
  deriving DecidableEq

def bucketUrl : String := "s3://freightcore-documents/"

def mockContent : Bytes := "FREIGHTCORE_MOCK_FILE_CONTENT".toUTF8.toList

section Backend
variable [FileTexts]

/-- What both stores file the upload under, behind what each puts first. -/
def Upload.name (u : Upload) : String :=
  uuidStr u.shipmentId ++ "/" ++ (String.ofList ((hexdigest u.fileBytes).toList.take 12) ++ "_" ++
    u.filename)

def Upload.s3Key (u : Upload) : String := "shipments/" ++ u.name

def Upload.object (u : Upload) : S3Object :=
  ⟨u.fileBytes, (given u.contentType).getD "application/octet-stream"⟩

def Stores.putObject (u : Upload) (s : Stores) : Stores :=
  { s with bucket := Function.update s.bucket u.s3Key (some u.object) }

/-- `InMemoryStorageBackend.upload`. -/
def fallbackUpload (u : Upload) (s : Stores) : String × Stores :=
  let key := bucketUrl ++ u.name
  (key, { s with storage := Function.update s.storage key (some u.fileBytes) })

def upload (u : Upload) (answer : Answer) (s : Stores) : String × Stores :=
  match answer with
  | .stored => (bucketUrl ++ u.s3Key, s.putObject u)
  | .refused => fallbackUpload u s
  | .lost => fallbackUpload u (s.putObject u)

/-- `InMemoryStorageBackend.retrieve`. -/
def fallbackRetrieve (fileUrl : String) (s : Stores) : Bytes :=
  (s.storage fileUrl).getD mockContent

/-- Whether S3 answers at all; it raises for a key that it does not have. -/
def retrieve (available : Bool) (fileUrl : String) (s : Stores) : Bytes :=
  if available ∧ bucketUrl.toList <+: fileUrl.toList then
    match s.bucket (String.ofList (fileUrl.toList.drop bucketUrl.toList.length)) with
    | some object => object.body
    | none => fallbackRetrieve fileUrl s
  else fallbackRetrieve fileUrl s

/-- Uploads, and restarts of the process. -/
inductive StoreEvent where
  | upload (u : Upload) (answer : Answer)
  | restart

def storeStep (s : Stores) : StoreEvent → Stores
  | .upload u answer => (upload u answer s).2
  | .restart => { s with storage := fun _ => none }

def storeRun (es : List StoreEvent) (s : Stores) : Stores := es.foldl storeStep s

section Addresses
variable {u v : Upload} {s : Stores} {es : List StoreEvent} {e : StoreEvent}

theorem s3Key_ne_name (u v : Upload) : u.s3Key ≠ v.name := by
  intro heq
  have hlist := congrArg String.toList heq
  have hno := no_s_in_uuidStr v.shipmentId
  unfold Upload.s3Key Upload.name at hlist
  simp only [String.toList_append] at hlist
  cases hid : (uuidStr v.shipmentId).toList with
  | nil =>
    rw [hid] at hlist
    cases hlist
  | cons c cs =>
    rw [hid] at hlist hno
    exact hno (List.mem_cons.mpr (Or.inl (List.cons.inj hlist).1))

omit [FileTexts] in
theorem bucketUrl_append_injective : Function.Injective (bucketUrl ++ ·) := by
  intro a b heq
  have hlist := congrArg String.toList heq
  simp only [String.toList_append] at hlist
  exact String.toList_inj.mp (List.append_cancel_left hlist)

omit [FileTexts] in
theorem drop_bucketUrl (key : String) :
    String.ofList ((bucketUrl ++ key).toList.drop bucketUrl.toList.length) = key := by
  rw [String.toList_append, List.drop_left, String.ofList_toList]

omit [FileTexts] in
theorem retrieve_bucketUrl (available : Bool) (key : String) (s : Stores) :
    retrieve available (bucketUrl ++ key) s =
      if available then ((s.bucket key).map (·.body)).getD (fallbackRetrieve (bucketUrl ++ key) s)
      else fallbackRetrieve (bucketUrl ++ key) s := by
  have hstarts : bucketUrl.toList <+: (bucketUrl ++ key).toList := by
    rw [String.toList_append]
    exact List.prefix_append _ _
  unfold retrieve
  rw [drop_bucketUrl]
  cases available with
  | false => rw [if_neg (by simp), if_neg Bool.false_ne_true]
  | true =>
    rw [if_pos ⟨rfl, hstarts⟩, if_pos rfl]
    cases s.bucket key with
    | none => rfl
    | some object => rfl

/-- Each store only has keys of its own kind. -/
structure OwnKeys (s : Stores) : Prop where
  bucket : ∀ key, s.bucket key ≠ none → ∃ v : Upload, key = v.s3Key
  storage : ∀ key, s.storage key ≠ none → ∃ v : Upload, key = bucketUrl ++ v.name

theorem OwnKeys.empty : OwnKeys .empty := ⟨fun _ h => absurd rfl h, fun _ h => absurd rfl h⟩

theorem OwnKeys.putObject (h : OwnKeys s) (u : Upload) : OwnKeys (s.putObject u) := by
  refine ⟨fun key hkey => ?_, h.storage⟩
  by_cases heq : key = u.s3Key
  · exact ⟨u, heq⟩
  · refine h.bucket key ?_
    simp only [Stores.putObject] at hkey
    rwa [Function.update_of_ne heq] at hkey

theorem OwnKeys.fallbackUpload (h : OwnKeys s) (u : Upload) : OwnKeys (fallbackUpload u s).2 := by
  refine ⟨h.bucket, fun key hkey => ?_⟩
  by_cases heq : key = bucketUrl ++ u.name
  · exact ⟨u, heq⟩
  · refine h.storage key ?_
    simp only [Storage.fallbackUpload] at hkey
    rwa [Function.update_of_ne heq] at hkey

theorem OwnKeys.step (h : OwnKeys s) (e : StoreEvent) : OwnKeys (storeStep s e) := by
  cases e with
  | upload u answer =>
    cases answer with
    | stored => exact h.putObject u
    | refused => exact h.fallbackUpload u
    | lost => exact (h.putObject u).fallbackUpload u
  | restart => exact ⟨h.bucket, fun _ hkey => absurd rfl hkey⟩

theorem OwnKeys.run (h : OwnKeys s) (es : List StoreEvent) : OwnKeys (storeRun es s) := by
  induction es generalizing s with
  | nil => exact h
  | cons e es ih => exact ih (h.step e)

theorem OwnKeys.storage_s3Key (h : OwnKeys s) (u : Upload) :
    s.storage (bucketUrl ++ u.s3Key) = none := by
  by_contra hne
  obtain ⟨v, hv⟩ := h.storage _ hne
  exact s3Key_ne_name u v (bucketUrl_append_injective hv)

theorem OwnKeys.bucket_name (h : OwnKeys s) (u : Upload) : s.bucket u.name = none := by
  by_contra hne
  obtain ⟨v, hv⟩ := h.bucket _ hne
  exact s3Key_ne_name v u hv.symm

end Addresses

/-- No later upload puts another file under the name of `u`. -/
def KeepsFile (u : Upload) : StoreEvent → Prop
  | .upload v _ => v.name = u.name → v.fileBytes = u.fileBytes
  | .restart => True

/-- No later upload goes to the fallback under the name of `u`. -/
def NotAgain (u : Upload) : StoreEvent → Prop
  | .upload v answer => answer ≠ .stored → v.name ≠ u.name
  | .restart => True

section Later
variable {u : Upload} {s : Stores} {es : List StoreEvent} {e : StoreEvent}

/-- The bucket has the file of `u`. -/
def InBucket (u : Upload) (s : Stores) : Prop :=
  (s.bucket u.s3Key).map (·.body) = some u.fileBytes

/-- The memory has the file of `u`. -/
def InStorage (u : Upload) (s : Stores) : Prop :=
  s.storage (bucketUrl ++ u.name) = some u.fileBytes

theorem s3Key_inj {v : Upload} (h : u.s3Key = v.s3Key) : u.name = v.name := by
  have hlist := congrArg String.toList h
  unfold Upload.s3Key at hlist
  simp only [String.toList_append] at hlist
  exact String.toList_inj.mp (List.append_cancel_left hlist)

theorem inBucket_putObject (u : Upload) (s : Stores) : InBucket u (s.putObject u) := by
  unfold InBucket Stores.putObject
  dsimp only
  rw [Function.update_self]
  rfl

theorem InBucket.putObject (h : InBucket u s) {v : Upload}
    (hv : v.name = u.name → v.fileBytes = u.fileBytes) : InBucket u (s.putObject v) := by
  unfold InBucket Stores.putObject
  by_cases hkey : u.s3Key = v.s3Key
  · dsimp only
    rw [hkey, Function.update_self]
    exact congrArg some (hv (s3Key_inj hkey).symm)
  · dsimp only
    rw [Function.update_of_ne hkey]
    exact h

theorem inStorage_fallbackUpload (u : Upload) (s : Stores) : InStorage u (fallbackUpload u s).2 := by
  unfold InStorage fallbackUpload
  exact Function.update_self ..

theorem InStorage.fallbackUpload (h : InStorage u s) {v : Upload}
    (hv : v.name = u.name → v.fileBytes = u.fileBytes) : InStorage u (fallbackUpload v s).2 := by
  unfold InStorage Storage.fallbackUpload
  dsimp only
  by_cases hkey : bucketUrl ++ u.name = bucketUrl ++ v.name
  · rw [hkey, Function.update_self]
    exact congrArg some (hv (bucketUrl_append_injective hkey).symm)
  · rw [Function.update_of_ne hkey]
    exact h

theorem InBucket.step (h : InBucket u s) (he : KeepsFile u e) : InBucket u (storeStep s e) := by
  cases e with
  | upload v answer =>
    cases answer with
    | stored => exact h.putObject he
    | refused => exact h
    | lost => exact h.putObject he
  | restart => exact h

theorem InStorage.step (h : InStorage u s) (he : KeepsFile u e) (hrestart : e ≠ .restart) :
    InStorage u (storeStep s e) := by
  cases e with
  | upload v answer =>
    cases answer with
    | stored => exact h
    | refused => exact h.fallbackUpload he
    | lost => exact InStorage.fallbackUpload (s := s.putObject v) h he
  | restart => exact absurd rfl hrestart

theorem InBucket.run (h : InBucket u s) (hes : ∀ e ∈ es, KeepsFile u e) :
    InBucket u (storeRun es s) := by
  induction es generalizing s with
  | nil => exact h
  | cons e es ih =>
    exact ih (h.step (hes e List.mem_cons_self)) fun e' he' => hes e' (List.mem_cons_of_mem e he')

theorem InStorage.run (h : InStorage u s) (hes : ∀ e ∈ es, KeepsFile u e)
    (hrestart : StoreEvent.restart ∉ es) : InStorage u (storeRun es s) := by
  induction es generalizing s with
  | nil => exact h
  | cons e es ih =>
    have hne : e ≠ .restart := fun heq => hrestart (heq ▸ List.mem_cons_self)
    exact ih (h.step (hes e List.mem_cons_self) hne)
      (fun e' he' => hes e' (List.mem_cons_of_mem e he'))
      fun hmem => hrestart (List.mem_cons_of_mem e hmem)

theorem storage_fallbackUpload_of_ne {v : Upload} (hv : v.name ≠ u.name) :
    (fallbackUpload v s).2.storage (bucketUrl ++ u.name) = s.storage (bucketUrl ++ u.name) := by
  unfold fallbackUpload
  exact Function.update_of_ne (fun heq => hv (bucketUrl_append_injective heq).symm) _ _

theorem storage_run_of_notAgain (h : s.storage (bucketUrl ++ u.name) = none)
    (hes : ∀ e ∈ es, NotAgain u e) : (storeRun es s).storage (bucketUrl ++ u.name) = none := by
  induction es generalizing s with
  | nil => exact h
  | cons e es ih =>
    refine ih ?_ fun e' he' => hes e' (List.mem_cons_of_mem e he')
    have he := hes e List.mem_cons_self
    cases e with
    | upload v answer =>
      cases answer with
      | stored => exact h
      | refused => exact (storage_fallbackUpload_of_ne (he nofun)).trans h
      | lost => exact (storage_fallbackUpload_of_ne (s := s.putObject v) (he nofun)).trans h
    | restart => rfl

end Later

section Retrieve
variable {u : Upload} {s : Stores} {before after : List StoreEvent}

theorem retrieve_of_inBucket (h : InBucket u s) :
    retrieve true (bucketUrl ++ u.s3Key) s = u.fileBytes := by
  rw [retrieve_bucketUrl, if_pos rfl, h]
  rfl

theorem retrieve_unavailable (h : OwnKeys s) (u : Upload) :
    retrieve false (bucketUrl ++ u.s3Key) s = mockContent := by
  rw [retrieve_bucketUrl, if_neg Bool.false_ne_true, fallbackRetrieve, h.storage_s3Key]
  rfl

theorem retrieve_name (h : OwnKeys s) (u : Upload) (available : Bool) :
    retrieve available (bucketUrl ++ u.name) s =
      (s.storage (bucketUrl ++ u.name)).getD mockContent := by
  rw [retrieve_bucketUrl, h.bucket_name]
  exact ite_self _

/-- As long as no later upload puts another file under its name, the file is found again under the
address it was given, unless it went to S3 and S3 is not there, or went to the memory of a process
that has ended. -/
theorem upload_retrieved (before after : List StoreEvent) (u : Upload) (answer : Answer)
    (hafter : ∀ e ∈ after, KeepsFile u e) :
    (answer = .stored →
      retrieve true (upload u answer (storeRun before .empty)).1
          (storeRun after (upload u answer (storeRun before .empty)).2) = u.fileBytes ∧
      retrieve false (upload u answer (storeRun before .empty)).1
          (storeRun after (upload u answer (storeRun before .empty)).2) = mockContent) ∧
    (answer ≠ .stored → StoreEvent.restart ∉ after → ∀ available,
      retrieve available (upload u answer (storeRun before .empty)).1
          (storeRun after (upload u answer (storeRun before .empty)).2) = u.fileBytes) ∧
    (answer ≠ .stored → ∀ earlier later, after = earlier ++ .restart :: later →
      (∀ e ∈ later, NotAgain u e) → ∀ available,
        retrieve available (upload u answer (storeRun before .empty)).1
          (storeRun after (upload u answer (storeRun before .empty)).2) = mockContent) := by
  have hbefore : OwnKeys (storeRun before .empty) := OwnKeys.empty.run before
  have hkeys : OwnKeys (storeRun after (upload u answer (storeRun before .empty)).2) :=
    (hbefore.step (.upload u answer)).run after
  have hurl : answer ≠ .stored →
      (upload u answer (storeRun before .empty)).1 = bucketUrl ++ u.name := by
    intro hanswer
    cases answer with
    | stored => exact absurd rfl hanswer
    | refused => rfl
    | lost => rfl
  have hin : answer ≠ .stored → InStorage u (upload u answer (storeRun before .empty)).2 := by
    intro hanswer
    cases answer with
    | stored => exact absurd rfl hanswer
    | refused => exact inStorage_fallbackUpload u _
    | lost => exact inStorage_fallbackUpload u _
  refine ⟨?_, ?_, ?_⟩
  · rintro rfl
    exact ⟨retrieve_of_inBucket ((inBucket_putObject u _).run hafter), retrieve_unavailable hkeys u⟩
  · intro hanswer hrestart available
    rw [hurl hanswer, retrieve_name hkeys, (hin hanswer).run hafter hrestart]
    rfl
  · rintro hanswer earlier later rfl hagain available
    have hlost : (storeRun (earlier ++ .restart :: later)
        (upload u answer (storeRun before .empty)).2).storage (bucketUrl ++ u.name) = none := by
      unfold storeRun
      rw [List.foldl_append, List.foldl_cons]
      exact storage_run_of_notAgain rfl hagain
    rw [hurl hanswer, retrieve_name hkeys, hlost]
    rfl

end Retrieve

end Backend

namespace Verbatim

/-- The digests of the two files below, and the text of one UUID. -/
scoped instance fileTexts : FileTexts where
  toText := { Friet.Verbatim.text with
    uuidStr := fun _ => "00000000-0000-0000-0000-000000000001" }
  hexdigest
    | [97] => "ca978112ca1bbdcafac231b39a23dc4da786eff8147c4e72b9807785afee48bb"
    | _ => "e3b0c44298fc1c149afbf4c8996fb92427ae41e4649b934ca495991b7852b855"
  no_s_in_uuidStr _ := show 's' ∉ "00000000-0000-0000-0000-000000000001".toList by decide +kernel

/-- The byte `a`, and a file without bytes. -/
def billOfLading : Upload := ⟨[97], "bl.pdf", some "application/pdf", 1⟩

def blank : Upload := ⟨[], "bl.pdf", none, 1⟩

theorem keepsFile_blank : ∀ e ∈ [StoreEvent.upload blank .stored], KeepsFile billOfLading e := by
  intro e he
  obtain rfl := List.mem_singleton.mp he
  intro hname
  exact absurd hname (by decide +kernel)

theorem upload_retrieved_lost :
    retrieve true (upload billOfLading .lost (storeRun [] .empty)).1
      (storeRun [.upload blank .stored] (upload billOfLading .lost (storeRun [] .empty)).2) = [97] :=
  (upload_retrieved [] [.upload blank .stored] billOfLading .lost keepsFile_blank).2.1 nofun
    nofun true

end Verbatim

end Friet.Documents.Storage
