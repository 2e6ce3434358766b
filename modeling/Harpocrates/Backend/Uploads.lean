import Harpocrates.Framework.Fallible
import Harpocrates.Framework.Python
import Harpocrates.Framework.Sha256
import Harpocrates.Framework.SortedMap

namespace Harpocrates.Backend.Uploads

open Framework Framework.Python Framework.Fallible List

/-! Uploads in parts: chunks are stored one file each under their index, and a commit joins them. -/

/-- What one `read` of a stream gives; a stream that has ended gives no bytes. -/
inductive Read
  | bytes (chunk : Bytes)
  | fails

inductive UploadError
  | tooLarge
  | raised
  deriving DecidableEq

/-- What is written, what the hasher was given and the count of bytes, while a copy goes on. -/
structure Copy where
  file : Bytes := []
  hashed : Bytes := []
  bytesWritten : Nat := 0

/-- The copy loop; a limit of zero is none. -/
def copyLoop (limit : Nat) : List Read → Copy → Except UploadError Copy
  | [],copy => .ok copy
  | .fails::_,_ => .error .raised
  | .bytes chunk::reads,copy =>
    if chunk.isEmpty then .ok copy
    else if 0 < limit ∧ limit < copy.bytesWritten+chunk.length then .error .tooLarge
    else copyLoop limit reads {
      file := copy.file++chunk
      hashed := copy.hashed++chunk
      bytesWritten := copy.bytesWritten+chunk.length }

abbrev ChunkFiles := SortedMap Nat Bytes

section

variable (hexdigest : Bytes → Text)

/-- The files after a stream was copied to the file of an index. After an error that file is
unlinked. -/
def hashStreamToPath (limit : Nat) (files : ChunkFiles) (index : Nat) (source : List Read) :
    ChunkFiles × Except UploadError (Text × Nat) :=
  match copyLoop limit source {} with
  | .ok copy => (files.insert index copy.file,.ok (hexdigest copy.hashed,copy.bytesWritten))
  | .error error => (files.erase index,.error error)

/-- A file in reads of bounded size. -/
def blocks (size : Nat) : Nat → Bytes → List Read
  | 0,_ => []
  | fuel+1,file =>
    if file.isEmpty then [] else .bytes (file.take size)::blocks size fuel (file.drop size)

/-- The files one after another, with their hash and their size. -/
def hashPathsConcat (limit chunkSize : Nat) (files : List Bytes) :
    Except UploadError (Bytes × Text × Nat) := do
  let copy ← files.foldlM (fun copy file => copyLoop limit (blocks chunkSize file.length file) copy)
    {}
  return (copy.file,hexdigest copy.hashed,copy.bytesWritten)

structure UploadConfig where
  chunkLimit : Nat
  commitLimit : Nat
  chunkBytes : Nat
  chunkBytes_pos : 0 < chunkBytes

structure Upload where
  index : Nat
  chunk : Option (List Read)

inductive UploadReply
  | ok (bytes : Nat) (sha256 : Text)
  | sessionNotFound
  | chunkRequired
  | chunkTooLarge
  | raised
  deriving DecidableEq

def uploadChunk (config : UploadConfig) (session : Option ChunkFiles) (upload : Upload) :
    Option ChunkFiles × UploadReply :=
  match session with
  | none => (none,.sessionNotFound)
  | some files =>
    match upload.chunk with
    | none => (some files,.chunkRequired)
    | some source =>
      match hashStreamToPath hexdigest config.chunkLimit files upload.index source with
      | (files,.ok (sha256,bytes)) => (some files,.ok bytes sha256)
      | (files,.error .tooLarge) => (some files,.chunkTooLarge)
      | (files,.error .raised) => (some files,.raised)

/-- What a commit brings with it beside the chunks: whether its metadata is valid, its retention
class known, and whether the joined file is of a known type and takes the metadata. -/
structure CommitRequest where
  metadataValid : Bool
  mediaAccepted : Bytes → Bool
  retentionKnown : Bool

structure Committed where
  bytes : Bytes
  sourceHash : Text
  written : Nat

inductive CommitError
  | sessionNotFound
  | invalidMetadata
  | noChunks
  | upload (error : UploadError)
  | media
  | retention
  deriving DecidableEq

def commitUploadSession (config : UploadConfig) (session : Option ChunkFiles)
    (request : CommitRequest) : Option ChunkFiles × Except CommitError Committed :=
  match session with
  | none => (none,.error .sessionNotFound)
  | some files =>
    if !request.metadataValid then (some files,.error .invalidMetadata)
    else if files.values.isEmpty then (some files,.error .noChunks)
    else
      match hashPathsConcat hexdigest config.commitLimit config.chunkBytes files.values with
      | .error error => (some files,.error (.upload error))
      | .ok (bytes,sourceHash,written) =>
        if !request.mediaAccepted bytes then (some files,.error .media)
        else if !request.retentionKnown then (some files,.error .retention)
        else (none,.ok ⟨bytes,sourceHash,written⟩)

def afterUploads (config : UploadConfig) (uploads : List Upload) : Option ChunkFiles :=
  uploads.foldl (fun session upload => (uploadChunk hexdigest config session upload).1)
    (some SortedMap.empty)

end

/-- The bytes of a stream up to its end. -/
def content : List Read → Bytes
  | [] => []
  | .fails::_ => []
  | .bytes chunk::reads => if chunk.isEmpty then [] else chunk++content reads

variable {limit size : Nat}

theorem copyLoop_ok {reads : List Read} {copy copy' : Copy}
    (h : copyLoop limit reads copy=.ok copy') :
    copy'=⟨copy.file++content reads,copy.hashed++content reads,
      copy.bytesWritten+(content reads).length⟩ := by
  induction reads generalizing copy with
  | nil =>
    cases h
    simp [content]
  | cons read reads ih =>
    cases read with
    | fails => cases h
    | bytes chunk =>
      rw [copyLoop] at h
      rw [content]
      split at h
      · cases h
        rw [if_pos ‹_›]
        simp
      · rw [if_neg ‹_›]
        split at h
        · cases h
        · rw [ih h]
          simp [Nat.add_assoc]

theorem content_blocks (hsize : 0<size) (fuel : Nat) (file : Bytes) (hfuel : file.length≤fuel) :
    content (blocks size fuel file)=file := by
  induction fuel generalizing file with
  | zero =>
    obtain rfl := length_eq_zero_iff.1 (Nat.le_zero.1 hfuel)
    rfl
  | succ fuel ih =>
    cases file with
    | nil => rfl
    | cons b file =>
      have hrest : ((b::file).drop size).length≤fuel := by
        rw [length_drop]
        simp only [length_cons] at hfuel ⊢
        omega
      have hfirst : ((b::file).take size).isEmpty=false := by
        cases size with
        | zero => cases hsize
        | succ size => rfl
      rw [blocks,if_neg (by simp),content,if_neg (by simp [hfirst]),ih _ hrest,
        take_append_drop]

theorem foldlM_copy_ok (hsize : 0<size) {files : List Bytes} {copy copy' : Copy}
    (h : files.foldlM (fun copy file => copyLoop limit (blocks size file.length file) copy) copy =
      .ok copy') :
    copy'=⟨copy.file++files.flatten,copy.hashed++files.flatten,
      copy.bytesWritten+files.flatten.length⟩ := by
  induction files generalizing copy with
  | nil =>
    cases h
    simp
  | cons file files ih =>
    rw [foldlM_cons] at h
    obtain ⟨first,hfirst,hrest⟩ := bind_ok.1 h
    have hcopied := copyLoop_ok hfirst
    rw [content_blocks hsize _ _ (Nat.le_refl _)] at hcopied
    rw [ih hrest,hcopied]
    simp [Nat.add_assoc]

theorem hashPathsConcat_ok {hexdigest : Bytes → Text} (hsize : 0<size) {files : List Bytes}
    {bytes : Bytes} {sourceHash : Text} {written : Nat}
    (h : hashPathsConcat hexdigest limit size files=.ok (bytes,sourceHash,written)) :
    bytes=files.flatten ∧ sourceHash=hexdigest files.flatten ∧
      written=files.flatten.length := by
  obtain ⟨copy,hcopy,h⟩ := bind_ok.1 h
  obtain rfl := foldlM_copy_ok hsize hcopy
  obtain ⟨rfl,hrest⟩ := Prod.mk.inj (Except.ok.inj h)
  cases hrest
  simp

theorem commitUploadSession_ok {hexdigest : Bytes → Text} {config : UploadConfig}
    {session after : Option ChunkFiles} {request : CommitRequest} {committed : Committed}
    (h : commitUploadSession hexdigest config session request=(after,.ok committed)) :
    ∃ files, session=some files ∧ committed.bytes=files.values.flatten ∧
      committed.sourceHash=hexdigest files.values.flatten ∧
      committed.written=files.values.flatten.length := by
  unfold commitUploadSession at h
  split at h
  · cases h
  rename_i files
  split at h
  · cases h
  split at h
  · cases h
  split at h
  · cases h
  rename_i bytes sourceHash written hconcat
  split at h
  · cases h
  split at h
  · cases h
  obtain rfl := Except.ok.inj (Prod.mk.inj h).2
  exact ⟨files,rfl,hashPathsConcat_ok config.chunkBytes_pos hconcat⟩

variable {hexdigest : Bytes → Text} {config : UploadConfig} {uploads : List Upload}

/-- The content of an upload that is acknowledged. -/
def Upload.accepted (config : UploadConfig) (upload : Upload) : Option Bytes :=
  match upload.chunk with
  | none => none
  | some source =>
    match copyLoop config.chunkLimit source {} with
    | .ok _ => some (content source)
    | .error _ => none

/-- For each index the content of its last acknowledged upload. -/
def lastAcknowledged (config : UploadConfig) (uploads : List Upload) : ChunkFiles :=
  uploads.foldl (fun files upload =>
    match upload.accepted config with
    | some bytes => files.insert upload.index bytes
    | none => files) SortedMap.empty

theorem lastAcknowledged_append (uploads : List Upload) (upload : Upload) :
    lastAcknowledged config (uploads++[upload]) =
      match upload.accepted config with
      | some bytes => (lastAcknowledged config uploads).insert upload.index bytes
      | none => lastAcknowledged config uploads := by
  rw [lastAcknowledged,foldl_append]
  rfl

def acknowledgements (config : UploadConfig) (uploads : List Upload) (i : Nat) : List Bytes :=
  uploads.filterMap fun upload => if upload.index = i then upload.accepted config else none

/-- What a session's directory holds after an upload to it. -/
def stored (config : UploadConfig) (files : ChunkFiles) (upload : Upload) : ChunkFiles :=
  match upload.accepted config with
  | some bytes => files.insert upload.index bytes
  | none => if upload.chunk.isSome then files.erase upload.index else files

theorem uploadChunk_files (files : ChunkFiles) (upload : Upload) :
    (uploadChunk hexdigest config (some files) upload).1=some (stored config files upload) := by
  unfold uploadChunk stored Upload.accepted hashStreamToPath
  dsimp only
  cases hchunk : upload.chunk with
  | none => rfl
  | some source =>
    dsimp only
    cases hcopy : copyLoop config.chunkLimit source {} with
    | ok copy =>
      obtain rfl := copyLoop_ok hcopy
      simp
    | error error =>
      cases error with
      | tooLarge => rfl
      | raised => rfl

theorem afterUploads_append (before : List Upload) (upload : Upload) :
    afterUploads hexdigest config (before++[upload]) =
      (uploadChunk hexdigest config (afterUploads hexdigest config before) upload).1 := by
  rw [afterUploads,foldl_append]
  rfl

theorem afterUploads_some (hexdigest : Bytes → Text) (config : UploadConfig)
    (uploads : List Upload) :
    ∃ files, afterUploads hexdigest config uploads=some files := by
  induction uploads using List.reverseRecOn with
  | nil => exact ⟨_,rfl⟩
  | append_singleton uploads upload ih =>
    obtain ⟨files,hfiles⟩ := ih
    rw [afterUploads_append,hfiles]
    exact ⟨_,uploadChunk_files files upload⟩

/-- The commit has the acknowledged chunks, with their hash and size, and no upload that failed
changed the session. -/
structure Assembled (hexdigest : Bytes → Text) (config : UploadConfig) (uploads : List Upload)
    (committed : Committed) : Prop where
  bytes : committed.bytes = (lastAcknowledged config uploads).values.flatten
  sourceHash : committed.sourceHash = hexdigest (lastAcknowledged config uploads).values.flatten
  written : committed.written = (lastAcknowledged config uploads).values.flatten.length
  kept : ∀ before upload after, uploads = before++upload::after →
    upload.accepted config = none →
    afterUploads hexdigest config (before++[upload]) = afterUploads hexdigest config before

/-- No upload fails for an index under which a chunk is stored. -/
def Undisturbed (hexdigest : Bytes → Text) (config : UploadConfig) (uploads : List Upload) :
    Prop :=
  ∀ before upload after files, uploads = before++upload::after → upload.chunk.isSome = true →
    upload.accepted config = none → afterUploads hexdigest config before = some files →
    ∀ bytes, (upload.index,bytes) ∉ files

theorem Undisturbed.of_append {upload : Upload}
    (h : Undisturbed hexdigest config (uploads++[upload])) :
    Undisturbed hexdigest config uploads := by
  intro before failed after files heq
  exact h before failed (after++[upload]) files (by simp [heq])

theorem afterUploads_undisturbed (h : Undisturbed hexdigest config uploads) :
    afterUploads hexdigest config uploads=some (lastAcknowledged config uploads) := by
  induction uploads using List.reverseRecOn with
  | nil => rfl
  | append_singleton uploads upload ih =>
    have hbefore := ih h.of_append
    rw [afterUploads_append,hbefore,uploadChunk_files,lastAcknowledged_append,stored]
    cases haccepted : upload.accepted config with
    | some bytes => rfl
    | none =>
      dsimp only
      split
      · rename_i hchunk
        rw [SortedMap.erase_eq_self_iff.2 (h uploads upload [] _ rfl hchunk haccepted hbefore)]
      · rfl

/-- A commit assembles what was acknowledged exactly when no upload failed for an index that had
a chunk. -/
theorem commit_assembles_iff {session : Option ChunkFiles} {request : CommitRequest}
    {committed : Committed}
    (hcommit : commitUploadSession hexdigest config (afterUploads hexdigest config uploads)
      request = (session,.ok committed)) :
    Assembled hexdigest config uploads committed ↔ Undisturbed hexdigest config uploads := by
  constructor
  · intro h before upload after files heq hchunk haccepted hfiles
    have hkept := h.kept before upload after heq haccepted
    rw [afterUploads_append,hfiles,uploadChunk_files,stored,haccepted] at hkept
    dsimp only at hkept
    rw [if_pos hchunk] at hkept
    exact SortedMap.erase_eq_self_iff.1 (Option.some.inj hkept)
  · intro h
    obtain ⟨files,hfiles,hbytes,hhash,hwritten⟩ := commitUploadSession_ok hcommit
    rw [afterUploads_undisturbed h] at hfiles
    cases hfiles
    refine ⟨hbytes,hhash,hwritten,?_⟩
    intro before upload after heq haccepted
    obtain ⟨files,hfiles⟩ := afterUploads_some hexdigest config before
    rw [afterUploads_append,hfiles,uploadChunk_files,stored,haccepted]
    dsimp only
    split
    · rename_i hchunk
      rw [SortedMap.erase_eq_self_iff.2 (h before upload after files heq hchunk haccepted hfiles)]
    · rfl

def smallConfig : UploadConfig := ⟨4,4,65536,Nat.succ_pos _⟩

def anyMedia : CommitRequest := ⟨true,fun _ => true,true⟩

def twoChunks : List Upload := [⟨0,some [.bytes [1,2]]⟩,⟨1,some [.bytes [3]]⟩]

theorem twoChunks_undisturbed : Undisturbed Sha256.hexdigest smallConfig twoChunks := by
  intro before upload after files heq hchunk haccepted
  have hmem : upload∈twoChunks := by rw [heq]; simp
  simp only [twoChunks,mem_cons,not_mem_nil,or_false] at hmem
  rcases hmem with rfl | rfl
  · cases haccepted
  · cases haccepted

theorem twoChunks_assembled :
    commitUploadSession Sha256.hexdigest smallConfig
      (afterUploads Sha256.hexdigest smallConfig twoChunks) anyMedia =
        (none,.ok ⟨[1,2,3],Sha256.hexdigest [1,2,3],3⟩) ∧
    Undisturbed Sha256.hexdigest smallConfig twoChunks ∧
    Assembled Sha256.hexdigest smallConfig twoChunks ⟨[1,2,3],Sha256.hexdigest [1,2,3],3⟩ := by
  have hcommit : commitUploadSession Sha256.hexdigest smallConfig
      (afterUploads Sha256.hexdigest smallConfig twoChunks) anyMedia =
        (none,.ok ⟨[1,2,3],Sha256.hexdigest [1,2,3],3⟩) := rfl
  exact ⟨hcommit,twoChunks_undisturbed,(commit_assembles_iff hcommit).2 twoChunks_undisturbed⟩

def chunkSentAgain : List Upload := twoChunks++[⟨0,some [.bytes [1,2,3,4,5]]⟩]

/-- The upload that is refused takes the stored chunk with it, and the commit goes on without. -/
theorem refused_upload_removes_chunk :
    (uploadChunk Sha256.hexdigest smallConfig (afterUploads Sha256.hexdigest smallConfig twoChunks)
      ⟨0,some [.bytes [1,2,3,4,5]]⟩).2 = .chunkTooLarge ∧
    commitUploadSession Sha256.hexdigest smallConfig
      (afterUploads Sha256.hexdigest smallConfig chunkSentAgain) anyMedia =
        (none,.ok ⟨[3],Sha256.hexdigest [3],1⟩) ∧
    (lastAcknowledged smallConfig chunkSentAgain).values.flatten = [1,2,3] ∧
    ¬ Assembled Sha256.hexdigest smallConfig chunkSentAgain ⟨[3],Sha256.hexdigest [3],1⟩ := by
  refine ⟨rfl,rfl,rfl,fun h => ?_⟩
  cases h.bytes

end Harpocrates.Backend.Uploads
