import Harpocrates.Backend.Envelope
import Harpocrates.Framework.JsonKept

namespace Harpocrates.Clients

open Framework Framework.Json Backend.Envelope

/-- How the command line prints a number that the backend prints as the given token. -/
structure Numbers where
  print : List Char → Option (List Char)
  isToken_print : ∀ token printed, print token = some printed → IsToken printed

variable (numbers : Numbers) {δ : Type} (hexdigest : Bytes → δ)

def held (metadata : Metadata) : Metadata := reprintEntries numbers.print metadata

def canonicalMetadataHash (metadata : Metadata) : δ :=
  hexdigest (Python.encode (stringifySorted (held numbers metadata)))

/-- One function in both components, and one that tells metadata apart. -/
def OneFunction (m m' : Metadata) : Prop :=
  canonicalMetadataHash numbers hexdigest m = Backend.Envelope.canonicalMetadataHash hexdigest m ∧
    canonicalMetadataHash numbers hexdigest m' =
      Backend.Envelope.canonicalMetadataHash hexdigest m' ∧
    (m ≠ m' → Backend.Envelope.canonicalMetadataHash hexdigest m ≠
        Backend.Envelope.canonicalMetadataHash hexdigest m' ∧
      canonicalMetadataHash numbers hexdigest m ≠ canonicalMetadataHash numbers hexdigest m')

/-- The strings have only characters below 127, the numbers are printed alike, and no object inside
has a key that the metadata itself has not. -/
structure WrittenAlike (metadata : Metadata) : Prop where
  plain : Everywhere (plainHere · = true) (.object metadata)
  kept : Everywhere (KeptHere numbers.print (metadata.map (·.1))) (.object metadata)

variable {numbers hexdigest} {m m' : Metadata}

theorem keys_held : (held numbers m).map (·.1)=m.map (·.1) := keys_reprintEntries m

theorem wellFormed_held (h : IsValue (.object m)) : WellFormed (.object (held numbers m)) :=
  wellFormed_reprint numbers.isToken_print h.1

theorem keptHere_sorted : KeptHere numbers.print (sortByUnits (m.map (·.1))) =
    KeptHere numbers.print (m.map (·.1)) := keptHere_congr fun _ => mem_sortByUnits

/-- The command line's text is the backend's exactly where the metadata is written alike. -/
theorem stringified_eq_iff (h : IsValue (.object m)) :
    stringifySorted (held numbers m)=render writeAscii (ordered (.object m)) ↔
      WrittenAlike numbers m := by
  have htext : stringifySorted (held numbers m)=render writeRaw
      (keep (sortByUnits (m.map (·.1))) (reprint numbers.print (.object m))) := by
    rw [stringifySorted,keys_held]
    rfl
  have hformed : WellFormed
      (keep (sortByUnits (m.map (·.1))) (reprint numbers.print (.object m))) := by
    rw [← keys_held]
    exact wellFormed_stringified (wellFormed_held h)
  rw [htext,ordered_eq_self h.2]
  constructor
  · intro heq
    -- both texts are read back, so nothing was dropped and no number changed
    have hleft := render_inj readable_writeRaw readable_writeAscii hformed h.1 heq
    have hkept := keptHere_of_keep h.1 hleft
    rw [keptHere_sorted] at hkept
    rw [hleft] at heq
    have hascii : IsAscii (render writeRaw (.object m)) := heq ▸ render_ascii h.1
    exact ⟨plain_of_render hascii,hkept⟩
  · rintro ⟨hplain,hkept⟩
    rw [← keptHere_sorted] at hkept
    rw [keep_eq_self (sortByUnits_pairwise _) (nodup_sortByUnits h.1.1) h hplain hkept]
    exact render_plain _ hplain

theorem hash_eq_iff (hinj : Function.Injective hexdigest) (h : IsValue (.object m)) :
    canonicalMetadataHash numbers hexdigest m =
      Backend.Envelope.canonicalMetadataHash hexdigest m ↔ WrittenAlike numbers m := by
  rw [← stringified_eq_iff h]
  exact ⟨fun heq => Python.encode_injective (hinj heq),
    fun heq => congrArg (fun text => hexdigest (Python.encode text)) heq⟩

theorem backend_hash_inj (hinj : Function.Injective hexdigest) (h : IsValue (.object m))
    (h' : IsValue (.object m')) : Backend.Envelope.canonicalMetadataHash hexdigest m =
      Backend.Envelope.canonicalMetadataHash hexdigest m' ↔ m=m' := by
  refine ⟨fun heq => ?_,fun heq => by rw [heq]⟩
  have htext := Python.encode_injective (hinj heq)
  rw [ordered_eq_self h.2,ordered_eq_self h'.2] at htext
  exact Json.object.inj (render_inj readable_writeAscii readable_writeAscii h.1 h'.1 htext)

theorem client_hash_eq_iff (hinj : Function.Injective hexdigest) (h : IsValue (.object m))
    (h' : IsValue (.object m')) :
    canonicalMetadataHash numbers hexdigest m=canonicalMetadataHash numbers hexdigest m' ↔
      written (held numbers m)=written (held numbers m') := by
  constructor
  · intro heq
    exact written_eq_of_stringifySorted (wellFormed_held h) (wellFormed_held h')
      (Python.encode_injective (hinj heq))
  · intro heq
    rw [canonicalMetadataHash,canonicalMetadataHash,stringifySorted_eq,stringifySorted_eq,heq]

/-- The two components agree on metadata, and tell it apart, exactly where it is written alike.
The backend always tells metadata apart; the command line only as far as its text does. -/
theorem metadata_hash_one_function_iff (hinj : Function.Injective hexdigest)
    (h : IsValue (.object m)) (h' : IsValue (.object m')) :
    (OneFunction numbers hexdigest m m' ↔ WrittenAlike numbers m ∧ WrittenAlike numbers m') ∧
      (Backend.Envelope.canonicalMetadataHash hexdigest m =
        Backend.Envelope.canonicalMetadataHash hexdigest m' ↔ m = m') ∧
      (canonicalMetadataHash numbers hexdigest m = canonicalMetadataHash numbers hexdigest m' ↔
        written (held numbers m) = written (held numbers m')) := by
  have hbackend := backend_hash_inj hinj h h'
  refine ⟨?_,hbackend,client_hash_eq_iff hinj h h'⟩
  unfold OneFunction
  rw [hash_eq_iff hinj h,hash_eq_iff hinj h']
  refine ⟨fun hone => ⟨hone.1,hone.2.1⟩,fun halike => ⟨halike.1,halike.2,fun hne => ?_⟩⟩
  refine ⟨fun heq => hne (hbackend.1 heq),fun heq => hne (hbackend.1 ?_)⟩
  rw [← (hash_eq_iff hinj h).2 halike.1,← (hash_eq_iff hinj h').2 halike.2,heq]

def printVerbatim (token : List Char) : Option (List Char) :=
  if token.all isNumberChar ∧ isNumber token then some token else none

theorem isToken_printVerbatim (token printed : List Char) (h : printVerbatim token=some printed) :
    IsToken printed := by
  unfold printVerbatim at h
  split at h
  · cases h
    assumption
  · cases h

def verbatim : Numbers := ⟨printVerbatim,isToken_printVerbatim⟩

theorem sampleMetadata_writtenAlike (version : Int) :
    WrittenAlike verbatim (sampleMetadata version) where
  plain := ⟨rfl,rfl,rfl,rfl,rfl,rfl,rfl,trivial⟩
  kept := by
    have hkeys : ∀ e∈sampleMetadata version, e.1∈(sampleMetadata version).map (·.1) :=
      fun e he => List.mem_map_of_mem he
    have hversion : printVerbatim (decimal version)=some (decimal version) :=
      if_pos (isToken_decimal version)
    exact ⟨⟨hkeys,id⟩,trivial,trivial,trivial,trivial,trivial,hversion,trivial⟩

/-- Metadata without nested objects, in ASCII. -/
theorem flat_metadata_one_function :
    OneFunction verbatim id (sampleMetadata 1) (sampleMetadata 2) :=
  (metadata_hash_one_function_iff Function.injective_id (sampleMetadata_isMetadata 1).1
    (sampleMetadata_isMetadata 2).1).1.2
    ⟨sampleMetadata_writtenAlike 1,sampleMetadata_writtenAlike 2⟩

def noted (note : Json) : Metadata := (str "extra",note)::sampleMetadata 1

def noteUnder (name : String) : Metadata := noted (.object [(str name,.null)])

/-- Accepted metadata that differs in a nested object only has one hash at the command line, and
neither it nor metadata with a letter outside ASCII has the hash of the backend. -/
theorem nested_note_not_hashed :
    validateV1 storing 0 (noteUnder "a") = .ok () ∧ validateV1 storing 0 (noteUnder "b") = .ok () ∧
      validateV1 storing 0 (noted (.string (str "é"))) = .ok () ∧
      noteUnder "a" ≠ noteUnder "b" ∧
      (∀ hexdigest : Bytes → List Char, canonicalMetadataHash verbatim hexdigest (noteUnder "a") =
        canonicalMetadataHash verbatim hexdigest (noteUnder "b")) ∧
      canonicalMetadataHash verbatim id (noteUnder "a") ≠
        Backend.Envelope.canonicalMetadataHash id (noteUnder "a") ∧
      canonicalMetadataHash verbatim id (noted (.string (str "é"))) ≠
        Backend.Envelope.canonicalMetadataHash id (noted (.string (str "é"))) := by
  have htext : stringifySorted (held verbatim (noteUnder "a")) =
      stringifySorted (held verbatim (noteUnder "b")) := by
    decide +kernel
  refine ⟨rfl,rfl,rfl,?_,fun hexdigest => ?_,?_,?_⟩
  · intro heq
    have hnote := congrArg (fun m : Metadata => m.head?.map (render writeRaw ·.2)) heq
    revert hnote
    decide
  · exact congrArg (fun text => hexdigest (Python.encode text)) htext
  · decide +kernel
  · decide +kernel

end Harpocrates.Clients
