import Harpocrates.Clients.ProofManifest

namespace Harpocrates.Clients

open Framework Framework.Json List Option

def Field.ofName (name : Str) : Option Field := CLI_ORDER.find? fun field => field.name = name

theorem Field.ofName_name (field : Field) : Field.ofName field.name=some field := by
  cases field <;> rfl

theorem Field.name_inj {a b : Field} (h : a.name=b.name) : a=b := by
  have ha := ofName_name a
  rw [h,ofName_name b] at ha
  exact (Option.some.inj ha).symm

def Complete (order : List Field) : Prop := order.Nodup ∧ ∀ field, field ∈ order

theorem complete_cli : Complete CLI_ORDER := by
  refine ⟨by decide,fun field => ?_⟩
  cases field <;> decide

theorem complete_web : Complete WEB_ORDER := by
  refine ⟨by decide,fun field => ?_⟩
  cases field <;> decide

variable {m m' : ProofManifest} {order order' : List Field} {k : Str} {reading : Reading}

theorem lookup_fields {field : Field} (h : field∈order) :
    (order.map fun field => (field.name,m.value field)).lookup field.name =
      some (m.value field) := by
  induction order with
  | nil => cases h
  | cons f order ih =>
    rw [map_cons,Dict.lookup_cons]
    by_cases hf : field=f
    · rw [hf,if_pos rfl]
    · rw [if_neg fun heq => hf (Field.name_inj heq)]
      exact ih ((mem_cons.1 h).resolve_left hf)

theorem lookup_fields_none (h : ∀ field : Field, field.name≠k) :
    (order.map fun field => (field.name,m.value field)).lookup k=none := by
  apply Dict.lookup_eq_none
  intro hmem
  obtain ⟨e,he,rfl⟩ := mem_map.1 hmem
  obtain ⟨field,_,rfl⟩ := mem_map.1 he
  exact h field rfl

/-- The value that an object has for a key that is no field of every manifest. -/
def ProofManifest.optional (m : ProofManifest) (k : Str) : Option Json :=
  if k = str "scopeName" then m.scopeName.map fun name : JoinedStr => .string name
  else if k = str "selectiveDisclosure" then
    m.selectiveDisclosure.map fun disclosure => .object disclosure.entries
  else none

theorem lookup_object_field (horder : Complete order) (field : Field) :
    (m.object order).lookup field.name=some (m.value field) := by
  rw [ProofManifest.object,append_assoc,lookup_append,lookup_fields (horder.2 field)]
  rfl

theorem lookup_object_optional (h : ∀ field : Field, field.name≠k) :
    (m.object order).lookup k=m.optional k := by
  rw [ProofManifest.object,append_assoc,lookup_append,lookup_fields_none h,
    none_or,lookup_append,ProofManifest.optional]
  cases m.scopeName with
  | none =>
    cases m.selectiveDisclosure with
    | none => split_ifs <;> rfl
    | some disclosure =>
      show ((str "selectiveDisclosure",_)::[]).lookup k = _
      rw [Dict.lookup_cons]
      split_ifs with h1 h2
      · exact absurd (h1.symm.trans h2) (by decide)
      · rfl
      · rfl
      · rfl
  | some name =>
    show (((str "scopeName",_)::[]).lookup k).or _ = _
    rw [Dict.lookup_cons]
    cases m.selectiveDisclosure with
    | none => split_ifs <;> rfl
    | some disclosure =>
      show Option.or _ (((str "selectiveDisclosure",_)::[]).lookup k) = _
      rw [Dict.lookup_cons]
      split_ifs <;> rfl

theorem field_ne_optional (field : Field) :
    field.name≠str "scopeName" ∧ field.name≠str "selectiveDisclosure" := by
  cases field <;> decide

theorem field_mem (field : Field) : field.name∈MANIFEST_FIELDS := by
  cases field <;> decide

theorem keys_object : (m.object order).map (·.1)=order.map Field.name++
    ((m.scopeName.map fun _ => str "scopeName").toList++
      (m.selectiveDisclosure.map fun _ => str "selectiveDisclosure").toList) := by
  rw [ProofManifest.object]
  cases m.scopeName <;> cases m.selectiveDisclosure <;> simp

theorem mem_keys_object (h : k∈(m.object order).map (·.1)) : k∈MANIFEST_FIELDS := by
  rw [keys_object,mem_append,mem_append] at h
  rcases h with h | h | h
  · obtain ⟨field,_,rfl⟩ := mem_map.1 h
    exact field_mem field
  · cases hname : m.scopeName with
    | none => simp [hname] at h
    | some name =>
      have hk : k=str "scopeName" := by simpa [hname] using h
      rw [hk]
      decide
  · cases hdisclosure : m.selectiveDisclosure with
    | none => simp [hdisclosure] at h
    | some disclosure =>
      have hk : k=str "selectiveDisclosure" := by simpa [hdisclosure] using h
      rw [hk]
      decide

theorem nodup_keys_object (horder : Complete order) : ((m.object order).map (·.1)).Nodup := by
  rw [keys_object]
  refine nodup_append.2 ⟨horder.1.map fun _ _ h => Field.name_inj h,?_,?_⟩
  · have hne : str "scopeName" ≠ str "selectiveDisclosure" := by decide
    cases m.scopeName <;> cases m.selectiveDisclosure <;> simp [hne]
  · intro a ha b hb heq
    obtain ⟨field,_,rfl⟩ := mem_map.1 ha
    obtain ⟨hname,hdisclosure⟩ := field_ne_optional field
    rcases mem_append.1 hb with hb | hb
    · obtain ⟨_,_,rfl⟩ := map_eq_some_iff.1 (mem_toList.1 hb)
      exact hname heq
    · obtain ⟨_,_,rfl⟩ := map_eq_some_iff.1 (mem_toList.1 hb)
      exact hdisclosure heq

theorem joined_tier (tier : IdentityTier) : Joined tier.name := by
  cases tier <;> exact joined_str _

theorem wellFormed_value (field : Field) : WellFormed (m.value field) := by
  cases field with
  | contractId => exact m.contractId.2
  | metadataHash => exact m.metadataHash.2
  | network => exact m.network.2
  | proofId => exact m.proofId.2
  | protocol => exact joined_str _
  | sourceHash => exact m.sourceHash.2
  | tier => exact joined_tier m.tier
  | timestamp => exact m.timestamp.2
  | transactionRef => exact m.transactionRef.2
  | version => exact isToken_decimal _
  | videoHash => exact m.videoHash.2
  | verifierScope => exact m.verifierScope.2
  | epoch => exact isToken_decimal _

theorem joined_fieldName (field : Field) : Joined field.name := by
  cases field <;> exact joined_str _

theorem wellFormed_disclosure (disclosure : SelectiveDisclosure) :
    WellFormed (.object disclosure.entries) := by
  refine ⟨?_,joined_str _,disclosure.schemaHash.2,joined_str _,disclosure.publicInputs.2,
    joined_str _,disclosure.predicateCommitment.2,joined_str _,isToken_decimal _,trivial⟩
  show [str "schemaHash",str "publicInputs",str "predicateCommitment",str "circuitVersion"].Nodup
  decide

theorem wellFormed_object (horder : Complete order) : WellFormed (.object (m.object order)) := by
  refine ⟨nodup_keys_object horder,wellFormedEntries_iff.2 fun e he => ?_⟩
  rw [ProofManifest.object,mem_append,mem_append] at he
  rcases he with (he | he) | he
  · obtain ⟨field,_,rfl⟩ := mem_map.1 he
    exact ⟨joined_fieldName field,wellFormed_value field⟩
  · obtain ⟨name,_,rfl⟩ := map_eq_some_iff.1 (mem_toList.1 he)
    exact ⟨joined_str _,name.2⟩
  · obtain ⟨disclosure,_,rfl⟩ := map_eq_some_iff.1 (mem_toList.1 he)
    exact ⟨joined_str _,wellFormed_disclosure disclosure⟩

abbrev ProofManifest.keys (m : ProofManifest) (order : List Field) : List Str :=
  sortByUnits ((m.object order).map (·.1))

theorem keep_value {keys : List Str} (field : Field) :
    keep keys (m.value field)=m.value field := by
  cases field <;> rfl

/-- No field of a disclosure is a key of the manifest, so nothing of it is written. -/
theorem keep_disclosure (disclosure : SelectiveDisclosure) :
    keep (m.keys order) (.object disclosure.entries)=.object [] := by
  show Json.object (select _ _) = _
  congr 1
  rw [eq_nil_iff_forall_not_mem]
  intro e he
  obtain ⟨hkey,hvalue⟩ := mem_keys_select he
  have hfield : e.1∈MANIFEST_FIELDS := mem_keys_object (mem_sortByUnits.1 hkey)
  have hforeign : ∀ k∈MANIFEST_FIELDS, k∉DISCLOSURE_FIELDS ∧ k≠str "__proto__" := by decide
  obtain ⟨hdisclosure,hproto⟩ := hforeign e.1 hfield
  rw [lookup_keepEntries,Dict.lookup_eq_none,inherited,if_neg hproto] at hvalue
  · cases hvalue
  · exact hdisclosure

theorem lookup_written_field (horder : Complete order) (field : Field) :
    (written (m.object order)).lookup field.name=some (m.value field) := by
  rw [lookup_written,lookup_object_field horder,map_some,keep_value]

theorem lookup_written_scopeName : (written (m.object order)).lookup (str "scopeName") =
    m.scopeName.map fun name : JoinedStr => .string name := by
  rw [lookup_written,lookup_object_optional fun field => (field_ne_optional field).1,
    ProofManifest.optional,if_pos rfl,Option.map_map]
  rfl

theorem lookup_written_disclosure :
    (written (m.object order)).lookup (str "selectiveDisclosure") =
      m.selectiveDisclosure.map fun _ => .object [] := by
  rw [lookup_written,lookup_object_optional fun field => (field_ne_optional field).2,
    ProofManifest.optional,if_neg (by decide),if_pos rfl,Option.map_map]
  congr 1
  funext disclosure
  exact keep_disclosure disclosure

def Same (a b : Manifest) : Prop := ∀ k, a.lookup k = b.lookup k

theorem same_written (horder : Complete order) (h : m.selectiveDisclosure=none) :
    Same (written (m.object order)) (m.object order) := by
  intro k
  by_cases hk : ∃ field : Field, field.name=k
  · obtain ⟨field,rfl⟩ := hk
    rw [lookup_written_field horder,lookup_object_field horder]
  · rw [lookup_written,lookup_object_optional fun field heq => hk ⟨field,heq⟩,
      ProofManifest.optional]
    split_ifs
    · rw [Option.map_map]
      rfl
    · rw [h]
      rfl
    · rfl

theorem parseManifest_serialize (horder : Complete order) :
    parseManifest reading (serializeManifest (m.object order)) =
      (checkManifest reading (written (m.object order))).map fun _ => written (m.object order) := by
  rw [parseManifest,serializeManifest,parse_stringifySorted (wellFormed_object horder)]

/-- Fields that the reader accepts one by one. -/
structure Acceptable (reading : Reading) (input : ManifestInput) : Prop where
  network : input.network.val ≠ []
  contractId : input.contractId.val ≠ []
  timestamp : input.timestamp.val ≠ [] ∧ reading.isDate input.timestamp
  proofId : isHex32 input.proofId
  transactionRef : isHex32 input.transactionRef
  videoHash : isHex32 input.videoHash
  metadataHash : isHex32 input.metadataHash
  sourceHash : isHex32 input.sourceHash
  verifierScope : ∀ scope, input.verifierScope = some scope → isScope scope
  epoch : ∀ epoch, input.epoch = some epoch → 0 ≤ epoch ∧ epoch.natAbs ≤ MAX_SAFE_INTEGER
  scopeName : ∀ name, input.scopeName = some name → length16 name ≤ 128
  selectiveDisclosure : ∀ disclosure, input.selectiveDisclosure = some disclosure →
    isHex32 disclosure.schemaHash ∧ isHex32 disclosure.predicateCommitment ∧
      disclosure.publicInputs.val.all isHexPoint ∧
      disclosure.circuitVersion.natAbs ≤ MAX_SAFE_INTEGER

theorem ne_nil_of_hex32 {s : Str} (h : isHex32 s) : s.isEmpty=false := by
  cases s with
  | nil => cases h
  | cons p s => rfl

variable {input : ManifestInput}

theorem Acceptable.scope (h : Acceptable reading input) :
    isScope (createProofManifest input).verifierScope := by
  show isScope (input.verifierScope.getD (.of "0"))
  cases hscope : input.verifierScope with
  | none => decide
  | some scope => exact h.verifierScope scope hscope

theorem Acceptable.epoch_bounds (h : Acceptable reading input) :
    0≤(createProofManifest input).epoch ∧
      (createProofManifest input).epoch.natAbs≤MAX_SAFE_INTEGER := by
  show 0 ≤ input.epoch.getD 0 ∧ (input.epoch.getD 0).natAbs≤MAX_SAFE_INTEGER
  cases hepoch : input.epoch with
  | none => decide
  | some epoch => exact h.epoch epoch hepoch

theorem Acceptable.name_length (h : Acceptable reading input) {name : JoinedStr}
    (hname : (createProofManifest input).scopeName=some name) : length16 name≤128 :=
  h.scopeName name (filter_eq_some_iff.1 hname).1

theorem checkNonEmpty_ok {r : Manifest} {name : String} {s : Str}
    (h : r.lookup (str name)=some (.string s)) (hs : s.isEmpty=false) :
    checkNonEmpty r name=.ok () := by
  rw [checkNonEmpty,Fallible.require_ok,h]
  show (!s.isEmpty)=true
  rw [hs]
  rfl

theorem checkHex32_ok {r : Manifest} {name : String} {s : Str}
    (h : r.lookup (str name)=some (.string s)) (hs : isHex32 s) : checkHex32 r name=.ok () := by
  rw [checkHex32,Fallible.require_ok,h]
  exact hs

theorem isEmpty_false {s : Str} (h : s≠[]) : s.isEmpty=false := by
  cases s with
  | nil => exact absurd rfl h
  | cons p s => rfl

/-- What the reader makes of the fields that every manifest has. -/
theorem checks_fields (horder : Complete order) (h : Acceptable reading input) :
    let r := written ((createProofManifest input).object order)
    (∀ name∈["proofId","network","contractId","transactionRef","videoHash","metadataHash",
        "sourceHash","timestamp"], checkNonEmpty r name=.ok ()) ∧
      ∀ name∈["proofId","videoHash","metadataHash","sourceHash","transactionRef"],
        checkHex32 r name=.ok () := by
  intro r
  have hfield (field : Field) : r.lookup field.name =
      some ((createProofManifest input).value field) := lookup_written_field horder field
  constructor
  · simp only [forall_mem_cons]
    refine ⟨?_,?_,?_,?_,?_,?_,?_,?_,forall_mem_nil _⟩
    · exact checkNonEmpty_ok (hfield .proofId) (ne_nil_of_hex32 h.proofId)
    · exact checkNonEmpty_ok (hfield .network) (isEmpty_false h.network)
    · exact checkNonEmpty_ok (hfield .contractId) (isEmpty_false h.contractId)
    · exact checkNonEmpty_ok (hfield .transactionRef) (ne_nil_of_hex32 h.transactionRef)
    · exact checkNonEmpty_ok (hfield .videoHash) (ne_nil_of_hex32 h.videoHash)
    · exact checkNonEmpty_ok (hfield .metadataHash) (ne_nil_of_hex32 h.metadataHash)
    · exact checkNonEmpty_ok (hfield .sourceHash) (ne_nil_of_hex32 h.sourceHash)
    · exact checkNonEmpty_ok (hfield .timestamp) (isEmpty_false h.timestamp.1)
  · simp only [forall_mem_cons]
    refine ⟨?_,?_,?_,?_,?_,forall_mem_nil _⟩
    · exact checkHex32_ok (hfield .proofId) h.proofId
    · exact checkHex32_ok (hfield .videoHash) h.videoHash
    · exact checkHex32_ok (hfield .metadataHash) h.metadataHash
    · exact checkHex32_ok (hfield .sourceHash) h.sourceHash
    · exact checkHex32_ok (hfield .transactionRef) h.transactionRef

theorem isTier_name (tier : IdentityTier) : isTier tier.name := by
  cases tier <;> decide

theorem scopeAndEpoch_written (horder : Complete order) (h : Acceptable reading input) :
    scopeAndEpoch reading (written ((createProofManifest input).object order)) := by
  have hscope := lookup_written_field (m := createProofManifest input) horder .verifierScope
  have hepoch := lookup_written_field (m := createProofManifest input) horder .epoch
  have hinteger := reading.integer_decimal _ h.epoch_bounds.2
  unfold scopeAndEpoch
  rw [show str "verifierScope" = Field.name .verifierScope from rfl,hscope,
    show str "epoch" = Field.name .epoch from rfl,hepoch]
  show (isScope _ && (reading.integer (decimal (createProofManifest input).epoch)).any _)=true
  rw [h.scope,hinteger]
  simpa using h.epoch_bounds.1

theorem scopeName_written (h : Acceptable reading input) :
    scopeNameValid
      ((written ((createProofManifest input).object order)).lookup (str "scopeName")) := by
  rw [lookup_written_scopeName]
  cases hname : (createProofManifest input).scopeName with
  | none => rfl
  | some name =>
    have hlength := h.name_length hname
    simpa [scopeNameValid] using hlength

theorem disclosure_written : disclosureValid reading
    ((written ((createProofManifest input).object order)).lookup (str "selectiveDisclosure")) =
      input.selectiveDisclosure.isNone := by
  rw [lookup_written_disclosure]
  show disclosureValid reading (input.selectiveDisclosure.map fun _ => .object []) = _
  cases input.selectiveDisclosure with
  | none => rfl
  | some disclosure => rfl

theorem keys_written_supported :
    ((written (m.object order)).map (·.1)).all MANIFEST_FIELDS.contains := by
  rw [List.all_eq_true]
  intro k hk
  have hmem := keys_select_sublist.subset hk
  simpa using mem_keys_object (mem_sortByUnits.1 hmem)

/-- Without a disclosure the reader accepts what is written; with one it does not. -/
theorem checkManifest_written (horder : Complete order) (h : Acceptable reading input) :
    checkManifest reading (written ((createProofManifest input).object order))=.ok () ↔
      input.selectiveDisclosure=none := by
  obtain ⟨hnonempty,hhex⟩ := checks_fields horder h
  have hfield (field : Field) :
      (written ((createProofManifest input).object order)).lookup field.name =
        some ((createProofManifest input).value field) := lookup_written_field horder field
  have hversion : asInteger reading
      ((written ((createProofManifest input).object order)).lookup (str "version"))=some 2 := by
    rw [show str "version" = Field.name .version from rfl,hfield]
    exact reading.integer_decimal 2 (by decide)
  have hprotocol : asString
      ((written ((createProofManifest input).object order)).lookup (str "protocol")) =
        some (str "harpocrates") := by
    rw [show str "protocol" = Field.name .protocol from rfl,hfield]
    rfl
  have htier : (asString
      ((written ((createProofManifest input).object order)).lookup (str "tier"))).any isTier := by
    rw [show str "tier" = Field.name .tier from rfl,hfield]
    exact isTier_name _
  have hdate : (asString ((written ((createProofManifest input).object order)).lookup
      (str "timestamp"))).any reading.isDate := by
    rw [show str "timestamp" = Field.name .timestamp from rfl,hfield]
    exact h.timestamp.2
  simp only [checkManifest,Fallible.unit_bind_ok,Fallible.require_ok,Fallible.forM_ok]
  rw [disclosure_written,isNone_iff_eq_none]
  refine ⟨fun hall => hall.2.2.2.2.2.2.2.2.2,fun hnone => ?_⟩
  refine ⟨keys_written_supported,?_,?_,htier,hnonempty,hhex,hdate,?_,scopeName_written h,hnone⟩
  · simpa using hprotocol
  · rw [hversion]
    rfl
  · rw [hversion,scopeAndEpoch_written horder h]
    rfl

def Built (reading : Reading) (manifest : Manifest) : Prop :=
  ∃ input, Acceptable reading input ∧ ∃ order ∈ [CLI_ORDER,WEB_ORDER],
    manifest = (createProofManifest input).object order

/-- The manifest is read back as it was, and no other one is written like it. -/
def Survives (reading : Reading) (manifest : Manifest) : Prop :=
  (∃ r, parseManifest reading (serializeManifest manifest) = .ok r ∧ Same r manifest) ∧
    ∀ other, Built reading other → serializeManifest other = serializeManifest manifest →
      Same other manifest

theorem complete_of_mem (h : order∈[CLI_ORDER,WEB_ORDER]) : Complete order := by
  simp only [mem_cons,not_mem_nil,or_false] at h
  rcases h with rfl | rfl
  · exact complete_cli
  · exact complete_web

theorem same_of_serialize (horder : Complete order) (horder' : Complete order')
    (hnone : m.selectiveDisclosure=none)
    (h : serializeManifest (m'.object order')=serializeManifest (m.object order)) :
    Same (m'.object order') (m.object order) := by
  have hwritten := written_eq_of_stringifySorted (wellFormed_object horder')
    (wellFormed_object horder) h
  have hnone' : m'.selectiveDisclosure=none := by
    have hlookup : (written (m'.object order')).lookup (str "selectiveDisclosure") = _ :=
      lookup_written_disclosure
    rw [hwritten,lookup_written_disclosure,hnone] at hlookup
    exact map_eq_none_iff.1 hlookup.symm
  intro k
  rw [← same_written horder' hnone',hwritten,same_written horder hnone]

/-- A manifest survives its serialisation exactly if it has no disclosure. -/
theorem manifest_survives_iff (reading : Reading) (input : ManifestInput)
    (h : Acceptable reading input) :
    ∀ order ∈ [CLI_ORDER,WEB_ORDER],
      Survives reading ((createProofManifest input).object order) ↔
        input.selectiveDisclosure = none := by
  intro order hmem
  have horder := complete_of_mem hmem
  have hchecks := checkManifest_written horder h
  constructor
  · rintro ⟨⟨r,hparse,_⟩,_⟩
    rw [parseManifest_serialize horder] at hparse
    apply hchecks.1
    cases hcheck : checkManifest reading (written ((createProofManifest input).object order)) with
    | ok u => rfl
    | error e =>
      rw [hcheck] at hparse
      cases hparse
  · intro hnone
    refine ⟨⟨_,?_,same_written horder hnone⟩,?_⟩
    · rw [parseManifest_serialize horder,hchecks.2 hnone]
      rfl
    · rintro other ⟨input',_,order',hmem',rfl⟩ heq
      exact same_of_serialize horder (complete_of_mem hmem') hnone heq

/-- Whole numbers are read where they are written without fraction and exponent, and every text
counts as a date. -/
def plainReading : Reading where
  integer token := (readInteger token).filter fun n => n.natAbs ≤ MAX_SAFE_INTEGER
  integer_decimal n hn := by
    rw [readInteger_decimal]
    simpa using hn
  isDate _ := true

def digest : JoinedStr := .of
  "aaaaaaaaaaaaaaaaaaaaaaaaaaaaaaaaaaaaaaaaaaaaaaaaaaaaaaaaaaaaaaaa"

def sealInput (selectiveDisclosure : Option SelectiveDisclosure) : ManifestInput where
  proofId := digest
  tier := .seal
  network := .of "testnet"
  contractId := .of "C1"
  transactionRef := digest
  videoHash := digest
  metadataHash := digest
  sourceHash := digest
  timestamp := .of "2026-01-01T00:00:00Z"
  selectiveDisclosure := selectiveDisclosure

def disclosureOf (circuitVersion : Int) : SelectiveDisclosure where
  schemaHash := digest
  publicInputs := .of ""
  predicateCommitment := digest
  circuitVersion := circuitVersion

theorem isHex32_digest : isHex32 digest := by decide

theorem acceptable_seal : ∀ version∈[none,some 1,some 2],
    Acceptable plainReading (sealInput (version.map disclosureOf)) := by
  intro version hversion
  have hnetwork : str "testnet" ≠ [] := by decide
  have hcontract : str "C1" ≠ [] := by decide
  have hdate : str "2026-01-01T00:00:00Z" ≠ [] := by decide
  refine ⟨hnetwork,hcontract,⟨hdate,rfl⟩,isHex32_digest,isHex32_digest,isHex32_digest,
    isHex32_digest,isHex32_digest,?_,?_,?_,?_⟩
  · intro scope h
    cases h
  · intro epoch h
    cases h
  · intro name h
    cases h
  · intro disclosure h
    obtain ⟨circuitVersion,hcircuit,rfl⟩ := map_eq_some_iff.1 h
    refine ⟨isHex32_digest,isHex32_digest,rfl,?_⟩
    simp only [mem_cons,not_mem_nil,or_false] at hversion
    rcases hversion with rfl | rfl | rfl
    · cases hcircuit
    · cases hcircuit
      show (1 : Int).natAbs≤MAX_SAFE_INTEGER
      decide
    · cases hcircuit
      show (2 : Int).natAbs≤MAX_SAFE_INTEGER
      decide

theorem plain_manifest_survives :
    Survives plainReading ((createProofManifest (sealInput none)).object CLI_ORDER) :=
  (manifest_survives_iff plainReading (sealInput none) (acceptable_seal none (by simp)) CLI_ORDER
    (by simp)).2 rfl

def errorOf {α : Type} : Except String α → Option String
  | .ok _ => none
  | .error e => some e

/-- Two manifests whose disclosures differ are acceptable and written alike, and the text is
refused. -/
theorem disclosure_lost :
    Acceptable plainReading (sealInput (some (disclosureOf 1))) ∧
      Acceptable plainReading (sealInput (some (disclosureOf 2))) ∧
      serializeManifest ((createProofManifest (sealInput (some (disclosureOf 1)))).object
          CLI_ORDER) =
        serializeManifest ((createProofManifest (sealInput (some (disclosureOf 2)))).object
          CLI_ORDER) ∧
      errorOf (parseManifest plainReading (serializeManifest
          ((createProofManifest (sealInput (some (disclosureOf 1)))).object CLI_ORDER))) =
        some "manifest selectiveDisclosure is invalid" := by
  refine ⟨acceptable_seal (some 1) (by simp),acceptable_seal (some 2) (by simp),?_,?_⟩
  · decide +kernel
  · decide +kernel

end Harpocrates.Clients
