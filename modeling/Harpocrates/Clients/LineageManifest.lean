import Harpocrates.Clients.MetadataHash

namespace Harpocrates.Clients.LineageManifest

open Framework Framework.Json Framework.Fallible Backend.Envelope List

structure TransformationManifestInput where
  parentProofIds : List JoinedStr
  operationType : JoinedStr
  parametersDigest : JoinedStr
  toolIdentity : JoinedStr
  toolVersion : JoinedStr
  outputDigest : JoinedStr
  network : JoinedStr
  actorAddress : JoinedStr
  deriving DecidableEq

def SUPPORTED_OPERATIONS : List JoinedStr :=
  [.of "crop",.of "transcode",.of "blur",.of "redact",.of "compose"]

inductive LineageError
  | validation (message : String)
  | typeError
  deriving DecidableEq

def idArray (ids : List JoinedStr) : Json := .array (ids.map fun id => .string id.val)

/-- The object that both sides build of the fields. -/
def manifestObject (input : TransformationManifestInput) : Metadata :=
  [(str "protocol",.string (str "harpocrates")),(str "version",.number (decimal 2)),
    (str "parentProofIds",idArray input.parentProofIds),
    (str "operationType",.string input.operationType),
    (str "parametersDigest",.string input.parametersDigest),
    (str "toolIdentity",.string input.toolIdentity),(str "toolVersion",.string input.toolVersion),
    (str "outputDigest",.string input.outputDigest),(str "network",.string input.network),
    (str "actorAddress",.string input.actorAddress)]

def createTransformationManifest (input : TransformationManifestInput) :
    Except LineageError Metadata :=
  if input.operationType ∈ SUPPORTED_OPERATIONS then .ok (manifestObject input)
  else .error (.validation "Unsupported lineage operation")

def serializeTransformationManifest (manifest : Metadata) : List Char := stringifySorted manifest

def MAX_LINEAGE_FANOUT : Nat := 4

def MAX_LINEAGE_PAYLOAD_BYTES : Nat := 4096

/-- What `str` makes of a JSON value. -/
structure Strings where
  str : Json → JoinedStr
  str_string : ∀ s : JoinedStr, str (.string s) = s

def operationOf (value : Option Json) : Except LineageError JoinedStr :=
  match value,SUPPORTED_OPERATIONS.find? fun operation => asString value = some operation.val with
  -- these cannot be looked up in a set
  | some (.array _),_ => .error .typeError
  | some (.object _),_ => .error .typeError
  | _,some operation => .ok operation
  | _,none => .error (.validation "Unsupported lineage operation")

def parentsOf (strings : Strings) (value : Option Json) : Except LineageError (List JoinedStr) :=
  match value with
  | some (.array items) => do
    require (!items.isEmpty) (.validation "parentProofIds must be a non-empty array")
    require (items.length ≤ MAX_LINEAGE_FANOUT) (.validation "lineage fan-out exceeds limit")
    require (items.all fun item => (asString (some item)).any isHex32)
      (.validation "parentProofIds must contain 32-byte hex values")
    return items.map strings.str
  | _ => .error (.validation "parentProofIds must be a non-empty array")

def REQUIRED_FIELDS : List String :=
  ["operationType","parametersDigest","toolIdentity","toolVersion","outputDigest","network",
    "actorAddress"]

/-- The fields of an accepted manifest. -/
def normalized (strings : Strings) (manifest : Metadata) :
    Except LineageError TransformationManifestInput := do
  let operationType ← operationOf (manifest.lookup (str "operationType"))
  let parentProofIds ← parentsOf strings (manifest.lookup (str "parentProofIds"))
  forM REQUIRED_FIELDS fun field => require (manifest.lookup (str field)).isSome
    (.validation ("missing lineage field: "++field))
  require ((canonicalJson (.object manifest)).length ≤ MAX_LINEAGE_PAYLOAD_BYTES)
    (.validation "lineage manifest is too large")
  let text (field : String) : JoinedStr := strings.str ((manifest.lookup (str field)).getD .null)
  return {
    parentProofIds
    operationType
    parametersDigest := text "parametersDigest"
    toolIdentity := text "toolIdentity"
    toolVersion := text "toolVersion"
    outputDigest := text "outputDigest"
    network := text "network"
    actorAddress := text "actorAddress" }

def canonicalForm (input : TransformationManifestInput) : List Char :=
  render writeAscii (ordered (.object (manifestObject input)))

def canonicalLineageManifest (strings : Strings) (manifest : Metadata) :
    Except LineageError (List Char) :=
  (normalized strings manifest).map canonicalForm

def digestOf {δ : Type} (hexdigest : Bytes → δ) (text : List Char) : δ :=
  hexdigest (Python.encode text)

def lineageManifestDigest {δ : Type} (hexdigest : Bytes → δ) (strings : Strings)
    (manifest : Metadata) : Except LineageError δ :=
  (canonicalLineageManifest strings manifest).map (digestOf hexdigest)

/-- The text that the browser writes of the fields. -/
def browserForm (input : TransformationManifestInput) : Except LineageError (List Char) :=
  (createTransformationManifest input).map serializeTransformationManifest

def texts (input : TransformationManifestInput) : List JoinedStr :=
  [input.actorAddress,input.network,input.operationType,input.outputDigest,input.parametersDigest,
    input.toolIdentity,input.toolVersion]++input.parentProofIds

/-- The object with its keys in order. -/
def sortedObject (input : TransformationManifestInput) : Metadata :=
  [(str "actorAddress",.string input.actorAddress),(str "network",.string input.network),
    (str "operationType",.string input.operationType),
    (str "outputDigest",.string input.outputDigest),
    (str "parametersDigest",.string input.parametersDigest),
    (str "parentProofIds",idArray input.parentProofIds),
    (str "protocol",.string (str "harpocrates")),(str "toolIdentity",.string input.toolIdentity),
    (str "toolVersion",.string input.toolVersion),(str "version",.number (decimal 2))]

variable {input input' : TransformationManifestInput} {strings : Strings} {manifest : Metadata}

theorem isValue_idArray (ids : List JoinedStr) : IsValue (idArray ids) := by
  constructor
  · exact wellFormedItems_iff.2 (forall_mem_map.2 fun id _ => id.2)
  · exact sortedItems_iff.2 (forall_mem_map.2 fun _ _ => trivial)

theorem everywhere_idArray {p : Json → Prop} (ids : List JoinedStr) :
    Everywhere p (idArray ids) ↔ p (idArray ids) ∧ ∀ id∈ids, p (.string id.val) := by
  rw [idArray,Everywhere,everywhereItems_iff,forall_mem_map]
  rfl

def FIELDS : List String :=
  ["actorAddress","network","operationType","outputDigest","parametersDigest","parentProofIds",
    "protocol","toolIdentity","toolVersion","version"]

theorem isValue_sortedObject (input : TransformationManifestInput) :
    IsValue (.object (sortedObject input)) := by
  have hids := isValue_idArray input.parentProofIds
  refine ⟨⟨?_,?_⟩,?_,?_⟩
  · show (FIELDS.map str).Nodup
    decide
  · exact ⟨joined_str _,input.actorAddress.2,joined_str _,input.network.2,joined_str _,
      input.operationType.2,joined_str _,input.outputDigest.2,joined_str _,
      input.parametersDigest.2,joined_str _,hids.1,joined_str _,joined_str _,joined_str _,
      input.toolIdentity.2,joined_str _,input.toolVersion.2,joined_str _,isToken_decimal 2,trivial⟩
  · rw [← pairwise_map (f := fun e : Str × Json => e.1) (R := fun a b => codes a<codes b)]
    show (FIELDS.map str).Pairwise fun a b => codes a<codes b
    decide
  · exact ⟨trivial,trivial,trivial,trivial,trivial,hids.2,trivial,trivial,trivial,trivial,trivial⟩

theorem ordered_manifestObject :
    ordered (.object (manifestObject input))=.object (sortedObject input) := by
  have hids := ordered_eq_self (isValue_idArray input.parentProofIds).2
  simp only [ordered,manifestObject,orderedEntries,hids]
  rfl

theorem stringify_manifestObject :
    stringifySorted (manifestObject input)=stringifySorted (sortedObject input) := by
  have hkeys : sortByUnits ((manifestObject input).map (·.1))=FIELDS.map str := by
    show sortByUnits (["protocol","version","parentProofIds","operationType","parametersDigest",
      "toolIdentity","toolVersion","outputDigest","network","actorAddress"].map str) = _
    decide +kernel
  have hsorted : sortByUnits ((sortedObject input).map (·.1))=FIELDS.map str := by
    show sortByUnits (FIELDS.map str) = _
    decide +kernel
  rw [stringifySorted,stringifySorted,hkeys,hsorted]
  rfl

theorem held_sortedObject : held verbatim (sortedObject input)=sortedObject input := by
  have hids (ids : List JoinedStr) : reprint verbatim.print (idArray ids)=idArray ids := by
    rw [idArray,reprint,reprintItems_eq_map,map_map]
    rfl
  simp only [held,sortedObject,reprintEntries,hids]
  rfl

theorem writtenAlike_iff :
    WrittenAlike verbatim (sortedObject input) ↔ ∀ text∈texts input, isPlain text := by
  have hids (p : Json → Prop) := everywhere_idArray (p := p) input.parentProofIds
  simp only [texts,forall_mem_append,forall_mem_cons]
  constructor
  · rintro ⟨⟨-,ha,hn,ho,hd,hp,hparents,-,hi,hv,-⟩,-⟩
    exact ⟨⟨ha,hn,ho,hd,hp,hi,hv,fun _ h => (nomatch h)⟩,((hids _).1 hparents).2⟩
  · rintro ⟨⟨ha,hn,ho,hd,hp,hi,hv,-⟩,hparents⟩
    constructor
    · exact ⟨rfl,ha,hn,ho,hd,hp,(hids _).2 ⟨rfl,hparents⟩,rfl,hi,hv,rfl,trivial⟩
    · have hkeys : ∀ e∈sortedObject input, e.1∈(sortedObject input).map (·.1) :=
        fun e he => mem_map_of_mem he
      exact ⟨⟨hkeys,id⟩,trivial,trivial,trivial,trivial,trivial,
        (hids _).2 ⟨trivial,fun _ _ => trivial⟩,trivial,trivial,trivial,rfl,trivial⟩

theorem serialize_eq_iff : stringifySorted (manifestObject input)=canonicalForm input ↔
    ∀ text∈texts input, isPlain text := by
  have hforms : stringifySorted (held verbatim (sortedObject input)) = _ ↔ _ :=
    stringified_eq_iff (isValue_sortedObject input)
  rw [held_sortedObject,ordered_eq_self (isValue_sortedObject input).2] at hforms
  rw [stringify_manifestObject,canonicalForm,ordered_manifestObject,hforms,writtenAlike_iff]

theorem canonicalForm_injective : Function.Injective canonicalForm := by
  intro input input' h
  rw [canonicalForm,canonicalForm,ordered_manifestObject,ordered_manifestObject] at h
  have hobject := render_inj readable_writeAscii readable_writeAscii (isValue_sortedObject input).1
    (isValue_sortedObject input').1 h
  have hids : Function.Injective fun id : JoinedStr => Json.string id.val :=
    fun id id' hid => Subtype.ext (Json.string.inj hid)
  simp only [sortedObject,Json.object.injEq,List.cons.injEq,Prod.mk.injEq,true_and,and_true,
    Json.string.injEq,idArray,Json.array.injEq,Subtype.val_inj] at hobject
  obtain ⟨ha,hn,ho,hd,hp,hparents,hi,hv⟩ := hobject
  have hlists := map_injective_iff.2 hids hparents
  cases input
  cases input'
  simp_all

theorem operationOf_ok {value : Option Json} {operation : JoinedStr}
    (h : operationOf value=.ok operation) : operation∈SUPPORTED_OPERATIONS := by
  unfold operationOf at h
  split at h
  · cases h
  · cases h
  · rename_i hfind
    cases h
    exact mem_of_find?_eq_some hfind
  · cases h

theorem supported_of_normalized (h : normalized strings manifest=.ok input) :
    input.operationType∈SUPPORTED_OPERATIONS := by
  unfold normalized at h
  obtain ⟨operation,hoperation,h⟩ := bind_ok.1 h
  obtain ⟨parents,-,h⟩ := bind_ok.1 h
  obtain ⟨-,h⟩ := unit_bind_ok.1 h
  obtain ⟨-,h⟩ := unit_bind_ok.1 h
  cases h
  exact operationOf_ok hoperation

/-- The browser's text of an accepted manifest, and so its digest, is the backend's exactly where
no string has a character above `~`; the canonical form tells the fields apart. -/
theorem lineage_manifest_forms_iff {δ : Type} {hexdigest : Bytes → δ}
    (hinj : Function.Injective hexdigest) (h : normalized strings manifest = .ok input) :
    (browserForm input = canonicalLineageManifest strings manifest ↔
        ∀ text ∈ texts input, isPlain text) ∧
      ((browserForm input).map (digestOf hexdigest) =
          lineageManifestDigest hexdigest strings manifest ↔
        ∀ text ∈ texts input, isPlain text) ∧
      ∀ manifest' input', normalized strings manifest' = .ok input' →
        canonicalLineageManifest strings manifest = canonicalLineageManifest strings manifest' →
          input = input' := by
  have hbrowser : browserForm input=.ok (stringifySorted (manifestObject input)) := by
    rw [browserForm,createTransformationManifest,if_pos (supported_of_normalized h)]
    rfl
  have hcanonical {m i} (hm : normalized strings m=.ok i) :
      canonicalLineageManifest strings m=.ok (canonicalForm i) := by
    rw [canonicalLineageManifest,hm]
    rfl
  rw [lineageManifestDigest,hbrowser,hcanonical h]
  refine ⟨?_,?_,fun manifest' input' h' heq => ?_⟩
  · rw [Except.ok.injEq,serialize_eq_iff]
  · rw [← serialize_eq_iff]
    constructor
    · intro heq
      exact Python.encode_injective (hinj (Except.ok.inj heq))
    · intro heq
      rw [heq]
  · rw [hcanonical h'] at heq
    exact canonicalForm_injective (Except.ok.inj heq)

instance (s : Str) : Decidable (Joined s) :=
  inferInstanceAs (Decidable (s.IsChain fun a b => ¬ (a.isHigh ∧ b.isLow)))

/-- Strings are kept; what other values become does not matter here. -/
def onlyStrings : Strings where
  str v :=
    match v with
    | .string s => if h : Joined s then ⟨s,h⟩ else .of ""
    | _ => .of ""
  str_string s := dif_pos s.2

def sampleInput (tool : String) : TransformationManifestInput where
  parentProofIds := [.of (String.ofList (List.replicate 64 'a'))]
  operationType := .of "crop"
  parametersDigest := .of "c"
  toolIdentity := .of tool
  toolVersion := .of "1.2.3"
  outputDigest := .of "d"
  network := .of "testnet"
  actorAddress := .of "GABC123"

theorem ascii_manifest_one_form : normalized onlyStrings (manifestObject (sampleInput "studio")) =
      .ok (sampleInput "studio") ∧
    browserForm (sampleInput "studio") =
      canonicalLineageManifest onlyStrings (manifestObject (sampleInput "studio")) := by
  have haccepted : normalized onlyStrings (manifestObject (sampleInput "studio")) =
      .ok (sampleInput "studio") := by
    decide +kernel
  exact ⟨haccepted,(lineage_manifest_forms_iff Function.injective_id haccepted).1.2 (by decide)⟩

/-- An accepted manifest whose tool has a letter outside ASCII in its name. -/
theorem accented_tool_two_forms : normalized onlyStrings (manifestObject (sampleInput "é")) =
      .ok (sampleInput "é") ∧
    serializeTransformationManifest (manifestObject (sampleInput "é")) ≠
      canonicalForm (sampleInput "é") := by
  constructor <;> decide +kernel

end Harpocrates.Clients.LineageManifest
