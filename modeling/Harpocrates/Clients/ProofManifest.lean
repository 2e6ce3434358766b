import Harpocrates.Framework.JsonKeys
import Harpocrates.Framework.Fallible

namespace Harpocrates.Clients

open Framework Framework.Json Framework.Fallible

/-! Proof manifests: how the web client and the command line build and write them, and how the
command line reads them. -/

inductive IdentityTier
  | silent | source | seal
  deriving DecidableEq

def IdentityTier.name : IdentityTier → Str
  | .silent => str "silent"
  | .source => str "source"
  | .seal => str "seal"

structure SelectiveDisclosure where
  schemaHash : JoinedStr
  publicInputs : JoinedStr
  predicateCommitment : JoinedStr
  circuitVersion : Int

structure ManifestInput where
  proofId : JoinedStr
  tier : IdentityTier
  network : JoinedStr
  contractId : JoinedStr
  transactionRef : JoinedStr
  videoHash : JoinedStr
  metadataHash : JoinedStr
  sourceHash : JoinedStr
  timestamp : JoinedStr
  verifierScope : Option JoinedStr := none
  epoch : Option Int := none
  scopeName : Option JoinedStr := none
  selectiveDisclosure : Option SelectiveDisclosure := none

/-- A manifest as the two clients build it; the protocol is always the same. -/
structure ProofManifest where
  contractId : JoinedStr
  metadataHash : JoinedStr
  network : JoinedStr
  proofId : JoinedStr
  sourceHash : JoinedStr
  tier : IdentityTier
  timestamp : JoinedStr
  transactionRef : JoinedStr
  version : Int
  videoHash : JoinedStr
  verifierScope : JoinedStr
  epoch : Int
  scopeName : Option JoinedStr
  selectiveDisclosure : Option SelectiveDisclosure

def MANIFEST_VERSION : Int := 2

def createProofManifest (input : ManifestInput) : ProofManifest where
  contractId := input.contractId
  metadataHash := input.metadataHash
  network := input.network
  proofId := input.proofId
  sourceHash := input.sourceHash
  tier := input.tier
  timestamp := input.timestamp
  transactionRef := input.transactionRef
  version := MANIFEST_VERSION
  videoHash := input.videoHash
  verifierScope := input.verifierScope.getD (.of "0")
  epoch := input.epoch.getD 0
  -- an empty name counts as none
  scopeName := input.scopeName.filter fun name => !name.val.isEmpty
  selectiveDisclosure := input.selectiveDisclosure

/-- The fields that every manifest has. -/
inductive Field
  | contractId | metadataHash | network | proofId | protocol | sourceHash | tier | timestamp
  | transactionRef | version | videoHash | verifierScope | epoch
  deriving DecidableEq

def Field.name : Field → Str
  | .contractId => str "contractId"
  | .metadataHash => str "metadataHash"
  | .network => str "network"
  | .proofId => str "proofId"
  | .protocol => str "protocol"
  | .sourceHash => str "sourceHash"
  | .tier => str "tier"
  | .timestamp => str "timestamp"
  | .transactionRef => str "transactionRef"
  | .version => str "version"
  | .videoHash => str "videoHash"
  | .verifierScope => str "verifierScope"
  | .epoch => str "epoch"

def ProofManifest.value (m : ProofManifest) : Field → Json
  | .contractId => .string m.contractId
  | .metadataHash => .string m.metadataHash
  | .network => .string m.network
  | .proofId => .string m.proofId
  | .protocol => .string (str "harpocrates")
  | .sourceHash => .string m.sourceHash
  | .tier => .string m.tier.name
  | .timestamp => .string m.timestamp
  | .transactionRef => .string m.transactionRef
  | .version => .number (decimal m.version)
  | .videoHash => .string m.videoHash
  | .verifierScope => .string m.verifierScope
  | .epoch => .number (decimal m.epoch)

def SelectiveDisclosure.entries (disclosure : SelectiveDisclosure) : List (Str × Json) :=
  [(str "schemaHash",.string disclosure.schemaHash),
    (str "publicInputs",.string disclosure.publicInputs),
    (str "predicateCommitment",.string disclosure.predicateCommitment),
    (str "circuitVersion",.number (decimal disclosure.circuitVersion))]

abbrev Manifest := List (Str × Json)

/-- The object, whose fields are set in the given order; two of them only where they are given. -/
def ProofManifest.object (m : ProofManifest) (order : List Field) : Manifest :=
  order.map (fun field => (field.name,m.value field))++
    (m.scopeName.map fun name : JoinedStr => (str "scopeName",Json.string name)).toList++
    (m.selectiveDisclosure.map fun disclosure =>
      (str "selectiveDisclosure",Json.object disclosure.entries)).toList

def CLI_ORDER : List Field :=
  [.contractId,.metadataHash,.network,.proofId,.protocol,.sourceHash,.tier,.timestamp,
    .transactionRef,.version,.videoHash,.verifierScope,.epoch]

def WEB_ORDER : List Field :=
  [.protocol,.version,.proofId,.tier,.network,.contractId,.transactionRef,.videoHash,.metadataHash,
    .sourceHash,.timestamp,.verifierScope,.epoch]

def serializeManifest (manifest : Manifest) : List Char := stringifySorted manifest

def MANIFEST_FIELDS : List Str :=
  [str "contractId",str "metadataHash",str "network",str "proofId",str "protocol",str "sourceHash",
    str "tier",str "timestamp",str "transactionRef",str "version",str "videoHash",
    str "verifierScope",str "epoch",str "scopeName",str "selectiveDisclosure"]

def DISCLOSURE_FIELDS : List Str :=
  [str "schemaHash",str "publicInputs",str "predicateCommitment",str "circuitVersion"]

def isDigitPoint : Point → Bool
  | .char c => c.isDigit
  | .surrogate _ => false

def isScope (s : Str) : Bool :=
  s = str "0" || (!s.isEmpty && s.head? ≠ some (.char '0') && s.all isDigitPoint)

def length16 (s : Str) : Nat := (units s).length

def MAX_SAFE_INTEGER : Nat := 9007199254740991

/-- How numbers and dates are read: the safe integer that a number is, if it is one, and whether
`Date.parse` understands a text. -/
structure Reading where
  integer : List Char → Option Int
  integer_decimal : ∀ n : Int, n.natAbs ≤ MAX_SAFE_INTEGER → integer (decimal n) = some n
  isDate : Str → Bool

variable (reading : Reading)

def asInteger : Option Json → Option Int
  | some (.number token) => reading.integer token
  | _ => none

def checkNonEmpty (m : Manifest) (field : String) : Except String Unit :=
  require ((asString (m.lookup (str field))).any fun s => !s.isEmpty)
    ("manifest."++field++" must be a non-empty string")

def checkHex32 (m : Manifest) (field : String) : Except String Unit :=
  require ((asString (m.lookup (str field))).any isHex32)
    ("manifest."++field++" must be a 32-byte hex string")

def isTier (tier : Str) : Bool :=
  tier = str "silent" || tier = str "source" || tier = str "seal"

def scopeAndEpoch (m : Manifest) : Bool :=
  (asString (m.lookup (str "verifierScope"))).any isScope &&
    (asInteger reading (m.lookup (str "epoch"))).any fun epoch => 0 ≤ epoch

def scopeNameValid : Option Json → Bool
  | none => true
  | some (.string s) => length16 s ≤ 128
  | _ => false

def disclosureValid : Option Json → Bool
  | none => true
  | some (.object proof) =>
    (proof.map (·.1)).all DISCLOSURE_FIELDS.contains &&
      (asString (proof.lookup (str "schemaHash"))).any isHex32 &&
      (asString (proof.lookup (str "predicateCommitment"))).any isHex32 &&
      (asString (proof.lookup (str "publicInputs"))).any (fun s => s.all isHexPoint) &&
      (asInteger reading (proof.lookup (str "circuitVersion"))).isSome
  | _ => false

def checkManifest (m : Manifest) : Except String Unit := do
  require ((m.map (·.1)).all MANIFEST_FIELDS.contains) "manifest contains unsupported fields"
  require (asString (m.lookup (str "protocol")) = some (str "harpocrates"))
    "manifest protocol must be \"harpocrates\""
  let version := asInteger reading (m.lookup (str "version"))
  require (version = some 1 || version = some MANIFEST_VERSION) "unsupported manifest version"
  require ((asString (m.lookup (str "tier"))).any isTier)
    "manifest tier must be one of: silent, source, seal"
  forM ["proofId","network","contractId","transactionRef","videoHash","metadataHash","sourceHash",
    "timestamp"] (checkNonEmpty m)
  forM ["proofId","videoHash","metadataHash","sourceHash","transactionRef"] (checkHex32 m)
  require ((asString (m.lookup (str "timestamp"))).any reading.isDate)
    "manifest.timestamp must be a valid date"
  require (version ≠ some 2 || scopeAndEpoch reading m) "manifest scope or epoch is invalid"
  require (scopeNameValid (m.lookup (str "scopeName"))) "manifest scopeName is invalid"
  require (disclosureValid reading (m.lookup (str "selectiveDisclosure")))
    "manifest selectiveDisclosure is invalid"

/-- The object that was read is returned as it is. -/
def parseManifest (json : List Char) : Except String Manifest :=
  match parse json with
  | none => .error "manifest is not valid JSON"
  | some (.object m) => (checkManifest reading m).map fun _ => m
  | some _ => .error "manifest must be a JSON object"

end Harpocrates.Clients
