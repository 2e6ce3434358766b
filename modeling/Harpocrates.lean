import Harpocrates.Registry.Indexes
import Harpocrates.Registry.CouncilProposals
import Harpocrates.Registry.GovernancePaths
import Harpocrates.Registry.DisputeKeys
import Harpocrates.Registry.ProofLifecycle
import Harpocrates.Registry.DisputeLaws
import Harpocrates.Registry.Roles
import Harpocrates.Registry.IssuerStanding
import Harpocrates.Registry.VerifierRotation
import Harpocrates.Registry.CredentialRootLaws
import Harpocrates.Registry.SourceBatches
import Harpocrates.Registry.RevocationGrace
import Harpocrates.Registry.LineageGraph
import Harpocrates.Registry.Listings
import Harpocrates.Registry.RootEnumeration
import Harpocrates.Registry.TimestampClaims
import Harpocrates.Registry.IssuerQuotas
import Harpocrates.Registry.Permanence
import Harpocrates.Codec.Agreement
import Harpocrates.Codec.Lenient
import Harpocrates.Circuits.SilentWitnessAggregator
import Harpocrates.Circuits.RedactedAncestry
import Harpocrates.Circuits.RevocationWitness
import Harpocrates.Circuits.ArtifactManifest
import Harpocrates.Backend.Ownership
import Harpocrates.Backend.LegalHold
import Harpocrates.Backend.LateConfirmations
import Harpocrates.Backend.AnsweredOnce
import Harpocrates.Backend.RequestIdentity
import Harpocrates.Backend.IndexedOnce
import Harpocrates.Backend.DeliveryOutcomes
import Harpocrates.Backend.Uploads
import Harpocrates.Backend.WithdrawnConsent
import Harpocrates.Backend.StegoRecovery
import Harpocrates.Backend.CachedResults
import Harpocrates.Backend.KeyHistory
import Harpocrates.Backend.JobFiles
import Harpocrates.Backend.EvidenceBlobs
import Harpocrates.Backend.TimeAttestation
import Harpocrates.Backend.EventLifecycle
import Harpocrates.Backend.EventPages
import Harpocrates.Codec.FieldEncoders
import Harpocrates.Clients.ManifestRoundTrip
import Harpocrates.Clients.Verdicts
import Harpocrates.Clients.LineageTree
import Harpocrates.Clients.MetadataHash
import Harpocrates.Clients.DisclosureProver
import Harpocrates.Clients.StegoDecoder
import Harpocrates.Clients.Provenance
import Harpocrates.Clients.OfflineMetadata
import Harpocrates.Clients.LineageManifest
import Harpocrates.Clients.EvidenceMachine
