import KeyAgreement.Agreement
import KeyAgreement.KeyDerivation
import KeyAgreement.Keys.Generation
import KeyAgreement.Keys.Stored
import KeyAgreement.Octets
import KeyAgreement.Parameters.Standard
import KeyAgreement.Proofs.Binding
import KeyAgreement.Proofs.Challenges
import KeyAgreement.Proofs.Confinement
import KeyAgreement.Proofs.Consumption
import KeyAgreement.Proofs.CurveLibrary
import KeyAgreement.Proofs.Endings
import KeyAgreement.Proofs.ExponentLaws
import KeyAgreement.Proofs.Fingerprint
import KeyAgreement.Proofs.FixedWidth
import KeyAgreement.Proofs.FreshKeys
import KeyAgreement.Proofs.KeyForms
import KeyAgreement.Proofs.KeystreamReads
import KeyAgreement.Proofs.OwnSecrets
import KeyAgreement.Proofs.PrimeField
import KeyAgreement.Proofs.Radix
import KeyAgreement.Proofs.RelaxedValidation
import KeyAgreement.Proofs.ResidueClosure
import KeyAgreement.Proofs.ResidueMembership
import KeyAgreement.Proofs.SharedSecret
import KeyAgreement.Proofs.StoredKeys
import KeyAgreement.Proofs.Uniformity
import KeyAgreement.Value.Equality


