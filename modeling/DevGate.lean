import DevGate.Coherence.VerificationStaleness
import DevGate.Coherence.EvaluateOrder
import DevGate.Coherence.OverlayMinimums
import DevGate.Coherence.EvaluatorFingerprints
import DevGate.Coherence.EvidenceScrub
import DevGate.Coherence.AttestPromotion
import DevGate.Coherence.CanonFaithful
import DevGate.Coherence.ContainerRelay
import DevGate.Coherence.StoreErrors
import DevGate.Coherence.FileIdentity
import DevGate.Coherence.SubjectIdentity
import DevGate.Coherence.AdvisoryShelter
import DevGate.Coherence.RequestAgreement
import DevGate.Gate.RuleAgreement
import DevGate.Hub.FailedSave
import DevGate.Hub.UniqueNames
import DevGate.Hub.OneTimeTokens
import DevGate.Hub.Revocation
import DevGate.Gate.RegressionScopes
import DevGate.Coherence.ContainerRoots
import DevGate.Hub.CoherenceSilence
import DevGate.Hub.SilencedMonitor
import DevGate.Hub.OneIssuePerKey
import DevGate.Coherence.EvaluateAccounting
import DevGate.Coherence.PlanGraph
import DevGate.Coherence.OverlaySeverity
import DevGate.Hub.ScanView
import DevGate.Gate.MutationCheck
import DevGate.Gate.SpecTraceability
import DevGate.Gate.SecretScan
import DevGate.Coherence.EvidenceValidate
import DevGate.Gate.RegistryEnforced
import DevGate.Gate.RunTests
import DevGate.Coherence.OverlayRollback
import DevGate.Coherence.OverlayCommute
import DevGate.Coherence.AntiRollback
import DevGate.Coherence.VerifierAnswers
import DevGate.Coherence.VerificationRefusal
import DevGate.Coherence.EvaluatorSatisfaction
import DevGate.Coherence.MutationDetection
import DevGate.Coherence.SchemaAgreement
import DevGate.Coherence.CacheErrors
import DevGate.Gate.GlobAgreement
import DevGate.Gate.AddedLines
import DevGate.Coherence.IssuanceRefusal
import DevGate.Coherence.RetentionAgain
import DevGate.Coherence.RetentionWindow
import DevGate.Coherence.LaunchRun
import DevGate.Coherence.LaunchTargets
import DevGate.Coherence.LaunchLimits
import DevGate.Hub.CommentCooldown
import DevGate.Hub.Endpoints
import DevGate.Gate.LineRules
import DevGate.Gate.OverlayLaw
import DevGate.Gate.IgnoreContract
import DevGate.Gate.RegistryOwners
import DevGate.Gate.TraceTotals
import DevGate.Gate.ScaffoldRun
import DevGate.Gate.TestModules
import DevGate.Coherence.RunSemantics
import DevGate.Coherence.RunVerdict
import DevGate.Coherence.BoundSets
import DevGate.Coherence.CacheStore
import DevGate.Coherence.ResultConforms
