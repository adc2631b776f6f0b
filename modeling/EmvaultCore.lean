import EmvaultCore.Library.Runs
import EmvaultCore.VerifyOutputs
import EmvaultCore.TaprootOrder
import EmvaultCore.FederationBuild
import EmvaultCore.PolicyIssue
import EmvaultCore.RecoveryCommand
import EmvaultCore.SignatureOrder
import EmvaultCore.InputSignatures
import EmvaultCore.DescriptorHistory
import EmvaultCore.AccountOrder
import EmvaultCore.FeeOverflow
import EmvaultCore.SweepChain
import EmvaultCore.RepeatedAccounts
import EmvaultCore.GroundTruth
import EmvaultCore.EvictionReport
import EmvaultCore.PersistedSync
import EmvaultCore.QuietSync
import EmvaultCore.RebuildShapes
import EmvaultCore.RosterSpecification
import EmvaultCore.StrandedVersions
import EmvaultCore.BuilderCalls
import EmvaultCore.Attribution
import EmvaultCore.UnsignedSession
import EmvaultCore.SnapshotVerify
import EmvaultCore.SnapshotReading
import EmvaultCore.CombineOrder
import EmvaultCore.MemberHistory
import EmvaultCore.RosterLog
import EmvaultCore.SweepCosts
import EmvaultCore.SyncHistory
import EmvaultCore.SweepBroadcast
import EmvaultCore.MutationVerdict
