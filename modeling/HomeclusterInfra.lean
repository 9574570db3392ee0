import HomeclusterInfra.Library.Regex
import HomeclusterInfra.Library.JsonText
import HomeclusterInfra.NasLogs.Rotation
import HomeclusterInfra.NasLogs.Delivery
import HomeclusterInfra.Library.Ascending
import HomeclusterInfra.NasLogs.Timestamps
import HomeclusterInfra.PxeCatalog.Catalog
import HomeclusterInfra.PxeCatalog.Storage
import HomeclusterInfra.PxeCatalog.RoleStorage
import HomeclusterInfra.PxeCatalog.DiskSafety
import HomeclusterInfra.Convergence.Collector
import HomeclusterInfra.Convergence.Evidence
import HomeclusterInfra.Rollout.Records
import HomeclusterInfra.Rollout.Policy
import HomeclusterInfra.Rollout.Main
import HomeclusterInfra.Rollout.AfterMutation
import HomeclusterInfra.Rollout.Recommendation
import HomeclusterInfra.Rollout.Retries
import HomeclusterInfra.Rollout.ForwardRuns
import HomeclusterInfra.Rollout.CanaryOrder
import HomeclusterInfra.Rollout.StagingFleet
import HomeclusterInfra.Library.Writes
import HomeclusterInfra.Tftp.Boards
import HomeclusterInfra.Tftp.Selectors
import HomeclusterInfra.Tftp.AppliedSelector
import HomeclusterInfra.Tftp.RollbackSelectors
import HomeclusterInfra.Tftp.LiveReaders
import HomeclusterInfra.Library.Increases
import HomeclusterInfra.NasSmart.Collector
import HomeclusterInfra.NasSmart.Increments
import HomeclusterInfra.Library.Formats
import HomeclusterInfra.Library.Numerals
import HomeclusterInfra.NasLogs.SnapshotFormat
import HomeclusterInfra.NasLogs.SnapshotWriter
import HomeclusterInfra.Library.Rounding
import HomeclusterInfra.Library.DecimalText
import HomeclusterInfra.Library.JsonReader
import HomeclusterInfra.Library.JsonLengths
import HomeclusterInfra.Library.JsonObject
import HomeclusterInfra.NasLogs.StateDocument
import HomeclusterInfra.NasLogs.Outbound
import HomeclusterInfra.Library.DyadicBlocks
import HomeclusterInfra.Library.Ipv4
import HomeclusterInfra.BanipProof.FeedProof
import HomeclusterInfra.BanipProof.Coverage
import HomeclusterInfra.Library.Shell
import HomeclusterInfra.Library.JsonBytes
import HomeclusterInfra.RoleEnv.Writer
import HomeclusterInfra.RoleEnv.OptionValue
import HomeclusterInfra.PxeReceipt.Declaration
import HomeclusterInfra.Library.NamedTree
import HomeclusterInfra.Library.CanonicalJson
import HomeclusterInfra.PxeReceipt.Fingerprint
import HomeclusterInfra.PxeReceipt.TreeBudgets
import HomeclusterInfra.PxeReceipt.TreeIdentity
import HomeclusterInfra.Library.Calendar
import HomeclusterInfra.Library.JsonSizes
import HomeclusterInfra.PxeReceipt.Contract
import HomeclusterInfra.PxeReceipt.Reader
import HomeclusterInfra.PxeReceipt.Producer
import HomeclusterInfra.PxeReceipt.Agreement
import HomeclusterInfra.PxeReceipt.Comparison
import HomeclusterInfra.PxeReceipt.Publication
import HomeclusterInfra.PxeReceipt.PublishedOnce
import HomeclusterInfra.Library.Nested
import HomeclusterInfra.Library.PyEquality
import HomeclusterInfra.PxeCatalog.GroupVars
import HomeclusterInfra.PxeCatalog.SharedInputs
import HomeclusterInfra.PxeCatalog.DhcpLists
import HomeclusterInfra.SecurityCapture.Pcap
import HomeclusterInfra.K3sBackup.Backup
import HomeclusterInfra.K3sBackup.Mounts
import HomeclusterInfra.K3sStorage.IdentityDisk
import HomeclusterInfra.PxeReceipt.Observation
import HomeclusterInfra.NasSmart.SnapshotRoundTrip
import HomeclusterInfra.NasLogs.Truncation
import HomeclusterInfra.NasLogs.Polling
import HomeclusterInfra.NasLogs.Draining
import HomeclusterInfra.NasLogs.Suppression
import HomeclusterInfra.KernelBuild.Cleanup
import HomeclusterInfra.KernelBuild.GateRevision
import HomeclusterInfra.OutsideIn.Site
import HomeclusterInfra.OutsideIn.Endpoints
import HomeclusterInfra.PackageTask.Conversion
import HomeclusterInfra.HostTailscale.Guard
import HomeclusterInfra.Library.Ranking
import HomeclusterInfra.Convergence.InventoryTargets
import HomeclusterInfra.GentooRootfs.EepromConfig
import HomeclusterInfra.GentooRootfs.SshHostKeys
import HomeclusterInfra.HelmMetadata.Summary
import HomeclusterInfra.K3sObservability.ApplyWait
import HomeclusterInfra.K3sStorage.NodePassword
import HomeclusterInfra.Tftp.RootfsPrune
import HomeclusterInfra.Tftp.UnusedRootfs
import HomeclusterInfra.K3sObservability.ReceiptAgreement
import HomeclusterInfra.SecurityCapture.Delivery
import HomeclusterInfra.AnsiblePull.SourcePin
import HomeclusterInfra.RoleEnv.Readers
import HomeclusterInfra.BanipProof.Monitor
import HomeclusterInfra.BanipProof.StoreFrozen
