import Snip.Lib.HashTree
import Snip.Lib.Ledger
import Snip.Lib.Lru
import Snip.Lib.Chan
import Snip.Lib.Steps
import Snip.Lib.Maps
import Snip.Lib.LineFile
import Snip.Lib.Transcript
import Snip.Lib.Dialogue
import Snip.Lib.Lists
import Snip.Lib.Attempts
import Snip.Lib.Stages
import Snip.Lib.Tables
import Snip.Basic
import Snip.Blake3
import Snip.Crypto
import Snip.CryptoReference
import Snip.Store.Merkle
import Snip.Store.Manifest
import Snip.Store.SumStore
import Snip.Store.Assignment
import Snip.Store.Chunker
import Snip.Store.Fetch
import Snip.Store.Publication
import Snip.Store.Sidecar
import Snip.Store.IndexOps
import Snip.Store.GcList
import Snip.Store.Serve
import Snip.Net.Events
import Snip.Net.Codec
import Snip.Net.Correlation
import Snip.Net.Policy
import Snip.Net.Swarm
import Snip.Node.PushValidator
import Snip.Node.InboundV2
import Snip.Node.MarketSync
import Snip.Node.Archive
import Snip.Node.IngestV2
import Snip.Node.V2Routing
import Snip.Node.DownloadV2
import Snip.Node.DownloadPrivate
import Snip.Node.DownloadV1
import Snip.Node.GcHistory
import Snip.Node.Acl
import Snip.Node.PrivateArtifacts
import Snip.Node.PorWorker
import Snip.Node.Reassign
import Snip.Node.ShardDispatch
import Snip.Node.PrivateManifestFetch
import Snip.Node.Refetch
import Snip.Node.TxBuilder
import Snip.Node.Attestor
import Snip.Node.EpochWatcher
import Snip.Node.PeerDiscovery
import Snip.Node.MissingIndices
import Snip.Node.RefetchRun
import Snip.Node.Deliveries
import Snip.Node.RepairAudit
import Snip.Node.Access
import Snip.Node.PrivateDownload
import Snip.Node.RootText
import Snip.Node.PrivateCalls
import Snip.Node.Rebuild
import Snip.Node.Targets
import Snip.Node.Repush
import Snip.Node.Ingest
import Snip.Node.IngestStages
import Snip.Node.IngestRun
import Snip.Proofs.Merkle
import Snip.Proofs.ContentId
import Snip.Proofs.Manifest
import Snip.Proofs.PushValidator
import Snip.Proofs.SumStore
import Snip.Proofs.Archive
import Snip.Proofs.Acceptance
import Snip.Proofs.PorAnswer
import Snip.Proofs.Attestation
import Snip.Proofs.PushTargets
import Snip.Proofs.PushWave
import Snip.Proofs.PushLoss
import Snip.Proofs.Chunker
import Snip.Proofs.DownloadV2
import Snip.Proofs.ChunkStates
import Snip.Proofs.PublicFetch
import Snip.Proofs.PrivateFetch
import Snip.Proofs.V1Fetch
import Snip.Proofs.Publication
import Snip.Proofs.Sidecar
import Snip.Proofs.IndexOps
import Snip.Proofs.GcHistory
import Snip.Proofs.Assignment
import Snip.Proofs.PushCaches
import Snip.Proofs.Codec
import Snip.Proofs.Fetch
import Snip.Proofs.ManifestPush
import Snip.Proofs.Acl
import Snip.Proofs.Correlation
import Snip.Proofs.Policy
import Snip.Proofs.PrivateArtifacts
import Snip.Proofs.PorWorker
import Snip.Proofs.Reassign
import Snip.Proofs.ShardDispatch
import Snip.Proofs.ManifestFanout
import Snip.Proofs.Refetch
import Snip.Proofs.MarketAssignment
import Snip.Proofs.GcGrace
import Snip.Proofs.GcSeed
import Snip.Proofs.SidecarRewrite
import Snip.Proofs.Attestor
import Snip.Proofs.EpochWatcher
import Snip.Proofs.PushRetry
import Snip.Proofs.PeerDiscovery
import Snip.Proofs.MissingIndices
import Snip.Proofs.RefetchRun
import Snip.Proofs.FrameSize
import Snip.Proofs.RepairAudit
import Snip.Proofs.Access
import Snip.Proofs.PrivateDownload
import Snip.Proofs.ArchiveTurns
import Snip.Proofs.RootText
import Snip.Proofs.PrivateCalls
import Snip.Proofs.RepushRound
import Snip.Proofs.RepushChunks
import Snip.Proofs.RepushManifests
import Snip.Proofs.Rebuild
import Snip.Proofs.Repush
import Snip.Proofs.IngestStages
import Snip.Proofs.IngestPushes
import Snip.Proofs.IngestEvidence
import Snip.Proofs.IngestOutcomes
import Snip.Proofs.IngestRun
import Snip.Proofs.IngestResume
import Snip.Proofs.ChunkPushes
import Snip.Proofs.IngestCooperation
import Snip.Proofs.IngestWaits
import Snip.Proofs.IngestProgress
import Snip.Proofs.IngestRepair
import Snip.Proofs.IngestReports
import Snip.Proofs.IngestPlacement
import Snip.Proofs.ResumeDelivery
import Snip.Proofs.PushRouting
import Snip.Proofs.PushAgreement
import Snip.Proofs.Swarm
import Snip.Proofs.Mesh
