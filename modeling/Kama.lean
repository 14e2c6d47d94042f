import Kama.Foundations.Machine
import Kama.Foundations.Reader
import Kama.Foundations.Program
import Kama.Foundations.Trace
import Kama.Foundations.Ensures
import Kama.Foundations.Api
import Kama.Foundations.FileTree
import Kama.Foundations.FsCalls
import Kama.Foundations.Inode
import Kama.Foundations.Host
import Kama.Foundations.Removal
import Kama.Foundations.Disk
import Kama.Foundations.Bytes
import Kama.Foundations.Sha256
import Kama.Foundations.Utf8
import Kama.Foundations.Json
import Kama.Foundations.JsonStable
import Kama.Foundations.PathMatch
import Kama.Foundations.Regex
import Kama.Foundations.BufferedReader
import Kama.Foundations.SortedSet
import Kama.Runtime.State
import Kama.Runtime.Config
import Kama.Runtime.Paths
import Kama.Runtime.Supervisor
import Kama.Runtime.Draining
import Kama.Runtime.Phases
import Kama.Runtime.Evidence
import Kama.Runtime.LogLine
import Kama.Runtime.Accelerator
import Kama.Runtime.LogFraming
import Kama.Runtime.InFlight
import Kama.Artifact.Basic
import Kama.Artifact.Descriptors
import Kama.Artifact.OperationLock
import Kama.Artifact.Cleanup
import Kama.Artifact.DiskPaths
import Kama.Artifact.DiskFiles
import Kama.Artifact.Levels
import Kama.Artifact.SyncTree
import Kama.Artifact.Manifest
import Kama.Artifact.Gguf
import Kama.Artifact.Accepted
import Kama.Artifact.Selection
import Kama.Artifact.ImporterSpec
import Kama.Artifact.Result
import Kama.Artifact.Storage
import Kama.Artifact.Content
import Kama.Artifact.Invariant
import Kama.Artifact.Visibility
import Kama.Artifact.Staged
import Kama.Artifact.Canonical
import Kama.Artifact.ImportCalls
import Kama.Artifact.ProbeResidue
import Kama.Artifact.Hub
import Kama.Artifact.Importer
import Kama.Artifact.Preflight
import Kama.Artifact.Shards
import Kama.Artifact.GgufStream
import Kama.Artifact.GgufWriter
import Kama.Controller.Basic
import Kama.Controller.Lease
import Kama.Controller.LeaseExclusion
import Kama.Controller.Volume
import Kama.Controller.NodeAffinity
import Kama.Controller.SelectorConstraints
import Kama.Controller.AffinityExact
import Kama.Controller.AffinityNormal
import Kama.Controller.AffinityCompatible
import Kama.Controller.ModelArtifact
import Kama.Controller.ArtifactStatus
import Kama.Controller.Admission
import Kama.Controller.Importable
import Kama.Controller.Cluster
import Kama.Controller.ImportJob
import Kama.Controller.ArtifactStorage
import Kama.Controller.ArtifactDeletion
import Kama.Controller.CleanupScope
import Kama.Controller.ArtifactReconcile
import Kama.Controller.Visits
import Kama.Controller.ArtifactCalls
import Kama.Controller.Backoff
import Kama.Controller.ImportRetry
import Kama.Controller.FailureReport
import Kama.Controller.ModelDeployment
import Kama.Controller.ServingWatch
import Kama.Controller.RuntimeReady
import Kama.Controller.ProbeRetry
import Kama.Controller.CacheAdmission
import Kama.Controller.CacheFresh
