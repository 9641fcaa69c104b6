import Zaxonlite.Lib.Overlay
import Zaxonlite.Lib.Contiguous
import Zaxonlite.Lib.Program
import Zaxonlite.Lib.Run
import Zaxonlite.Lib.Bytes
import Zaxonlite.Lib.Sha256
import Zaxonlite.Command
import Zaxonlite.Storage.File
import Zaxonlite.Storage.Payload
import Zaxonlite.Storage.Captured
import Zaxonlite.Storage.Journal
import Zaxonlite.Storage.Anchors
import Zaxonlite.Node.State
import Zaxonlite.Node.Account
import Zaxonlite.Node.Recovery
import Zaxonlite.Node.Capture
import Zaxonlite.Node.Chosen
import Zaxonlite.Node.Replay
import Zaxonlite.Node.Materialize
import Zaxonlite.Node.Sound
import Zaxonlite.Node.Reclaim
import Zaxonlite.Node.Effects
import Zaxonlite.Node.Follower
import Zaxonlite.Node.Resync
import Zaxonlite.Node.Leader
import Zaxonlite.Node.Serving
import Zaxonlite.Node.Rebuild
import Zaxonlite.Node.Writer
import Zaxonlite.Node.WalFile
import Zaxonlite.Node.Live
import Zaxonlite.Node.Aligned
import Zaxonlite.Node.LiveWriter
import Zaxonlite.Node.LiveRebuild
import Zaxonlite.Crash.Process
import Zaxonlite.Runs.Speculative
import Zaxonlite.Lib.RingBuffer
import Zaxonlite.Registry.Decided
import Zaxonlite.Registry.Valid
import Zaxonlite.Registry.Lineage
import Zaxonlite.Lib.Hex
import Zaxonlite.Lib.Base64
import Zaxonlite.Lib.Json
import Zaxonlite.Lib.JsonRoundTrip
import Zaxonlite.Lib.Cursor
import Zaxonlite.Storage.Codec
import Zaxonlite.Storage.Commitment
import Zaxonlite.Registry.Encoding
import Zaxonlite.Wire.Envelope
import Zaxonlite.Wire.Session
import Zaxonlite.Storage.Segment
import Zaxonlite.Storage.Directory
import Zaxonlite.Storage.Retained
import Zaxonlite.Storage.Manifest
import Zaxonlite.Registry.Stop
import Zaxonlite.Registry.Members
import Zaxonlite.Node.Transfer
import Zaxonlite.Node.Handover
import Zaxonlite.Node.Membership
import Zaxonlite.Node.CrashPoints
import Zaxonlite.Node.Trimming
import Zaxonlite.Node.History
import Zaxonlite.Runs.Anchoring
import Zaxonlite.Runs.Histories
import Zaxonlite.Runs.Retention
import Zaxonlite.Runs.Promises
import Zaxonlite.Runs.Membership
import Zaxonlite.Runs.Superseded
import Zaxonlite.Runs.Trimming
import Zaxonlite.Runs.Manifests
import Zaxonlite.Storage.ActiveSegment
import Zaxonlite.Lib.LatestTable
import Zaxonlite.Server.Frontiers
import Zaxonlite.Server.Quorums
import Zaxonlite.Runs.Quorums
import Zaxonlite.Server.Learners
import Zaxonlite.Client.Remote
import Zaxonlite.Node.Application
import Zaxonlite.Runs.Frames
import Zaxonlite.Lib.Checked
import Zaxonlite.Storage.Rollup
import Zaxonlite.Storage.Adoption
import Zaxonlite.Storage.PayloadLayout
import Zaxonlite.Storage.PayloadChecks
import Zaxonlite.Storage.PayloadRoundTrip
import Zaxonlite.Storage.Usage
import Zaxonlite.Storage.Growth
import Zaxonlite.Storage.Sealed
import Zaxonlite.Runs.Usage
import Zaxonlite.Lib.IntrusiveQueue
import Zaxonlite.Lib.TicketGate
import Zaxonlite.Runs.WriterGates
import Zaxonlite.Server.Sender
import Zaxonlite.Runs.Senders
import Zaxonlite.Wire.Crossing
import Zaxonlite.Enrollment.CommonNames
import Zaxonlite.Shell.Complete
import Zaxonlite.Shell.Execution
import Zaxonlite.Client.DsnClosed
import Zaxonlite.Search.Renaming
import Zaxonlite.Search.Vector
import Zaxonlite.Search.Welford
import Zaxonlite.Client.Mirror
import Zaxonlite.Client.RowIds
import Zaxonlite.Client.Agreement
import Zaxonlite.Runs.Requests
import Zaxonlite.Runs.Tokens
import Zaxonlite.Embedded.SharedProgress
import Zaxonlite.Embedded.SharedImage
import Zaxonlite.Client.Backup
import Zaxonlite.Client.BackupFiles
import Zaxonlite.Client.Cluster
import Zaxonlite.Server.PayloadGate
import Zaxonlite.Server.StagingSafety
import Zaxonlite.Wire.Bodies
