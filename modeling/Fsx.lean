import Fsx.Core.Bytes
import Fsx.Core.Crc
import Fsx.Core.Error
import Fsx.Core.Hoare
import Fsx.Io.Image
import Fsx.Io.Crash
import Fsx.Io.Disk
import Fsx.Journal.Format
import Fsx.Journal.Model
import Fsx.Journal.Effect
import Fsx.Journal.Stored
import Fsx.Journal.Crash
import Fsx.Journal.Validate
import Fsx.Gpt.Model
import Fsx.Gpt.Side
import Fsx.Gpt.Pair
import Fsx.Gpt.Repair
import Fsx.Gpt.Crash
import Fsx.Ext4.Superblock
import Fsx.Ext4.Group
import Fsx.Ext4.Geometry
import Fsx.Ext4.Extents
import Fsx.Ext4.Plan
import Fsx.Ext4.World
import Fsx.Ext4.Stage
import Fsx.Ext4.Commit
import Fsx.Ext4.Resize
import Fsx.Ext4.Session
import Fsx.Ext4.PlanShape
import Fsx.Ext4.JournalSemantics
import Fsx.Ext4.StaleCopy
import Fsx.Ext4.ShrinkCrash
import Fsx.Ext4.Tree
import Fsx.Ext4.Bitmap
import Fsx.Ext4.Volume
import Fsx.Gpt.Entries
import Fsx.Gpt.Frame
import Fsx.Gpt.Sync
import Fsx.Gpt.SyncSound
import Fsx.Ext4.SuperCopies
import Fsx.Gpt.Identity
import Fsx.Core.Count
import Fsx.Ext4.Verify
import Fsx.Ext4.Repair
import Fsx.Ext4.RepairDesc
import Fsx.Ext4.Layout
import Fsx.Ext4.RepairRun
import Fsx.Ext4.RepairHeals
import Fsx.Ext4.Uninit
import Fsx.ImageFile.Format
import Fsx.ImageFile.Model
import Fsx.ImageFile.Scan
import Fsx.ImageFile.Restore
import Fsx.ImageFile.Trust
import Fsx.ImageFile.RoundTrip
import Fsx.Ext4.Grow
import Fsx.Ext4.SuperMark
import Fsx.Ext4.MarkedRun
import Fsx.Ext4.MarkedCommit
import Fsx.Ext4.CleanMark
import Fsx.Core.CrcDetect
import Fsx.Ext4.Refusal
import Fsx.ImageFile.Damage
import Fsx.Gpt.Backup
import Fsx.Gpt.ResizeFrame
import Fsx.Ext4.Owners
import Fsx.Core.Interleave
import Fsx.Ext4.Copy
import Fsx.Ext4.Jobs
import Fsx.Ext4.StageSafe
import Fsx.Ext4.GrowBack
import Fsx.Core.CrcPaths
import Fsx.Journal.Codec
import Fsx.Journal.Decides
import Fsx.Core.Interval
import Fsx.Io.Overlap
import Fsx.Ext4.DeepVerify
import Fsx.Ext4.Coverage
import Fsx.Ext4.TreeOrder
import Fsx.Io.Within
import Fsx.Ext4.WriteBounds
import Fsx.Io.Scheduler
import Fsx.Mbr.Model
import Fsx.Mbr.Resize
import Fsx.Ext4.AllocationRuns
import Fsx.Ext4.RelocationGeometry
import Fsx.Ext4.RangeUpdate
import Fsx.Core.Seal
import Fsx.Ext4.Checksums
import Fsx.Ext4.CopyWriters
import Fsx.Io.TaskPool
import Fsx.Ops.Clone
import Fsx.Ops.CloneExact
import Fsx.Core.Packed
import Fsx.Fat.Model
import Fsx.Fat.Stream
import Fsx.Fat.Check
import Fsx.Exfat.Model
import Fsx.Exfat.Bounds
import Fsx.Exfat.Chain
import Fsx.Ext4.GrowInverse
import Fsx.Hash.Standard
import Fsx.Core.Blocks
import Fsx.Core.RootFraction
import Fsx.Core.Words
import Fsx.Hash.Fips180
import Fsx.Hash.Rfc7693
import Fsx.Hash.Xxh64
import Fsx.Hash.Model
import Fsx.Hash.Sha256
import Fsx.Hash.Xxhash
import Fsx.Hash.Blake2b
import Fsx.Btrfs.Model
import Fsx.Btrfs.Selection
import Fsx.Ext4.CoverageSearch
import Fsx.Ext4.GeometryArith
import Fsx.Ext4.Tiling
import Fsx.Journal.Recovery
import Fsx.Ext4.Gate
import Fsx.Ext4.Rollback
import Fsx.Core.Durable
import Fsx.Io.Publish
import Fsx.Io.PublishSafe
import Fsx.Io.Producers
import Fsx.Core.Transfer
import Fsx.Io.Split
import Fsx.Io.Device
import Fsx.Io.DeviceRuns
import Fsx.Io.DeviceFault
import Fsx.Ext4.Survey
import Fsx.Core.CrcWindow
import Fsx.Xfs.Copies
import Fsx.Io.Tear
import Fsx.Gpt.Rewrite
import Fsx.Gpt.CrashSafe
