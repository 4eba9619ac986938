import ThinWorkspace.Application.FullCopy
import ThinWorkspace.Application.Occupancy
import ThinWorkspace.Application.Reported
import ThinWorkspace.Metadata.Atomicity
import ThinWorkspace.Metadata.Timestamps
import ThinWorkspace.Metadata.Written
import ThinWorkspace.Application.RemovalLog
import ThinWorkspace.Application.Preview
import ThinWorkspace.Application.Interleaving
import ThinWorkspace.Linux.InitSafety
import ThinWorkspace.Btrfs.Materialized
import ThinWorkspace.Core.StatusGrammar
import ThinWorkspace.Core.PlanSound
import ThinWorkspace.Git.Attributes
import ThinWorkspace.Git.ReferenceWalk
import ThinWorkspace.Git.FilterGuard
import ThinWorkspace.Git.DiscoveryComplete
import ThinWorkspace.Linux.ProbeDigest
import ThinWorkspace.Apfs.Manifest
import ThinWorkspace.Log.Append
import ThinWorkspace.Linux.ProcessScan
import ThinWorkspace.MacOs.ProcessScan
import ThinWorkspace.Prepared.Clear
import ThinWorkspace.Git.Collect
import ThinWorkspace.Application.RemoveTarget
import ThinWorkspace.Lifecycle.Contents
import ThinWorkspace.Git.ConfigListing
import ThinWorkspace.Space.Clamped
import ThinWorkspace.MacOs.Document
import ThinWorkspace.Application.Retry
import ThinWorkspace.Lifecycle.Ready
