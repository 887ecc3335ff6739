import DjLink.Library.LastWrite
import DjLink.Library.Channel
import DjLink.Library.WaitGraph
import DjLink.Library.Transition
import DjLink.Library.Locks
import DjLink.Library.Buckets
import DjLink.Library.BoundedLog
import DjLink.Library.Clamped
import DjLink.Library.ListCursor
import DjLink.Library.PartialRun
import DjLink.Library.Sorting
import DjLink.Library.ForLoop
import DjLink.Data
import DjLink.Addon
import DjLink.BeatCache
import DjLink.Client
import DjLink.Batching
import DjLink.TempoMaster
import DjLink.Singletons
import DjLink.Process
import DjLink.Registration
import DjLink.Lifecycle
import DjLink.Sharing
import DjLink.DeviceNumber
import DjLink.StatusCache
import DjLink.Threads
import DjLink.Sequential
import DjLink.Delivery
import DjLink.Receivers
import DjLink.CacheOrder
import DjLink.WaitCycles
import DjLink.Progress
import DjLink.Handover
import DjLink.Examples.Lifetimes
import DjLink.Examples.StatusMonitor
import DjLink.Examples.Basic
import DjLink.Examples.Comprehensive
import DjLink.Examples.Osc
import DjLink.Examples.DeviceCount
import DjLink.Examples.Timeline
import DjLink.Examples.Polling
import DjLink.Examples.CrateDigger
import DjLink.Examples.RekordboxBrowser
import DjLink.Examples.PlaylistBrowser
import DjLink.Examples.TagBrowser
import DjLink.Examples.KeyWheel
import DjLink.Examples.LoopViewer
import DjLink.Examples.TrackDetail
import DjLink.Examples.Artwork
import DjLink.Examples.AnlzViewers
import DjLink.Examples.SongStructure
import DjLink.Examples.BpmSearch
