import DenEdge.Assistant.Queues
import DenEdge.Cache.Account
import DenEdge.Cache.OpenCount
import DenEdge.Client.MoveSafety
import DenEdge.Clock.Stamps
import DenEdge.Disk.Count
import DenEdge.Downloads.Passes
import DenEdge.Executor.Crash
import DenEdge.Grants.GuestPath
import DenEdge.Grants.Manifest
import DenEdge.Grants.Reservations
import DenEdge.Grants.Sweeps
import DenEdge.Hold.Places
import DenEdge.Inbox.Delivery
import DenEdge.Media.Slots
import DenEdge.OAuth.Redirect
import DenEdge.OAuth.Rotation
import DenEdge.Operations.Once
import DenEdge.Receipts.Once
import DenEdge.Recovery.Codes
import DenEdge.Reset.Answers
import DenEdge.Reset.Source
import DenEdge.Server.Inherit
import DenEdge.Store.Refinement
import DenEdge.Titles.Paging
import DenEdge.Tmdb.Budget
import DenEdge.Wake.Events
