import ChatHub.Identity.Reading
import ChatHub.Main
import ChatHub.Phase
import ChatHub.Record.Framing
import ChatHub.Server.Loopback
import ChatHub.Settings.Reading
import ChatHub.Switchboard
import ChatHub.Terminal.Program
import ChatHub.Workshop
import ChatHub.Proofs.Roster.Fairness
import ChatHub.Proofs.Roster.Circle
import ChatHub.Proofs.RecentCache.Slots
import ChatHub.Proofs.RecentCache.UseOrder
import ChatHub.Proofs.RecentCache.Eviction
import ChatHub.Proofs.Hub.Moves
import ChatHub.Proofs.Hub.Attendance
import ChatHub.Proofs.Hub.Delivery
import ChatHub.Proofs.Hub.Isolation
import ChatHub.Proofs.Hub.Signals
import ChatHub.Proofs.Text.Truncation
import ChatHub.Proofs.Identity.Handover
import ChatHub.Proofs.Identity.OneReceive
import ChatHub.Proofs.WorkPool.FirstCome
import ChatHub.Proofs.WorkPool.Occupancy
import ChatHub.Proofs.WorkPool.Shutdown
import ChatHub.Proofs.Hub.ChatLine
import ChatHub.Proofs.Hub.Relayed
import ChatHub.Proofs.Hub.Retirement
import ChatHub.Proofs.Server.Calls
import ChatHub.Proofs.Server.Changes
import ChatHub.Proofs.Server.Lifecycle
import ChatHub.Proofs.Server.Outcomes
import ChatHub.Proofs.Server.Steadiness
import ChatHub.Proofs.Server.Admission
import ChatHub.Proofs.Server.Closing
import ChatHub.Proofs.Server.Stopping
import ChatHub.Proofs.Hub.Counters
import ChatHub.Proofs.Hub.Dealings
import ChatHub.Proofs.Hub.Broadcast
import ChatHub.Proofs.Hub.Recency
import ChatHub.Proofs.Server.Latecomers
import ChatHub.Proofs.Server.Passage
import ChatHub.Proofs.Server.Writing
import ChatHub.Proofs.WorkPool.Endings
import ChatHub.Proofs.RecentCache.Timekeeping
import ChatHub.Proofs.RecentCache.Keys
import ChatHub.Proofs.Identity.NormalForm
import ChatHub.Proofs.Record.Canonical
import ChatHub.Proofs.Hub.Announcements
import ChatHub.Proofs.Hub.PayloadSize
import ChatHub.Proofs.Hub.Banner
import ChatHub.Proofs.Hub.Probing
import ChatHub.Proofs.Record.Cutting
import ChatHub.Proofs.Terminal.Grammar
