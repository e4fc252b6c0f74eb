import MatrixMedia.Fleet.Terraform
import MatrixMedia.Scaleway.Custody
import MatrixMedia.Ladder.Runs
import MatrixMedia.Rating.Runs
import MatrixMedia.Streams.SweepRuns
import MatrixMedia.Settings.RestartRuns
import MatrixMedia.Paywall.Permissions
import MatrixMedia.Paywall.EntitlementRuns
import MatrixMedia.Monetization.Announcements
import MatrixMedia.Monetization.Checkouts
import MatrixMedia.Paywall.Access
import MatrixMedia.Broadcast.OneLive
import MatrixMedia.Broadcast.Markers
import MatrixMedia.Broadcast.Withheld
import MatrixMedia.Broadcast.Keys
import MatrixMedia.Switch.Meter
import MatrixMedia.Switch.Reconnect
import MatrixMedia.Fleet.Amounts
import MatrixMedia.Ads.ViewerCount
import MatrixMedia.Sfu.Breaker
import MatrixMedia.Broadcast.Files
import MatrixMedia.Fleet.Deferral
import MatrixMedia.Fleet.Ttl
import MatrixMedia.Ladder.Coverage
import MatrixMedia.Metering.Payers
import MatrixMedia.Rating.Rounding
import MatrixMedia.Monetization.Fees
import MatrixMedia.Ladder.Paging
import MatrixMedia.Paywall.Paging
import MatrixMedia.Moderation.Sync
import MatrixMedia.Switch.Vp8
