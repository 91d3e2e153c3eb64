import P2PShare.Common.Net
import P2PShare.Common.Sha1
import P2PShare.Common.HashFile
import P2PShare.Common.FailedReads
import P2PShare.Tracker.Replay
import P2PShare.Tracker.Online
import P2PShare.Tracker.Membership
import P2PShare.Tracker.Outsider
import P2PShare.Tracker.Frames
import P2PShare.Tracker.Refusal
import P2PShare.Tracker.Seeders
import P2PShare.Tracker.Passwords
import P2PShare.Tracker.Redelivery
import P2PShare.Tracker.Applied
import P2PShare.Tracker.Independent
import P2PShare.Tracker.OpLog
import P2PShare.Tracker.Published
import P2PShare.Tracker.Allocation
import P2PShare.Pair.Convergence
import P2PShare.Pair.Watermark
import P2PShare.Pair.Catchup
import P2PShare.Pair.Recovery
import P2PShare.Pair.Logout
import P2PShare.Threads.Ack
import P2PShare.Threads.Bootstrap
import P2PShare.Threads.Host
import P2PShare.Threads.Channels
import P2PShare.Threads.Descriptors
import P2PShare.Client.ResumeScan
import P2PShare.Client.Serve
import P2PShare.Client.Retry
import P2PShare.Client.Relogin
import P2PShare.Client.RoundEnds
import P2PShare.Client.FullyAnnounced
import P2PShare.Client.Reconnect
import P2PShare.Client.Console
import P2PShare.Client.BitmapAccess
import P2PShare.Client.JobEnds
import P2PShare.Client.Transfer
import P2PShare.Tracker.Bystander
import P2PShare.Pair.Mirror
import P2PShare.Client.HonestPeers
import P2PShare.Client.Lifetimes
import P2PShare.Client.AnnounceLag
import P2PShare.Tracker.Interchange
import P2PShare.Tracker.Connection
import P2PShare.Client.PeerLink
