import CodexRemoteBridge.Lib.Interaction
import CodexRemoteBridge.Lib.Coroutine
import CodexRemoteBridge.Lib.Json
import CodexRemoteBridge.Lib.JsonText
import CodexRemoteBridge.Lib.JsonParse
import CodexRemoteBridge.Lib.JsonSpelling
import CodexRemoteBridge.Lib.JsonRoundTrip
import CodexRemoteBridge.Lib.JsonEq
import CodexRemoteBridge.Python
import CodexRemoteBridge.Effects
import CodexRemoteBridge.Ledger
import CodexRemoteBridge.Worktrees
import CodexRemoteBridge.Bridge
import CodexRemoteBridge.Tools
import CodexRemoteBridge.Looks
import CodexRemoteBridge.Dispatch
import CodexRemoteBridge.Hosts
import CodexRemoteBridge.Receipts
import CodexRemoteBridge.AppServer
import CodexRemoteBridge.Wire
import CodexRemoteBridge.Ownership
import CodexRemoteBridge.System
import CodexRemoteBridge.AtMostOnce
import CodexRemoteBridge.Fingerprints
import CodexRemoteBridge.Replay
import CodexRemoteBridge.Status
import CodexRemoteBridge.Identifiers
import CodexRemoteBridge.Withholding
import CodexRemoteBridge.Phases
import CodexRemoteBridge.Subscribers
import CodexRemoteBridge.Raises
import CodexRemoteBridge.Guards
import CodexRemoteBridge.Server
import CodexRemoteBridge.Filters
import CodexRemoteBridge.Waiting
import CodexRemoteBridge.Written
import CodexRemoteBridge.Finality
import CodexRemoteBridge.Import
import CodexRemoteBridge.Startup
import CodexRemoteBridge.Relay
import CodexRemoteBridge.Lib.Channel
import CodexRemoteBridge.Lib.Base64
import CodexRemoteBridge.Naming
import CodexRemoteBridge.Lib.Keyset
import CodexRemoteBridge.Inventory
import CodexRemoteBridge.Listing
import CodexRemoteBridge.Clipping
import CodexRemoteBridge.Cursors
import CodexRemoteBridge.Reservation
import CodexRemoteBridge.Launcher
import CodexRemoteBridge.Lib.Cooperative
import CodexRemoteBridge.EventLoop
import CodexRemoteBridge.Correlation
import CodexRemoteBridge.Handshake
import CodexRemoteBridge.Closing
import CodexRemoteBridge.Isolation
import CodexRemoteBridge.Serving
import CodexRemoteBridge.Completion
import CodexRemoteBridge.Serialization
import CodexRemoteBridge.Reading
import CodexRemoteBridge.Paging
import CodexRemoteBridge.Visits
import CodexRemoteBridge.Sharing
import CodexRemoteBridge.Pumps
import CodexRemoteBridge.Progress
import CodexRemoteBridge.Processes
import CodexRemoteBridge.Polling
import CodexRemoteBridge.Placement
import CodexRemoteBridge.Rows
import CodexRemoteBridge.Dialogue
import CodexRemoteBridge.Conversation
import CodexRemoteBridge.Supervision
