import Cheirizo.Clock
import Cheirizo.Lib.Machine
import Cheirizo.Lib.Prog
import Cheirizo.Lib.Text
import Cheirizo.Lib.Unicode
import Cheirizo.Lib.Tree
import Cheirizo.Resize.Coordinator
import Cheirizo.Resize.Pipeline
import Cheirizo.Sesman.Host
import Cheirizo.Sesman.Process
import Cheirizo.Sesman.State
import Cheirizo.Sesman.Manager
import Cheirizo.Sesman.Effects
import Cheirizo.Sesman.StopSafety
import Cheirizo.Sesman.Broadcast
import Cheirizo.Sesman.Clients
import Cheirizo.Clipboard.Formats
import Cheirizo.Clipboard.Sanitize
import Cheirizo.Clipboard.Files
import Cheirizo.Clipboard.Image
import Cheirizo.Clipboard.Sync
import Cheirizo.Clipboard.Orchestrator
import Cheirizo.Clipboard.Effects
import Cheirizo.Clipboard.Answers
import Cheirizo.Clipboard.Exchange
import Cheirizo.Clipboard.Correlation
import Cheirizo.Clipboard.Isolation
import Cheirizo.Clipboard.Policy
import Cheirizo.Clipboard.Echo
import Cheirizo.Clipboard.Servable
import Cheirizo.Clipboard.Converter
import Cheirizo.Clipboard.Transcode
import Cheirizo.Graphics.Convert
import Cheirizo.Graphics.Packing
import Cheirizo.Graphics.Avc444
import Cheirizo.Graphics.Ledger
import Cheirizo.Graphics.Damage
import Cheirizo.Graphics.Egfx
import Cheirizo.Input.Handler
import Cheirizo.Input.Worker
import Cheirizo.Clipboard.Delivery
import Cheirizo.Resize.Transactions
import Cheirizo.Input.Stream
import Cheirizo.Sesman.Reuse
import Cheirizo.Sesman.Idle
import Cheirizo.Auth.Validator
import Cheirizo.Auth.BruteForce
import Cheirizo.Session.Health
import Cheirizo.Server.Admission
import Cheirizo.Server.Binding
import Cheirizo.Wayland.Screencopy
import Cheirizo.Wayland.Coherence
import Cheirizo.Graphics.Coverage
import Cheirizo.Graphics.Staleness
import Cheirizo.Portal.Sessions
import Cheirizo.Input.Failure
import Cheirizo.Input.Following
import Cheirizo.Input.KeyState
import Cheirizo.Config.Ini
import Cheirizo.Wayland.ExtCapture
import Cheirizo.Wayland.Screenshot
import Cheirizo.Wayland.Renegotiation
import Cheirizo.Graphics.Decodable
import Cheirizo.Server.Reshape
import Cheirizo.Pipewire.Yuv
import Cheirizo.Input.Locks
import Cheirizo.Input.Threshold
import Cheirizo.Bitmap.Updates
import Cheirizo.Bitmap.Narrowing
import Cheirizo.Lib.Hull
import Cheirizo.Input.Coordinates
import Cheirizo.Input.Topology
import Cheirizo.Clipboard.CfHtml
import Cheirizo.Clipboard.Rtf
import Cheirizo.Clipboard.FileNames
import Cheirizo.Clipboard.Descriptors
import Cheirizo.Clipboard.Destinations
import Cheirizo.Clipboard.Outgoing
import Cheirizo.Clipboard.Fingerprints
import Cheirizo.Clipboard.Hdrop
import Cheirizo.Clipboard.LineEndings
import Cheirizo.Clipboard.Loops
import Cheirizo.Clipboard.RtfBraces
import Cheirizo.Clipboard.RtfSkip
import Cheirizo.Clipboard.Bitmap
import Cheirizo.Clipboard.BitmapSafety
import Cheirizo.Auth.Accounts
import Cheirizo.Clipboard.Transfer
import Cheirizo.Sesman.Deadline
import Cheirizo.Sesman.IniRoundTrip
import Cheirizo.Sesman.CleanupExact
import Cheirizo.Config.Quoting
import Cheirizo.Graphics.Regions
import Cheirizo.Bitmap.Disjoint
import Cheirizo.Bitmap.BufferPool
import Cheirizo.Graphics.Vaapi
import Cheirizo.Clipboard.DataControlProvider
import Cheirizo.Portal.Injection
import Cheirizo.Portal.Requests
import Cheirizo.Graphics.BlackScreen
import Cheirizo.Clipboard.CodePages
import Cheirizo.Resize.Realization
