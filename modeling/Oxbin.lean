import Oxbin.Browser.Coherence
import Oxbin.Browser.Convergence
import Oxbin.Browser.Linear
import Oxbin.Browser.Loading
import Oxbin.Browser.Reconciling
import Oxbin.Httpapi.ClientIP
import Oxbin.Httpapi.Publication
import Oxbin.Httpapi.Peers
import Oxbin.Httpapi.Publishing
import Oxbin.Httpapi.Rooms
import Oxbin.Httpapi.Wire
import Oxbin.Live.Bridge
import Oxbin.Live.Capacity
import Oxbin.Live.Hub
import Oxbin.Live.Ownership
import Oxbin.Live.Rebuilt
import Oxbin.Live.Removals
import Oxbin.Live.Restart
import Oxbin.Browser.Decoding
import Oxbin.Browser.Workspace
import Oxbin.Browser.Arranging
import Oxbin.Browser.Following
import Oxbin.Browser.Replies
import Oxbin.Live.Resent
import Oxbin.Live.Return
import Oxbin.Live.RoundTrip
import Oxbin.Live.Skews
import Oxbin.Live.Validators
import Oxbin.Live.Bridging
import Oxbin.Live.Broadcast
import Oxbin.Live.Progress
import Oxbin.Live.Tabs
import Oxbin.Live.Views
import Oxbin.Livecollab.MachinePositions
import Oxbin.Livecollab.Showing
import Oxbin.Paste.Limits
import Oxbin.Ratelimit.Retry
import Oxbin.Storage.Contiguity
import Oxbin.Storage.Replacement
import Oxbin.Httpapi.Access
import Oxbin.Httpapi.Messages
