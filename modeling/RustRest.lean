import RustRest.Lib.Priority
import RustRest.Lib.WorkStack
import RustRest.Lib.SegPattern
import RustRest.Lib.SegTrie
import RustRest.Lib.FixedWindow
import RustRest.Lib.Framing
import RustRest.Lib.Threads
import RustRest.Lib.FiniteMap
import RustRest.Text
import RustRest.Router.Pattern
import RustRest.Router.Host
import RustRest.Router.Index
import RustRest.Lib.TrieAddress
import RustRest.Router.LookupCost
import RustRest.Router.OpenApi
import RustRest.Router.Route
import RustRest.Router.Lookup
import RustRest.Router.Invariant
import RustRest.Router.Built
import RustRest.Router.Failure
import RustRest.Router.Precedence
import RustRest.Router.Scoped
import RustRest.Router.Allow
import RustRest.Router.Mount
import RustRest.Server.Chain
import RustRest.Server.Miss
import RustRest.Http1.Head
import RustRest.Http1.ContentLength
import RustRest.Http1.Inspector
import RustRest.Http1.Sequence
import RustRest.Http1.Buffer
import RustRest.Http1.Verdicts
import RustRest.Session.Shard
import RustRest.Session.Store
import RustRest.Session.Sections
import RustRest.Session.Concurrent
import RustRest.Session.Calls
import RustRest.Session.Plain
import RustRest.Session.Invalidate
import RustRest.Session.Limits
import RustRest.Response.Cookie
import RustRest.Session.Middleware
import RustRest.Session.Rotation
import RustRest.Session.Fixation
import RustRest.WebSocket.Registry
import RustRest.WebSocket.Indices
import RustRest.WebSocket.Rooms
import RustRest.WebSocket.Hub
import RustRest.WebSocket.Broker
import RustRest.WebSocket.Lifecycle
import RustRest.WebSocket.Forced
import RustRest.WebSocket.Senders
import RustRest.WebSocket.Handshake
import RustRest.WebSocket.MessageRate
import RustRest.Request.Views
import RustRest.Request.Body
import RustRest.Response.SignedCookie
import RustRest.Response.Finalize
import RustRest.Server.Rendering
import RustRest.Server.Layers
import RustRest.Response.Head
import RustRest.Server.Preflight
import RustRest.Form.Multipart
import RustRest.Form.Lines
import RustRest.Form.Ranges
import RustRest.Form.RoundTrip
import RustRest.Form.Cursor
import RustRest.Form.Disposition
import RustRest.Form.Safety
import RustRest.Form.Hidden
import RustRest.Response.Sse
import RustRest.Server.Authority
import RustRest.Router.Render
import RustRest.Router.Url
import RustRest.Server.TrailingSlash
import RustRest.Static.Path
import RustRest.Static.Range
import RustRest.Static.Stream
import RustRest.Response.Vary
import RustRest.Middleware.RateLimit
import RustRest.Middleware.Cors
import RustRest.Middleware.Compression
import RustRest.Middleware.Negotiation
import RustRest.Middleware.Conditional
import RustRest.Middleware.Preconditions
import RustRest.WebSocket.Subprotocol
import RustRest.Lib.Notify
import RustRest.WebSocket.Waiting
import RustRest.Router.UrlFor
import RustRest.Server.Exchange
import RustRest.WebSocket.Cluster
