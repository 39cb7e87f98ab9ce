import SocksPool.Address
import SocksPool.Backoff
import SocksPool.Config
import SocksPool.Echo
import SocksPool.Endpoint
import SocksPool.Error
import SocksPool.Event
import SocksPool.Guarded
import SocksPool.Network.Dialer
import SocksPool.Network.Probe
import SocksPool.Network.Server
import SocksPool.Network.Socket
import SocksPool.Network.Talk
import SocksPool.Network.Tunnel
import SocksPool.Network.Web
import SocksPool.Pool.Circulation
import SocksPool.Pool.Dispense
import SocksPool.Pool.Lifecycle
import SocksPool.Pool.Loops
import SocksPool.Pool.Move
import SocksPool.Pool.State
import SocksPool.Pool.Task
import SocksPool.Pool.Validation
import SocksPool.Proofs.Accounts
import SocksPool.Proofs.Admission
import SocksPool.Proofs.Aside
import SocksPool.Proofs.Breaks
import SocksPool.Proofs.ByteOrder
import SocksPool.Proofs.Callers
import SocksPool.Proofs.Census
import SocksPool.Proofs.Choices
import SocksPool.Proofs.Coherence
import SocksPool.Proofs.Conservation
import SocksPool.Proofs.Course
import SocksPool.Proofs.Credentials
import SocksPool.Proofs.Crew
import SocksPool.Proofs.Decline
import SocksPool.Proofs.Decoration
import SocksPool.Proofs.Deeds
import SocksPool.Proofs.Deferrals
import SocksPool.Proofs.Digits
import SocksPool.Proofs.Dispensing
import SocksPool.Proofs.Dossier
import SocksPool.Proofs.Duplicates
import SocksPool.Proofs.EchoPages
import SocksPool.Proofs.Effect
import SocksPool.Proofs.Effort
import SocksPool.Proofs.Episodes
import SocksPool.Proofs.Eviction
import SocksPool.Proofs.Fittings
import SocksPool.Proofs.Frozen
import SocksPool.Proofs.Gate
import SocksPool.Proofs.Generation
import SocksPool.Proofs.Growth
import SocksPool.Proofs.Guards
import SocksPool.Proofs.Handles
import SocksPool.Proofs.Handover
import SocksPool.Proofs.Homing
import SocksPool.Proofs.Ledger
import SocksPool.Proofs.LetterCase
import SocksPool.Proofs.Limits
import SocksPool.Proofs.Literals
import SocksPool.Proofs.Lives
import SocksPool.Proofs.Loading
import SocksPool.Proofs.Locations
import SocksPool.Proofs.Names
import SocksPool.Proofs.NormalForm
import SocksPool.Proofs.Occupancy
import SocksPool.Proofs.Operations
import SocksPool.Proofs.Orderly
import SocksPool.Proofs.Overflow
import SocksPool.Proofs.Pace
import SocksPool.Proofs.Penalties
import SocksPool.Proofs.Polls
import SocksPool.Proofs.Provenance
import SocksPool.Proofs.Quiet
import SocksPool.Proofs.Quotas
import SocksPool.Proofs.Rejection
import SocksPool.Proofs.Reports
import SocksPool.Proofs.Requests
import SocksPool.Proofs.Resizing
import SocksPool.Proofs.Rotation
import SocksPool.Proofs.Rounds
import SocksPool.Proofs.Run
import SocksPool.Proofs.Scaling
import SocksPool.Proofs.Settling
import SocksPool.Proofs.Shift
import SocksPool.Proofs.Shifts
import SocksPool.Proofs.Spelling
import SocksPool.Proofs.SteadyLoad
import SocksPool.Proofs.Stranding
import SocksPool.Proofs.Strikes
import SocksPool.Proofs.Talks
import SocksPool.Proofs.Threshold
import SocksPool.Proofs.Tokens
import SocksPool.Proofs.Turn
import SocksPool.Proofs.Typed
import SocksPool.Proofs.Waiting
import SocksPool.Proofs.Wakeup
import SocksPool.Proofs.Waning
import SocksPool.Proofs.Ways
import SocksPool.Proofs.Whereabouts
import SocksPool.Proofs.Worklog
import SocksPool.Protocol
import SocksPool.Registry
import SocksPool.Scaler
import SocksPool.Session.Call
import SocksPool.Session.Command
import SocksPool.Session.State
import SocksPool.Slots
import SocksPool.Stats
import SocksPool.Table
import SocksPool.Text.Blank
import SocksPool.Text.Number
import SocksPool.Text.Percent
import SocksPool.Text.Pieces
import SocksPool.Text.Printable
import SocksPool.Text.Quoted
import SocksPool.Time
import SocksPool.Url.Authority
import SocksPool.Url.Host
import SocksPool.Url.Parser
import SocksPool.Url.ProxyUrl
import SocksPool.Usage
import SocksPool.Word
import SocksPool.Workers
