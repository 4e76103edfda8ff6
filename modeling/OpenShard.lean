import OpenShard.Text
import OpenShard.Future
import OpenShard.ByteStream
import OpenShard.Table
import OpenShard.FloatCast
import OpenShard.State
import OpenShard.Haproxy
import OpenShard.Config
import OpenShard.Registry
import OpenShard.Routing
import OpenShard.Runtime
import OpenShard.HaproxyManager
import OpenShard.Db
import OpenShard.Registrar
import OpenShard.Enrollment
import OpenShard.Services
import OpenShard.Effects
import OpenShard.History
import OpenShard.Completion
import OpenShard.Consistency
import OpenShard.Conservation
import OpenShard.Recovery
import OpenShard.Removal
import OpenShard.Restoration
import OpenShard.Reload
import OpenShard.Rollback
import OpenShard.Interleaving
import OpenShard.Tunnel
import OpenShard.PortPool
import OpenShard.Proto
import OpenShard.Session
import OpenShard.Splice
import OpenShard.Transition
import OpenShard.Streams
import OpenShard.Delivery
import OpenShard.Handlers
import OpenShard.Versions
import OpenShard.Ledger
import OpenShard.Dispatch
import OpenShard.Weights
import OpenShard.Locking
import OpenShard.Progress
import OpenShard.Servers
import OpenShard.Posts
import OpenShard.Following
import OpenShard.Comeback
import OpenShard.Journal
import OpenShard.Eviction
import OpenShard.Identity
import OpenShard.Rows
import OpenShard.Handover
import OpenShard.Healing
import OpenShard.Placement
import OpenShard.Coverage
import OpenShard.Reports
import OpenShard.Agent
import OpenShard.Cluster
import OpenShard.Injection
import OpenShard.Undo
import OpenShard.Detection
import OpenShard.Sections
import OpenShard.Assignment
import OpenShard.Upsert
import OpenShard.Retarget
import OpenShard.Reenrollment
import OpenShard.Refusal
import OpenShard.Containers
import OpenShard.Ending
import OpenShard.Abandonment
import OpenShard.Waiting
