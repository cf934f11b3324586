import Rendezvous.Peer.Document
import Rendezvous.Workload.StatefulSet
import Rendezvous.Engine.Scenario
import Rendezvous.Queue.Rehearsal
import Rendezvous.Json.Writer
import Rendezvous.Cache.File
import Rendezvous.Workload.Tool
import Rendezvous.Workload.Watcher
import Rendezvous.Main
import Rendezvous.Proofs.Resolve.Attempts
import Rendezvous.Proofs.Resolve.Discipline
import Rendezvous.Proofs.Resolve.Upstream
import Rendezvous.Proofs.Routine.Discipline
import Rendezvous.Proofs.Routine.Surroundings
import Rendezvous.Proofs.Routine.Traces
import Rendezvous.Proofs.Run
import Rendezvous.Proofs.Queue.Waiting
import Rendezvous.Proofs.Peer.Validation
import Rendezvous.Proofs.Pool.Records
import Rendezvous.Proofs.Pool.Steps
import Rendezvous.Proofs.Pool.Tasks
import Rendezvous.Proofs.Queue.Attempts
import Rendezvous.Proofs.Queue.Conservation
import Rendezvous.Proofs.Queue.Courses
import Rendezvous.Proofs.Queue.Lives
import Rendezvous.Proofs.Queue.Moves
import Rendezvous.Proofs.Queue.Stages
import Rendezvous.Proofs.Pool.Alone
import Rendezvous.Proofs.Pool.Simulations
import Rendezvous.Proofs.Address.Hosts
import Rendezvous.Proofs.Resolve.Probes
import Rendezvous.Proofs.Resolve.Recording
import Rendezvous.Proofs.Resolve.Order
import Rendezvous.Proofs.Resolve.Conduct
import Rendezvous.Proofs.Queue.Calls
import Rendezvous.Proofs.Queue.Dispatch
import Rendezvous.Proofs.Pool.Orderly
import Rendezvous.Proofs.Resolve.Custody
import Rendezvous.Proofs.Resolve.SingleFlight
import Rendezvous.Proofs.Resolve.Deadlock
import Rendezvous.Proofs.Text.Splitting
import Rendezvous.Proofs.Address.Segments
import Rendezvous.Proofs.Resolve.Yields
import Rendezvous.Proofs.Resolve.Connections
import Rendezvous.Proofs.Address.Parsing
import Rendezvous.Proofs.Resolve.Answers
import Rendezvous.Proofs.Propagation.Fanout
import Rendezvous.Proofs.Resolve.Ledgers
import Rendezvous.Proofs.Resolve.CallCosts
import Rendezvous.Proofs.Pool.TaskAccounts
import Rendezvous.Proofs.Propagation.SpreadingPools
import Rendezvous.Proofs.Propagation.Reach
import Rendezvous.Proofs.Queue.Workshop
import Rendezvous.Proofs.Queue.Budget
import Rendezvous.Proofs.Json.Tokens
import Rendezvous.Proofs.Json.RoundTrip
import Rendezvous.Proofs.Cache.Saving
import Rendezvous.Proofs.Cache.Agreement
import Rendezvous.Proofs.Routine.Outages
import Rendezvous.Proofs.Resolve.Outages
import Rendezvous.Proofs.Pool.Service
import Rendezvous.Proofs.Resolve.Memos
import Rendezvous.Proofs.Resolve.IdSources
import Rendezvous.Proofs.Resolve.Restarts
import Rendezvous.Proofs.Cache.Durability
import Rendezvous.Proofs.Workload.Readiness
import Rendezvous.Proofs.Resolve.Outcomes
import Rendezvous.Proofs.Resolve.Solo
import Rendezvous.Proofs.Resolve.Hearsay
import Rendezvous.Proofs.Resolve.Assembly
import Rendezvous.Proofs.Resolve.FirstFailure
import Rendezvous.Proofs.Shell.Scripts
import Rendezvous.Proofs.Address.Identifiers
import Rendezvous.Proofs.Resolve.Identities
import Rendezvous.Proofs.Queue.Timetable
import Rendezvous.Proofs.Queue.Punctuality
import Rendezvous.Proofs.Address.Grammar
import Rendezvous.Proofs.Cache.Lifetimes
import Rendezvous.Proofs.Cache.Unsaved
import Rendezvous.Proofs.Double.Rounding
import Rendezvous.Proofs.Double.Words
import Rendezvous.Proofs.Double.Products
import Rendezvous.Proofs.Time.Seconds
import Rendezvous.Proofs.Queue.Delays
import Rendezvous.Proofs.Workload.Flips
import Rendezvous.Proofs.Workload.Patrols
import Rendezvous.Proofs.Workload.Rounds
import Rendezvous.Proofs.Workload.Reappearances
import Rendezvous.Proofs.Peer.Rules
import Rendezvous.Proofs.Peer.Defaults
import Rendezvous.Proofs.Registry.Firstcomers
import Rendezvous.Proofs.Address.Pushes
import Rendezvous.Proofs.Address.Quads
import Rendezvous.Proofs.Resolve.Confinement
import Rendezvous.Proofs.Resolve.Routing
import Rendezvous.Proofs.Queue.Indexing
import Rendezvous.Proofs.Json.Fields
import Rendezvous.Proofs.Peer.Codec
import Rendezvous.Proofs.Workload.Listings
