import Muster.Admission.Config
import Muster.Admission.Gate
import Muster.Admission.Hall
import Muster.Balance.RoundRobin
import Muster.Balance.Turnstile
import Muster.Bell
import Muster.Binary64.Basic
import Muster.Binary64.Shortest
import Muster.Channel.Basic
import Muster.Channel.Dial
import Muster.Channel.Line
import Muster.Channel.Options
import Muster.Channel.Sink
import Muster.Channel.State
import Muster.Channel.Subchannel
import Muster.Channel.Talk
import Muster.Channel.Traffic
import Muster.Client.Cache
import Muster.Client.Config
import Muster.Client.Context
import Muster.Client.Floor
import Muster.Client.House
import Muster.Client.Schemes
import Muster.CommandLine.Arguments
import Muster.CommandLine.Isolated
import Muster.CommandLine.Options
import Muster.CommandLine.Run
import Muster.Etcd.Answer
import Muster.Etcd.Config
import Muster.Etcd.Keyspace
import Muster.Etcd.Store
import Muster.Fault
import Muster.Http.Authority
import Muster.Http.Message
import Muster.Http.Percent
import Muster.Http.Url
import Muster.Json.Fault
import Muster.Json.Pretty
import Muster.Json.Read
import Muster.Json.Record
import Muster.Json.Scan
import Muster.Json.Value
import Muster.Json.Write
import Muster.Main
import Muster.Net.Address
import Muster.Net.Host
import Muster.Net.Ip
import Muster.Net.Loose
import Muster.Net.Network
import Muster.Proofs.Admission.Conservation
import Muster.Proofs.Admission.Lawful
import Muster.Proofs.Admission.Moves
import Muster.Proofs.Admission.Refusal
import Muster.Proofs.Admission.Shutdown
import Muster.Proofs.Admission.Sweep
import Muster.Proofs.Admission.Turns
import Muster.Proofs.Balance.Fairness
import Muster.Proofs.Channel.Allowance
import Muster.Proofs.Channel.Alone
import Muster.Proofs.Channel.Closing
import Muster.Proofs.Channel.Line
import Muster.Proofs.Channel.Members
import Muster.Proofs.Channel.Notices
import Muster.Proofs.Channel.Offering
import Muster.Proofs.Channel.Picking
import Muster.Proofs.Channel.Replacing
import Muster.Proofs.Channel.Retrying
import Muster.Proofs.Channel.Settled
import Muster.Proofs.Channel.Streams
import Muster.Proofs.Channel.Subchannels
import Muster.Proofs.Channel.Talk
import Muster.Proofs.Channel.Turns
import Muster.Proofs.Client.Custody
import Muster.Proofs.Client.Dialing
import Muster.Proofs.Client.Final
import Muster.Proofs.Client.Moves
import Muster.Proofs.Client.Order
import Muster.Proofs.Client.Removing
import Muster.Proofs.Client.Rights
import Muster.Proofs.Client.SingleFlight
import Muster.Proofs.Etcd.Answer
import Muster.Proofs.Etcd.Apart
import Muster.Proofs.Etcd.Creating
import Muster.Proofs.Etcd.Failover
import Muster.Proofs.Etcd.Keys
import Muster.Proofs.Etcd.Tree
import Muster.Proofs.History
import Muster.Proofs.Http.Path
import Muster.Proofs.Http.Percent
import Muster.Proofs.Json.Nesting
import Muster.Proofs.Json.Number
import Muster.Proofs.Json.Reading
import Muster.Proofs.Json.Record
import Muster.Proofs.Json.Text
import Muster.Proofs.Json.Value
import Muster.Proofs.Lookup
import Muster.Proofs.Registry.Backends
import Muster.Proofs.Registry.Contents
import Muster.Proofs.Registry.Effect
import Muster.Proofs.Registry.Isolation
import Muster.Proofs.Registry.Listing
import Muster.Proofs.Registry.Record
import Muster.Proofs.Registry.Sequence
import Muster.Proofs.Registry.Serving
import Muster.Proofs.Registry.Sheet
import Muster.Proofs.Registry.Views
import Muster.Proofs.Resolver.AddressSet
import Muster.Proofs.Resolver.Attempts
import Muster.Proofs.Resolver.Canonical
import Muster.Proofs.Resolver.Coalescing
import Muster.Proofs.Resolver.Diary
import Muster.Proofs.Resolver.Freshness
import Muster.Proofs.Resolver.Moves
import Muster.Proofs.Resolver.Pacing
import Muster.Proofs.Signal.Kinship
import Muster.Proofs.Signal.Waiting
import Muster.Proofs.Store.Entries
import Muster.Proofs.Store.Following
import Muster.Proofs.Store.Ledger
import Muster.Proofs.Store.Listing
import Muster.Proofs.Store.Parked
import Muster.Proofs.Store.Path
import Muster.Proofs.Store.Replay
import Muster.Proofs.Target
import Muster.Proofs.Text.Blank
import Muster.Proofs.Text.Utf8
import Muster.Proofs.Tries
import Muster.Proofs.Watch.Moves
import Muster.Proofs.Watch.WakeUps
import Muster.Proofs.Wire.Echo
import Muster.Proofs.Wire.Failure
import Muster.Proofs.Wire.Frame
import Muster.Proofs.Wire.Request
import Muster.Proofs.Wire.Response
import Muster.Proofs.Wire.Server
import Muster.Proofs.Wire.Stream
import Muster.Registry.Command
import Muster.Registry.Duty
import Muster.Registry.Key
import Muster.Registry.Record
import Muster.Registry.Service
import Muster.Registry.Serving
import Muster.Registry.Sheet
import Muster.Resolver.AddressSet
import Muster.Resolver.Config
import Muster.Resolver.Loop
import Muster.Resolver.Office
import Muster.Resolver.Resolve
import Muster.Signal
import Muster.Simulation.Admission
import Muster.Simulation.Dialing
import Muster.Simulation.Discovery
import Muster.Simulation.Neighborhood
import Muster.Simulation.Outage
import Muster.Simulation.Servers
import Muster.Simulation.Timeline
import Muster.Store.Basic
import Muster.Store.Path
import Muster.Store.Watcher
import Muster.Target
import Muster.Text.Blank
import Muster.Text.Digits
import Muster.Text.Folded
import Muster.Text.Quoted
import Muster.Text.Unprinted
import Muster.Text.Utf8
import Muster.Vigil
import Muster.Watch.Lookout
import Muster.Watch.Loop
import Muster.Wire.Echo
import Muster.Wire.Exchange
import Muster.Wire.Frame
import Muster.Wire.Request
import Muster.Wire.Response
import Muster.Wire.Server
import Muster.Wire.Stream
