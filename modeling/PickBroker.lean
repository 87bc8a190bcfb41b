import PickBroker.Framework.Chunks
import PickBroker.Store.Refinement
import PickBroker.Store.Delivery
import PickBroker.Store.Chunked
import PickBroker.Store.ReadMark
import PickBroker.Store.NewSubscriber
import PickBroker.Store.LateArrival
import PickBroker.Grpc
import PickBroker.Publish.AsynchronousReader
import PickBroker.Publish.Session
import PickBroker.Publish.Summary
import PickBroker.Publish.Purge
import PickBroker.Publish.PublishService
import PickBroker.Publish.Places
import PickBroker.Publish.TokenEnforcement
import PickBroker.Subscribe.AsynchronousWriter
import PickBroker.Subscribe.Admission
import PickBroker.Subscribe.SubscribeService
import PickBroker.Subscribe.Accounting
import PickBroker.Subscribe.Stream
import PickBroker.Subscribe.BackfillStart
import PickBroker.Store.Retention
import PickBroker.Store.Capacity
import PickBroker.Store.Constructors
import PickBroker.Framework.Noninterference
import PickBroker.Framework.Int64Range
import PickBroker.Framework.Suffixes
import PickBroker.Store.Isolation
import PickBroker.Api.Messages
import PickBroker.Database.Database
import PickBroker.Database.Table
import PickBroker.Database.Changes
import PickBroker.Broker.Identifier
import PickBroker.Broker.Acceptance
import PickBroker.Broker.Backfill
import PickBroker.Broker.Intake
import PickBroker.Broker.Lifecycle
import PickBroker.Broker.Calls
import PickBroker.Broker.Queueing
import PickBroker.Broker.StoredTwice
import PickBroker.Broker.Deduplication
import PickBroker.Broker.Restart
import PickBroker.Broker.Shutdown
import PickBroker.Broker.Drain
import PickBroker.Framework.SideBySide
import PickBroker.Store.Cutoffs
import PickBroker.Broker.Cutoffs
import PickBroker.Options.PropertyTree
import PickBroker.Options.ServiceOptions
import PickBroker.Options.ProgramOptions
import PickBroker.Options.IniKeys
import PickBroker.Framework.Feeds
import PickBroker.Store.Feed
import PickBroker.Subscribe.Neighbours
import PickBroker.Broker.Following
import PickBroker.Broker.EndToEnd
import PickBroker.Framework.Precedence
import PickBroker.Broker.Durability
import PickBroker.Framework.Progress
import PickBroker.Broker.Timely
import PickBroker.Broker.Throughput
import PickBroker.Broker.Termination
import PickBroker.Process.Process
import PickBroker.Process.Supervision
import PickBroker.Process.ExitStatus
import PickBroker.Process.Reports
import PickBroker.Framework.Histories
import PickBroker.Database.File
import PickBroker.Process.Installation
import PickBroker.Process.Lifetimes
import PickBroker.Process.HalfMade
import PickBroker.Broker.Provenance
import PickBroker.Broker.Readers
import PickBroker.Framework.Handles
import PickBroker.Database.Statements
import PickBroker.Database.Finalization
import PickBroker.Options.Configuration
import PickBroker.Process.Main
