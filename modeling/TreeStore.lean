import TreeStore.Graph
import TreeStore.Lock.Workers
import TreeStore.Log.Handlers
import TreeStore.Main
import TreeStore.Session
import TreeStore.Shell.Program
import TreeStore.Proofs.Path.Canonical
import TreeStore.Proofs.Path.Backward
import TreeStore.Proofs.Graph.Cells
import TreeStore.Proofs.Graph.Linked
import TreeStore.Proofs.Graph.Walk
import TreeStore.Proofs.Graph.Siblings
import TreeStore.Proofs.PathMap
import TreeStore.Proofs.Effect
import TreeStore.Proofs.Graph.PathMap
import TreeStore.Proofs.Node.Copies
import TreeStore.Proofs.Graph.View
import TreeStore.Proofs.Store.Bodies
import TreeStore.Proofs.Store.Reachable
import TreeStore.Proofs.Store.Run
import TreeStore.Proofs.Store.Lifetime
import TreeStore.Proofs.Store.Snapshots
import TreeStore.Proofs.Store.Independent
import TreeStore.Proofs.Pool
import TreeStore.Proofs.Session.Lockstep
import TreeStore.Proofs.Session.Refused
import TreeStore.Proofs.Lock.Section
import TreeStore.Proofs.Lock.Exclusion
import TreeStore.Proofs.Lock.Wakeup
import TreeStore.Proofs.Session.Settle
import TreeStore.Proofs.Session.Memory
import TreeStore.Proofs.Session.Law
import TreeStore.Proofs.Session.Linear
import TreeStore.Proofs.Session.Once
import TreeStore.Proofs.Session.Moment
import TreeStore.Proofs.Session.Safe
import TreeStore.Proofs.Session.Accounting
import TreeStore.Proofs.Graph.Traversal
import TreeStore.Proofs.Store.Restore
import TreeStore.Proofs.Store.Reads
import TreeStore.Proofs.Store.Arrival
import TreeStore.Proofs.Shell.Commands
import TreeStore.Proofs.Json.Ascii
import TreeStore.Proofs.Shell.Script
import TreeStore.Proofs.Shell.Conversation
import TreeStore.Proofs.Path.Concat
import TreeStore.Proofs.Store.Resolve
import TreeStore.Proofs.Store.Size
import TreeStore.Proofs.Store.Tree
import TreeStore.Proofs.Store.Undo
import TreeStore.Proofs.Graph.Acyclic
import TreeStore.Proofs.Lock.Release
import TreeStore.Proofs.Graph.Wired
import TreeStore.Proofs.Graph.Planted
import TreeStore.Proofs.Graph.Sharing
import TreeStore.Proofs.Graph.Duplicate
import TreeStore.Proofs.Graph.Copying
import TreeStore.Proofs.Session.Ledger
import TreeStore.Proofs.Session.Deeds
import TreeStore.Proofs.Session.Dispatch
import TreeStore.Proofs.Text.Decimal
import TreeStore.Proofs.Json.Strings
import TreeStore.Proofs.Json.RoundTrip
import TreeStore.Proofs.Json.Short
import TreeStore.Proofs.Json.Lossless
import TreeStore.Proofs.Messages
import TreeStore.Proofs.Config.Verdict
import TreeStore.Proofs.Config.RoundTrip
import TreeStore.Proofs.Messages.History
import TreeStore.Proofs.Session.Chronicle
import TreeStore.Proofs.Log.Handlers
