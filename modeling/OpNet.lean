import OpNet.Argument
import OpNet.Builtin
import OpNet.Definition
import OpNet.Device
import OpNet.Dispatch
import OpNet.EngineList
import OpNet.Fault
import OpNet.Gradient
import OpNet.Graph.Chain
import OpNet.Graph.Dependency
import OpNet.Net.Build
import OpNet.Net.Dag
import OpNet.Net.Pool
import OpNet.Net.Schedule
import OpNet.Net.Simple
import OpNet.Operator
import OpNet.Proofs.Dispatch.Binding
import OpNet.Proofs.Dispatch.Builtin
import OpNet.Proofs.Dispatch.Engine
import OpNet.Proofs.Dispatch.Fallback
import OpNet.Proofs.Dispatch.Footprint
import OpNet.Proofs.Gradient.Backward
import OpNet.Proofs.Graph.Chains
import OpNet.Proofs.Graph.Contraction
import OpNet.Proofs.Graph.Inference
import OpNet.Proofs.Graph.LinearRuns
import OpNet.Proofs.Graph.Parents
import OpNet.Proofs.Graph.Quotient
import OpNet.Proofs.History
import OpNet.Proofs.Net.Agreement
import OpNet.Proofs.Net.Ancestry
import OpNet.Proofs.Net.Building
import OpNet.Proofs.Net.Calls
import OpNet.Proofs.Net.Commutation
import OpNet.Proofs.Net.Completion
import OpNet.Proofs.Net.Constancy
import OpNet.Proofs.Net.Delivery
import OpNet.Proofs.Net.Exclusion
import OpNet.Proofs.Net.Failure
import OpNet.Proofs.Net.Handles
import OpNet.Proofs.Net.Ledger
import OpNet.Proofs.Net.Order
import OpNet.Proofs.Net.Outputs
import OpNet.Proofs.Net.Panic
import OpNet.Proofs.Net.Refinement
import OpNet.Proofs.Net.Relay
import OpNet.Proofs.Net.Replay
import OpNet.Proofs.Registry.Account
import OpNet.Proofs.Registry.History
import OpNet.Proofs.Store.Creation
import OpNet.Proofs.Store.History
import OpNet.Registry
import OpNet.Schema
import OpNet.Script.Behaviour
import OpNet.Script.Maker
import OpNet.Script.Query
import OpNet.Script.Recipe
import OpNet.Session.Command
import OpNet.Store.Creation
import OpNet.Store.Workspace
import OpNet.Value
import OpNet.Proofs.Argument.Reading
import OpNet.Proofs.EngineNames
import OpNet.Proofs.Gradient.Naming
import OpNet.Proofs.Graph.Duality
import OpNet.Proofs.Registry.Listing
import OpNet.Proofs.Schema.Verdict
import OpNet.Proofs.Schema.Usable
