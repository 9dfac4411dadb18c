import TeeChaincode.Common.Bytes
import TeeChaincode.Common.Memory
import TeeChaincode.Common.Guest
import TeeChaincode.Common.Numeral
import TeeChaincode.Model.Comm
import TeeChaincode.Model.Session
import TeeChaincode.Model.Natives
import TeeChaincode.Model.Ta
import TeeChaincode.Model.Coffee
import TeeChaincode.Model.Proxy
import TeeChaincode.Model.Wrapper
import TeeChaincode.Model.System
import TeeChaincode.Coffee.Memory
import TeeChaincode.Coffee.Numbers
import TeeChaincode.Ta.Natives
import TeeChaincode.Coffee.Steps
import TeeChaincode.Ta.Commands
import TeeChaincode.Proxy.Marshal
import TeeChaincode.Coffee.Phase
import TeeChaincode.Coffee.Commands
import TeeChaincode.Common.Run
import TeeChaincode.Coffee.Refinement
import TeeChaincode.Coffee.Layout
import TeeChaincode.Coffee.Once
import TeeChaincode.Coffee.Ledger
import TeeChaincode.Coffee.Balance
import TeeChaincode.Coffee.Existence
import TeeChaincode.System.Moves
import TeeChaincode.System.Conformance
import TeeChaincode.Proxy.Calls
import TeeChaincode.Ta.Record
import TeeChaincode.System.Requests
import TeeChaincode.System.Answers
import TeeChaincode.Ta.Executed
import TeeChaincode.Proxy.Concurrent
import TeeChaincode.Ta.Leftover
import TeeChaincode.Ta.Rows
import TeeChaincode.Ta.Failures
import TeeChaincode.Ta.Guards
import TeeChaincode.Ta.Representation
import TeeChaincode.Common.Store
import TeeChaincode.Coffee.Commute
import TeeChaincode.Coffee.Presence
import TeeChaincode.Coffee.Loop
import TeeChaincode.Coffee.OwnAnswer
import TeeChaincode.Coffee.Replies
import TeeChaincode.Coffee.Checked
import TeeChaincode.Coffee.Bounds
import TeeChaincode.Ta.Slot
import TeeChaincode.Ta.Delivery
import TeeChaincode.Ta.Shared
import TeeChaincode.System.Exchange
import TeeChaincode.System.RoundTrip
import TeeChaincode.Ta.Arguments
import TeeChaincode.Proxy.Strings
import TeeChaincode.System.Arguments
import TeeChaincode.Coffee.Keys
import TeeChaincode.Common.Simulation
import TeeChaincode.System.Progress
import TeeChaincode.System.Direct
import TeeChaincode.System.Snapshot
import TeeChaincode.Common.Automaton
import TeeChaincode.Ta.Lifecycle
import TeeChaincode.Coffee.Accounts
import TeeChaincode.System.Responses
import TeeChaincode.Coffee.Faults
import TeeChaincode.Model.Setup
import TeeChaincode.System.Uuid
import TeeChaincode.Ta.Budget
import TeeChaincode.Ta.Sandbox
