import ThingIfSdk.Lib.JsonToken
import ThingIfSdk.Lib.JsonValue
import ThingIfSdk.Lib.Monitor
import ThingIfSdk.Model.Api
import ThingIfSdk.Command.Run
import ThingIfSdk.Command.Parsers
import ThingIfSdk.Command.Reading
import ThingIfSdk.Command.Dispatch
import ThingIfSdk.Command.Reference
import ThingIfSdk.Command.Results
import ThingIfSdk.Command.Reporting
import ThingIfSdk.Command.Ignoring
import ThingIfSdk.Command.Skipping
import ThingIfSdk.Lib.Stage
import ThingIfSdk.Requests.Stages
import ThingIfSdk.Model.Updater
import ThingIfSdk.Requests.Bodies
import ThingIfSdk.Requests.Discipline
import ThingIfSdk.Requests.Scripted
import ThingIfSdk.Lib.CString
import ThingIfSdk.Requests.Paths
import ThingIfSdk.Command.Capacity
import ThingIfSdk.Command.Splitting
import ThingIfSdk.Command.Messages
import ThingIfSdk.Lib.JsonTemplate
import ThingIfSdk.Requests.Members
import ThingIfSdk.Requests.Escaping
import ThingIfSdk.Requests.Exchange
import ThingIfSdk.Requests.Handshake
import ThingIfSdk.Requests.Twins
import ThingIfSdk.Requests.Failures
import ThingIfSdk.Requests.Siblings
import ThingIfSdk.Requests.Agreement
import ThingIfSdk.Requests.Endings
import ThingIfSdk.Requests.ErrorCodes
import ThingIfSdk.Requests.Assertions
import ThingIfSdk.Command.Restoring
import ThingIfSdk.Requests.Period
import ThingIfSdk.Command.Params
import ThingIfSdk.Lib.Run
import ThingIfSdk.Requests.Runs
import ThingIfSdk.Requests.Credentials
import ThingIfSdk.Requests.Starting
import ThingIfSdk.Requests.ErrorRecord
import ThingIfSdk.Lib.Replica
import ThingIfSdk.Command.Tasks
import ThingIfSdk.Requests.History
import ThingIfSdk.System.Vocabulary
import ThingIfSdk.System.Machine
import ThingIfSdk.System.Identity
import ThingIfSdk.System.Ownership
import ThingIfSdk.System.Addresses
import ThingIfSdk.Lib.Register
import ThingIfSdk.System.Server
import ThingIfSdk.System.Registers
import ThingIfSdk.Command.Handling
import ThingIfSdk.Lib.Refinement
import ThingIfSdk.System.Duties
import ThingIfSdk.Lib.Unwinding
import ThingIfSdk.System.Independence
import ThingIfSdk.Requests.Replay
import ThingIfSdk.Lib.JsonSpan
import ThingIfSdk.Command.Tokens
import ThingIfSdk.Command.Rounds
import ThingIfSdk.Command.Elements
import ThingIfSdk.Command.Reach
import ThingIfSdk.Command.Budget
import ThingIfSdk.Command.Termination
