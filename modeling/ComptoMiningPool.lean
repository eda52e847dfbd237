import ComptoMiningPool.Jobs.Stream
import ComptoMiningPool.Rpc.Service
import ComptoMiningPool.Rpc.Payout
import ComptoMiningPool.Rpc.Accounting
import ComptoMiningPool.Rpc.Polling
import ComptoMiningPool.Client.StratumV1Client
import ComptoMiningPool.Client.Submission
import ComptoMiningPool.Pool.Freshness
import ComptoMiningPool.Async.Frame
import ComptoMiningPool.Client.Connection
import ComptoMiningPool.Client.Startup
import ComptoMiningPool.Client.Recipient
import ComptoMiningPool.Miner.StratumClient
import ComptoMiningPool.Miner.Agreement
import ComptoMiningPool.Pool.Delivery
import ComptoMiningPool.Pool.Notify
import ComptoMiningPool.Client.VersionGate
import ComptoMiningPool.Client.LineBuffer
import ComptoMiningPool.Client.Grammar
import ComptoMiningPool.Client.SubmitFields
import ComptoMiningPool.ORM.ClientService
import ComptoMiningPool.Async.Schedule
import ComptoMiningPool.ORM.Insertion
import ComptoMiningPool.ORM.LiveRows
import ComptoMiningPool.Async.Bursts
import ComptoMiningPool.Client.Batching
import ComptoMiningPool.Rpc.Fees
import ComptoMiningPool.Miner.BlockHash
import ComptoMiningPool.Async.Threads
import ComptoMiningPool.Rpc.Intervals
import ComptoMiningPool.Rpc.PollFailure
import ComptoMiningPool.Rpc.Capacity
import ComptoMiningPool.Client.Submitting
import ComptoMiningPool.Client.SubmissionRun
import ComptoMiningPool.Client.EntityOnce
import ComptoMiningPool.Client.SessionId
import ComptoMiningPool.Client.VersionBits
import ComptoMiningPool.Async.Obligations
import ComptoMiningPool.Client.JobLookup
import ComptoMiningPool.JavaScript.Calendar
import ComptoMiningPool.JavaScript.DateText
import ComptoMiningPool.JavaScript.TimeZone
import ComptoMiningPool.JavaScript.Date
import ComptoMiningPool.ORM.DateTime
import ComptoMiningPool.Async.Local
import ComptoMiningPool.Async.Channel
import ComptoMiningPool.Async.Lifting
import ComptoMiningPool.Client.Responses
import ComptoMiningPool.Client.Negotiation
import ComptoMiningPool.Miner.Script
import ComptoMiningPool.Miner.ScriptRun
import ComptoMiningPool.Session.Wire
import ComptoMiningPool.Session.Agreement
import ComptoMiningPool.Async.Budget
import ComptoMiningPool.Client.Provenance
import ComptoMiningPool.Client.Handover
import ComptoMiningPool.Client.MaskRefusal
import ComptoMiningPool.Session.Shares
import ComptoMiningPool.Async.Calls
import ComptoMiningPool.Pool.Ledger
import ComptoMiningPool.Session.Settlement
import ComptoMiningPool.Session.Acceptance
