import LdbBackend.Lib.Prog
import LdbBackend.Lib.Pool
import LdbBackend.Lib.Decimal
import LdbBackend.Lib.Binary
import LdbBackend.Model.Json
import LdbBackend.Model.Tables
import LdbBackend.Lib.Table
import LdbBackend.Model.Orm
import LdbBackend.Model.Helpers
import LdbBackend.Model.Forwarder
import LdbBackend.Model.Reconciliation
import LdbBackend.Model.Webhooks
import LdbBackend.Model.Customers
import LdbBackend.Model.Nightly
import LdbBackend.Model.Service
import LdbBackend.Model.Statements
import LdbBackend.Store.Writes
import LdbBackend.Store.Schema
import LdbBackend.Lib.Outcome
import LdbBackend.Delivery.Kind
import LdbBackend.Store.Alone
import LdbBackend.Delivery.Settle
import LdbBackend.Delivery.Deliver
import LdbBackend.Payments.Wallet
import LdbBackend.Model.NotANumber
import LdbBackend.Payments.NotANumber
import LdbBackend.Lib.Rounding
import LdbBackend.Payments.StoredCredit
import LdbBackend.Payments.Status
import LdbBackend.Payments.Books
import LdbBackend.Payments.Redelivery
import LdbBackend.Lib.Absorb
import LdbBackend.Payments.Effect
import LdbBackend.Payments.Posting
import LdbBackend.Payments.Order
import LdbBackend.Provision.Traces
import LdbBackend.Provision.Maintain
import LdbBackend.History.Ledger
import LdbBackend.History.Conservation
import LdbBackend.History.Agreement
import LdbBackend.Concurrent.Turns
import LdbBackend.Concurrent.Frame
import LdbBackend.Concurrent.Credit
import LdbBackend.Concurrent.Record
import LdbBackend.Concurrent.AppendOnly
import LdbBackend.Concurrent.LostUpdate
import LdbBackend.Isolation.Holdings
import LdbBackend.Isolation.Reads
import LdbBackend.Isolation.Conduct
import LdbBackend.Delivery.Posted
import LdbBackend.Isolation.Strays
import LdbBackend.History.Story
import LdbBackend.History.Reachable
import LdbBackend.History.CreditedOnce
import LdbBackend.Nightly.Items
import LdbBackend.Nightly.Examines
import LdbBackend.Delivery.Stopped
import LdbBackend.Nightly.Sound
import LdbBackend.Concurrent.Accounts
import LdbBackend.Concurrent.Profile
import LdbBackend.Concurrent.ProfileKept
import LdbBackend.Lib.Pages
import LdbBackend.Nightly.Completed
import LdbBackend.Payments.Paging
import LdbBackend.Delivery.Outbound
import LdbBackend.Payments.Progress
import LdbBackend.Provision.Resolve
import LdbBackend.Provision.Update
import LdbBackend.History.Identity
import LdbBackend.Isolation.Namespace
import LdbBackend.Model.Nomba
import LdbBackend.Nomba.Envelope
import LdbBackend.Payments.Simulated
import LdbBackend.Lib.Significand
import LdbBackend.Lib.Digits
import LdbBackend.Lib.Shortest
import LdbBackend.Payments.Recovered
import LdbBackend.Lib.Base64
import LdbBackend.Model.Hooks
import LdbBackend.Nomba.Signature
import LdbBackend.Lib.Normal
import LdbBackend.Lib.Numeral
import LdbBackend.Model.Formatting
import LdbBackend.Payments.Display
import LdbBackend.Lib.Contest
import LdbBackend.Concurrent.Duplicates
import LdbBackend.Model.TokenStore
import LdbBackend.Nomba.TokenAge
import LdbBackend.History.Heard
import LdbBackend.History.Mirror
import LdbBackend.Concurrent.Submissions
import LdbBackend.Model.Api
import LdbBackend.Lib.Ends
import LdbBackend.Model.Schemas
import LdbBackend.Api.Statuses
import LdbBackend.Api.Histories
import LdbBackend.Lib.JsonText
import LdbBackend.Model.Wire
import LdbBackend.History.Wire
import LdbBackend.Concurrent.PerCustomer
import LdbBackend.Lib.Rely
import LdbBackend.Concurrent.Lengthens
import LdbBackend.Nightly.Beside
import LdbBackend.Lib.MovingPages
import LdbBackend.Model.Reads
import LdbBackend.Payments.Browsing
import LdbBackend.Concurrent.Listed
import LdbBackend.Api.Accepted
import LdbBackend.Api.ServerErrors
