import Choreography.Table
import Choreography.Runs
import Choreography.Postgres
import Choreography.Event
import Choreography.Order
import Choreography.OrderRuns
import Choreography.DeliveryOrder
import Choreography.Inventory
import Choreography.Payment
import Choreography.PaymentRuns
import Choreography.Programs
import Choreography.Relay
import Choreography.RelayRuns
import Choreography.RelayRace
import Choreography.RelayAgreement
import Choreography.Producer
import Choreography.Transactions
import Choreography.Serializability
import Choreography.RowLocks
import Choreography.Stock
import Choreography.Consumers
import Choreography.Saga
import Choreography.System
import Choreography.Facts
import Choreography.Refinement
import Choreography.Agreement
import Choreography.Refunds
import Choreography.Rest
import Choreography.ExactlyOnce
import Choreography.OrderTransactions
import Choreography.Metrics
import Choreography.Stalls
import Choreography.Releases
import Choreography.Fake
import Choreography.Calendar
import Choreography.Timestamps
import Choreography.Wire
import Choreography.Bodies
import Choreography.Bytes
import Choreography.Ids
import Choreography.Completion
import Choreography.Aftermath
import Choreography.InventoryStatements
import Choreography.InventoryTransactions
import Choreography.PaymentTransactions
import Choreography.Tracing
import Choreography.Deployment
import Choreography.DeploymentRefinement
import Choreography.Clients
import Choreography.RelayProgress
