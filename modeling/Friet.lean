import Friet.Analytics.RateReports
import Friet.Analytics.Revenue
import Friet.Analytics.RevenueTotals
import Friet.Analytics.WinLoss
import Friet.Ar.Aging
import Friet.Ar.Allocation
import Friet.Ar.Digits
import Friet.Ar.Dunning
import Friet.Ar.Ledger
import Friet.Ar.Rejection
import Friet.Ar.Restriction
import Friet.Ar.Service
import Friet.Ar.Steps
import Friet.Audit.Redaction
import Friet.Auth.Access
import Friet.Auth.Lockout
import Friet.Auth.Mfa
import Friet.Auth.Rotation
import Friet.Auth.Seeding
import Friet.Auth.Service
import Friet.Auth.Sessions
import Friet.Auth.Steps
import Friet.Awb.Amendments
import Friet.Awb.Hierarchy
import Friet.Awb.Numbers
import Friet.Awb.Service
import Friet.Awb.Steps
import Friet.Calendar
import Friet.Claims.Lifecycle
import Friet.Claims.Service
import Friet.Commercial.Acceptance
import Friet.Commercial.BelowMargin
import Friet.Commercial.BillMatching
import Friet.Commercial.Credit
import Friet.Commercial.Currency
import Friet.Commercial.Handover
import Friet.Commercial.Pricing
import Friet.Commercial.Quotations
import Friet.Commercial.RateLifecycle
import Friet.Commercial.RateOptions
import Friet.Commercial.RateVersions
import Friet.Commercial.Reconciliation
import Friet.Commercial.Settlements
import Friet.Commercial.Steps
import Friet.Commercial.Tables
import Friet.Concurrency
import Friet.Core
import Friet.Database
import Friet.Dgr.Gate
import Friet.Dgr.Service
import Friet.Dgr.Steps
import Friet.Documents.Checklist
import Friet.Documents.Commute
import Friet.Documents.Gate
import Friet.Documents.Portal
import Friet.Documents.Service
import Friet.Documents.Steps
import Friet.Documents.Storage
import Friet.Documents.Versions
import Friet.Eta.Alerts
import Friet.Eta.Baseline
import Friet.Eta.Cascade
import Friet.Eta.Deviations
import Friet.Eta.Feasible
import Friet.Eta.History
import Friet.Eta.Isolation
import Friet.Eta.Least
import Friet.Eta.Notifications
import Friet.Eta.Retimed
import Friet.Eta.Service
import Friet.Eta.Steps
import Friet.Events
import Friet.Exceptions.Alarm
import Friet.Exceptions.Escalations
import Friet.Exceptions.Lifecycle
import Friet.Exceptions.Margin
import Friet.Exceptions.Service
import Friet.Exceptions.Steps
import Friet.Financial.Currencies
import Friet.Financial.Ledger
import Friet.Financial.Service
import Friet.Financial.Steps
import Friet.Flight.Conservation
import Friet.Flight.Uld
import Friet.Fx.Locking
import Friet.Fx.Service
import Friet.Invoicing.Billing
import Friet.Invoicing.Conversion
import Friet.Invoicing.Numbering
import Friet.Invoicing.Pdf
import Friet.Invoicing.PdfLayout
import Friet.Invoicing.PdfStructure
import Friet.Invoicing.Realised
import Friet.Invoicing.Receivables
import Friet.Invoicing.Service
import Friet.Invoicing.Steps
import Friet.Invoicing.Totals
import Friet.Lcl.Allocation
import Friet.Lcl.Service
import Friet.Lcl.Suggestions
import Friet.Lib.Accumulate
import Friet.Lib.Apportion
import Friet.Lib.Arithmetic
import Friet.Lib.Base64
import Friet.Lib.Cascade
import Friet.Lib.Cells
import Friet.Lib.Chains
import Friet.Lib.Dict
import Friet.Lib.Ends
import Friet.Lib.Groups
import Friet.Lib.History
import Friet.Lib.Joins
import Friet.Lib.Json
import Friet.Lib.JsonElements
import Friet.Lib.JsonNumbers
import Friet.Lib.JsonStrings
import Friet.Lib.JsonText
import Friet.Lib.Numerals
import Friet.Lib.Occurrences
import Friet.Lib.Pdf
import Friet.Lib.PdfText
import Friet.Lib.Rounding
import Friet.Lib.RowLocks
import Friet.Lib.Run
import Friet.Lib.Scan
import Friet.Lib.Session
import Friet.Lib.Snapshot
import Friet.Lib.Table
import Friet.Lib.Tally
import Friet.Lib.Timetable
import Friet.Lib.TwoRuns
import Friet.Lib.Unicode
import Friet.Lib.Views
import Friet.Lib.Waterfall
import Friet.MasterData.Countries
import Friet.Middleware.ConcurrentPosts
import Friet.Middleware.Idempotency
import Friet.Middleware.Races
import Friet.Middleware.RateLimit
import Friet.Middleware.RateWindows
import Friet.Middleware.Tenants
import Friet.Outbox
import Friet.Pagination
import Friet.Payables.ActualCost
import Friet.Payables.Alarms
import Friet.Payables.Conservation
import Friet.Payables.CostLines
import Friet.Payables.Lifecycle
import Friet.Payables.Rejection
import Friet.Payables.Service
import Friet.Payables.Steps
import Friet.Payables.Variance
import Friet.Quoting.CreditOverrides
import Friet.Quoting.Lifecycle
import Friet.Quoting.Margins
import Friet.Quoting.Numbers
import Friet.Quoting.Requests
import Friet.Quoting.Service
import Friet.Quoting.Steps
import Friet.RateEngine.Boundaries
import Friet.RateEngine.ImportValidation
import Friet.RateEngine.Pivots
import Friet.RateEngine.Ports
import Friet.RateEngine.Resolution
import Friet.RateEngine.Versioning
import Friet.Redis.Locks
import Friet.Routing.CommercialRoutes
import Friet.Routing.Discovery
import Friet.Routing.Schedules
import Friet.Rules.Service
import Friet.Shipments.Agreement
import Friet.Shipments.Freight
import Friet.Shipments.Machines
import Friet.Shipments.Service
import Friet.Shipments.Steps
import Friet.Tariff.AirFreight
import Friet.Tariff.Approval
import Friet.Tariff.Carriers
import Friet.Tariff.Charges
import Friet.Tariff.Comparison
import Friet.Tariff.Completeness
import Friet.Tariff.Disclosure
import Friet.Tariff.Entities
import Friet.Tariff.Expiry
import Friet.Tariff.ImportReport
import Friet.Tariff.Importer
import Friet.Tariff.Privacy
import Friet.Tariff.Selection
import Friet.Tenancy.Isolation
import Friet.Tenancy.Rows
import Friet.Tenancy.Service
import Friet.Tenancy.Steps
import Friet.Tenancy.Variants
import Friet.Tracking.Service
import Friet.Workflow.Chain
import Friet.Workflow.Interleaved
import Friet.Workflow.Path
import Friet.Workflow.Service
import Friet.Workflow.Steps
