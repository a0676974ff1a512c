import Vantage.App.ScanTraffic
import Vantage.Ai.Prompt
import Vantage.App.Outside
import Vantage.Scan.Results
import Vantage.App.ControlPlane
import Vantage.App.AiCommands
import Vantage.Scan.AuditTrail
import Vantage.App.Contacts
import Vantage.App.Provenance
import Vantage.Adapters.External.Conversation
import Vantage.Findings.Reporting
import Vantage.Scan.Completion
import Vantage.Scan.Seeds
import Vantage.Findings.OrderFree
import Vantage.Findings.Correlation
import Vantage.Adapters.Native.Base
import Vantage.Lib.Regex
import Vantage.Scan.Prober
import Vantage.Adapters.Http
import Vantage.Findings.Proof
import Vantage.Lib.Json
import Vantage.Scope.Monotone
import Vantage.Scope.Respelling
import Vantage.EgressProxy.Agreement
import Vantage.EgressProxy.Tunnel
import Vantage.EgressProxy.RulesFile
import Vantage.Governance.Expression
import Vantage.Scan.Record
import Vantage.Adapters.RateLimit
import Vantage.Persistence.Columns
import Vantage.Scan.Recheck
import Vantage.Adapters.Native.Silence
import Vantage.Scan.Advice
import Vantage.Adapters.Native.Redaction
import Vantage.Scan.PolicyReach
import Vantage.Adapters.BadRecord
import Vantage.Findings.Merging
import Vantage.Findings.Markdown
import Vantage.Scan.ConfirmedOnly
import Vantage.Engines.Approval
import Vantage.Adapters.Oss.Jsonl
import Vantage.App.LocalPaths
import Vantage.Scan.FeedbackLoop
import Vantage.Scan.Cleanup
import Vantage.Scope.DefaultRules
import Vantage.Scope.PrivateReach
import Vantage.Planner.Accounting
import Vantage.Governance.Inventory
import Vantage.Ai.Presentation
import Vantage.Ai.Fences
import Vantage.Adapters.Native.CrawlOrder
import Vantage.Adapters.Native.Hrefs
import Vantage.Persistence.Sessions
import Vantage.Domain.EvidenceBody
import Vantage.Scan.RateReach
import Vantage.Findings.FindingsTable
import Vantage.Scan.Rescans
import Vantage.App.OnTarget
