import OsConfig.Library.ChainLogic
import OsConfig.Library.RoseTree
import OsConfig.Library.Numerals
import OsConfig.Library.BitMasks
import OsConfig.Library.Logged
import OsConfig.Library.Glob
import OsConfig.Library.Transitions
import OsConfig.Library.Substrings
import OsConfig.Library.Chunks
import OsConfig.Library.Lines
import OsConfig.Library.Quoting
import OsConfig.Library.Worklist
import OsConfig.Library.Words
import OsConfig.Library.Fallible
import OsConfig.Library.Assignments
import OsConfig.Library.Formats
import OsConfig.Library.Directories
import OsConfig.Library.DesiredEntries
import OsConfig.Library.Buffers
import OsConfig.Library.PercentEncoding
import OsConfig.Library.ShellWords.Literal
import OsConfig.Library.ShellWords.Lossless
import OsConfig.Library.ShellWords.Pipelines
import OsConfig.Common.Bytes
import OsConfig.Common.Parson
import OsConfig.Common.Streams
import OsConfig.Common.FileUtils
import OsConfig.Common.FileUtils.Appending
import OsConfig.Common.FileUtils.Saving
import OsConfig.Common.FileUtils.MarkedLines
import OsConfig.Common.FileUtils.Editing
import OsConfig.Common.FileUtils.FailingEdits
import OsConfig.Common.FileUtils.LostLines
import OsConfig.Common.Reasons
import OsConfig.Common.FileUtils.Options
import OsConfig.Common.FileUtils.Comments
import OsConfig.Common.FileUtils.JoinedLines
import OsConfig.Common.FileUtils.EtcConf
import OsConfig.Common.FileUtils.KeyLookup
import OsConfig.Common.Formatting
import OsConfig.Common.MountTable
import OsConfig.Common.UrlUtils
import OsConfig.Common.CommandUtils
import OsConfig.Common.ProxyUtils
import OsConfig.Common.ProxyUtils.Forms
import OsConfig.Common.ProxyUtils.Urls
import OsConfig.Common.PassUtils
import OsConfig.Common.PassUtils.CreationRequirements
import OsConfig.Common.PassUtils.PwQualityConf
import OsConfig.Common.PassUtils.Lockout
import OsConfig.Common.PassUtils.Lockout.Remediation
import OsConfig.Common.PassUtils.Lockout.FaillockConf
import OsConfig.Common.PassUtils.Lockout.Idempotence
import OsConfig.Common.PasswordAging
import OsConfig.Common.PasswordAging.Verdicts
import OsConfig.Common.PackageUtils
import OsConfig.Common.PackageUtils.Absence
import OsConfig.Common.SshUtils
import OsConfig.Common.SshUtils.Session
import OsConfig.Common.SshUtils.Algorithms
import OsConfig.Common.SshUtils.Configuration
import OsConfig.Common.UserUtils
import OsConfig.Common.UserUtils.Passwords
import OsConfig.Common.UserUtils.Groups
import OsConfig.Common.UserUtils.Aging
import OsConfig.Common.UserUtils.RootGroup
import OsConfig.Common.Parson.Parser
import OsConfig.Common.Parson.RoundTrip
import OsConfig.Common.Parson.Locality
import OsConfig.Common.Parson.Plain
import OsConfig.Common.Parson.Validity
import OsConfig.ComplianceEngine.Result
import OsConfig.ComplianceEngine.Indicators
import OsConfig.ComplianceEngine.Formatters
import OsConfig.ComplianceEngine.Procedures
import OsConfig.ComplianceEngine.Lua
import OsConfig.ComplianceEngine.Evaluator
import OsConfig.ComplianceEngine.Evaluator.Walk
import OsConfig.ComplianceEngine.Evaluator.AuditMode
import OsConfig.ComplianceEngine.Evaluator.Recording
import OsConfig.ComplianceEngine.Evaluator.Kleene
import OsConfig.ComplianceEngine.Evaluator.Scripts
import OsConfig.ComplianceEngine.Base64
import OsConfig.ComplianceEngine.Base64.RoundTrip
import OsConfig.ComplianceEngine.Base64.Padding
import OsConfig.ComplianceEngine.Procedure
import OsConfig.ComplianceEngine.Engine
import OsConfig.ComplianceEngine.Engine.Database
import OsConfig.ComplianceEngine.Interface
import OsConfig.ComplianceEngine.Procedures.FilePermissions
import OsConfig.ComplianceEngine.Procedures.FilePermissions.Compliance
import OsConfig.ComplianceEngine.Procedures.FilePermissions.Conflicts
import OsConfig.Common.FileUtils.Access
import OsConfig.Common.Asb.BootloaderConfig
import OsConfig.Common.Asb.CoreDumps
import OsConfig.ComplianceEngine.Procedures.AuditdRules
import OsConfig.ComplianceEngine.Procedures.Task
import OsConfig.ComplianceEngine.Procedures.Aggregates
import OsConfig.ComplianceEngine.Procedures.Aggregates.Reports
import OsConfig.ComplianceEngine.Procedures.Aggregates.Stack
import OsConfig.ComplianceEngine.Procedures.Aggregates.Folding
import OsConfig.ComplianceEngine.FilesystemScanner
import OsConfig.ComplianceEngine.FilesystemScanner.RoundTrip
import OsConfig.ComplianceEngine.Formatters.Reading
import OsConfig.ComplianceEngine.Formatters.Evidence
import OsConfig.ComplianceEngine.Interface.Reporting
import OsConfig.ComplianceEngine.Evaluator.Observation
import OsConfig.ComplianceEngine.Evaluator.DeMorgan
import OsConfig.ComplianceEngine.Evaluator.NormalForm
import OsConfig.ComplianceEngine.Procedure.UserParameters
import OsConfig.ComplianceEngine.Procedure.Grammar
import OsConfig.ComplianceEngine.Procedure.Rendering
import OsConfig.ComplianceEngine.Procedure.Atomicity
import OsConfig.ComplianceEngine.Engine.Payloads
import OsConfig.ComplianceEngine.DistributionInfo
import OsConfig.ComplianceEngine.DistributionInfo.OsRelease
import OsConfig.ComplianceEngine.DistributionInfo.Iterator
import OsConfig.ComplianceEngine.BenchmarkInfo
import OsConfig.ComplianceEngine.BenchmarkInfo.Keys
import OsConfig.ComplianceEngine.FilesystemScanner.Serving
import OsConfig.ComplianceEngine.Procedures.SshdOption
import OsConfig.ComplianceEngine.StringTools
import OsConfig.ComplianceEngine.NetworkTools
import OsConfig.ComplianceEngine.NetworkTools.Enumeration
import OsConfig.ComplianceEngine.FileTreeWalk
import OsConfig.ComplianceEngine.FileTreeWalk.EarlyBreak
import OsConfig.ComplianceEngine.Procedures.FirewallOpenPorts
import OsConfig.ComplianceEngine.Procedures.FirewallOpenPorts.Tables
import OsConfig.ComplianceEngine.Procedures.FirewallOpenPorts.Ufw
import OsConfig.ComplianceEngine.Procedures.SshdOption.Query
import OsConfig.ComplianceEngine.Procedures.PackageInstalled
import OsConfig.ComplianceEngine.Procedures.PackageInstalled.Versions
import OsConfig.ComplianceEngine.Procedures.PackageInstalled.CacheFile
import OsConfig.ComplianceEngine.Procedures.PackageInstalled.Ordering
import OsConfig.ComplianceEngine.Procedures.SysctlValue
import OsConfig.ComplianceEngine.Procedures.FilesystemMountOption
import OsConfig.ComplianceEngine.Procedures.FilesystemMountOption.Reading
import OsConfig.ComplianceEngine.Procedures.FilesystemMountOption.Rewriting
import OsConfig.ComplianceEngine.Procedures.FilesystemMountOption.Rereading
import OsConfig.CommandRunner.Command
import OsConfig.CommandRunner
import OsConfig.CommandRunner.Steps
import OsConfig.CommandRunner.Shutdown
import OsConfig.CommandRunner.Session
import OsConfig.CommandRunner.Eviction
import OsConfig.CommandRunner.FlagFiles
import OsConfig.CommandRunner.Cancellation
import OsConfig.CommandRunner.Cache
import OsConfig.CommandRunner.Reported
import OsConfig.CommandRunner.Order
import OsConfig.CommandRunner.Repetition
import OsConfig.CommandRunner.PersistedCache
import OsConfig.CommandRunner.PersistedCache.Agreement
import OsConfig.CommandRunner.PersistedCache.Restart
import OsConfig.CommandRunner.Watching
import OsConfig.CommandRunner.Incomplete
import OsConfig.CommandRunner.FailedCalls
import OsConfig.CommandRunner.Payload
import OsConfig.Common.Sockets
import OsConfig.Platform.MpiClient
import OsConfig.Platform.MpiServer
import OsConfig.Platform.Transport
import OsConfig.Platform.Transparency
import OsConfig.Platform.MpiServer.Dispatch
import OsConfig.Platform.RequestBodies
import OsConfig.Platform.ModulesManager
import OsConfig.Platform.ModulesManager.Sessions
import OsConfig.Platform.ModulesManager.Desired
import OsConfig.Platform.ModulesManager.Reported
import OsConfig.Pmc
import OsConfig.Pmc.Phases
import OsConfig.Pmc.Documents
import OsConfig.Pmc.Requests
import OsConfig.Pmc.Runs
import OsConfig.Pmc.SourceFiles
import OsConfig.Pmc.PackageLines
import OsConfig.Pmc.Destinations
import OsConfig.Firewall
import OsConfig.Firewall.Order
import OsConfig.Firewall.Failures
import OsConfig.Firewall.Specifications
