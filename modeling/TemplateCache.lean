import TemplateCache.Json.Decode
import TemplateCache.Files.Walk
import TemplateCache.KeyMap
import TemplateCache.Duration
import TemplateCache.Text.Blank
import TemplateCache.Text.Percent
import TemplateCache.Path
import TemplateCache.Naming.Resolver
import TemplateCache.Record
import TemplateCache.Job
import TemplateCache.Digest.Blake3
import TemplateCache.Store.Memory
import TemplateCache.Store.KeyValue
import TemplateCache.Store.Files
import TemplateCache.Store.Remote
import TemplateCache.Compiler.Compile
import TemplateCache.Generator.Placeholder
import TemplateCache.Compiler.Upkeep
import TemplateCache.Compiler.Watching
import TemplateCache.Compiler.SettingsFile
import TemplateCache.Text.Lossy
import TemplateCache.Proofs.Compiler.Registration
import TemplateCache.Proofs.Compiler.Removal
import TemplateCache.Proofs.Compiler.Clearing
import TemplateCache.Proofs.Compiler.Leftovers
import TemplateCache.Proofs.Compiler.Backing
import TemplateCache.Proofs.Compiler.Update
import TemplateCache.Proofs.Compiler.Transparency
import TemplateCache.Proofs.Store.Shadow
import TemplateCache.Proofs.Registry.History
import TemplateCache.Proofs.Compiler.Lookup
import TemplateCache.Proofs.Store.Document
import TemplateCache.Proofs.Compiler.Variants.Installation
import TemplateCache.Proofs.Compiler.Absence
import TemplateCache.Proofs.Store.Sweep
import TemplateCache.Proofs.Store.Sweep.Alone
import TemplateCache.Proofs.Store.Atomic
import TemplateCache.Proofs.Store.Repetition
import TemplateCache.Proofs.Files.Walk
import TemplateCache.Proofs.Job.Prompt
import TemplateCache.Proofs.Store.Scan
import TemplateCache.Proofs.Compiler.Discovery
import TemplateCache.Proofs.Compiler.Failure
import TemplateCache.Proofs.Compiler.Records
import TemplateCache.Proofs.Job.Steady
import TemplateCache.Proofs.Compiler.Query
import TemplateCache.Proofs.Compiler.Policy
import TemplateCache.Proofs.Compiler.Sharing
import TemplateCache.Proofs.Compiler.Cancellation
import TemplateCache.Proofs.Compiler.Vigil
import TemplateCache.Proofs.Compiler.Inline
import TemplateCache.Proofs.Store.Persistence
import TemplateCache.Proofs.Compiler.Withdrawal
import TemplateCache.Proofs.Files.Ancestors
import TemplateCache.Proofs.Job.Safely
import TemplateCache.Proofs.Files.Below
import TemplateCache.Proofs.Store.OutputPath
import TemplateCache.Proofs.Store.Building
import TemplateCache.Proofs.Store.Fleet
import TemplateCache.Proofs.Store.Separation
import TemplateCache.Proofs.Naming.CodeKey
import TemplateCache.Proofs.CodeCache.History
import TemplateCache.Proofs.Store.Tenants
import TemplateCache.Proofs.Compiler.Patrol
import TemplateCache.Proofs.Text.Form
import TemplateCache.Proofs.Naming.Params
import TemplateCache.Proofs.Files.Confined
import TemplateCache.Proofs.Store.Confinement
import TemplateCache.Proofs.Store.SourceNames
import TemplateCache.Proofs.Url.Below
import TemplateCache.Proofs.Store.BaseUrl
import TemplateCache.Proofs.Files.Nested
import TemplateCache.Proofs.Store.Clearance
import TemplateCache.Proofs.Store.Mirror
import TemplateCache.Proofs.Files.Spelling
import TemplateCache.Proofs.Store.Reloading
import TemplateCache.Proofs.Url.Encoding
import TemplateCache.Proofs.Url.Literal
import TemplateCache.Proofs.Store.Resources
import TemplateCache.Proofs.Compiler.Patrol.Punctual
import TemplateCache.Proofs.Batch
import TemplateCache.Proofs.Registry.Index
import TemplateCache.Proofs.Compiler.Fallback
import TemplateCache.Proofs.Job.Race
import TemplateCache.Proofs.Compiler.Desertion
