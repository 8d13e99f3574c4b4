import Mnemo.Lib.StateMachine
import Mnemo.Lib.ObservedRemove
import Mnemo.Lib.Documents
import Mnemo.Sync.Replicas
import Mnemo.Core.Basic
import Mnemo.Core.Text
import Mnemo.Auth.Revocation
import Mnemo.Auth.Delegation
import Mnemo.Agent.Contamination
import Mnemo.Ingest.Bitemporal
import Mnemo.Ingest.Resolution
import Mnemo.Ingest.Order
import Mnemo.Agent.AuditChain
import Mnemo.Sync.HybridClock
import Mnemo.Agent.Allowlist
import Mnemo.Lib.Protocol
import Mnemo.Core.Uuid
import Mnemo.Agent.Updates
import Mnemo.Agent.AuditLog
import Mnemo.Agent.History
import Mnemo.Agent.Promotion
import Mnemo.Sync.GCounter
import Mnemo.Sync.LastWriter
import Mnemo.Sync.MerkleDigest
import Mnemo.Memory.NameIndex
import Mnemo.Memory.Users
import Mnemo.Memory.Pagination
import Mnemo.Lib.SecondaryIndex
import Mnemo.Ingest.Retries
import Mnemo.Ingest.Deletion
import Mnemo.Region.Access
import Mnemo.Import.Idempotency
import Mnemo.Import.Stages
import Mnemo.Agent.Fork
import Mnemo.Attachment.Model
import Mnemo.Attachment.Store
import Mnemo.Attachment.Upload
import Mnemo.Ingest.Summaries
import Mnemo.Graph.History
import Mnemo.Graph.Interleaving
import Mnemo.Graph.Downgrades
import Mnemo.Ingest.Stranded
import Mnemo.Webhook.Circuit
import Mnemo.Agent.Evidence
import Mnemo.Agent.Listing
import Mnemo.Agent.Collision
import Mnemo.Webhook.Removal
import Mnemo.Webhook.Outcome
import Mnemo.Ingest.Selection
import Mnemo.Ingest.Coexistence
import Mnemo.Lib.BreadthFirst
import Mnemo.Graph.Traversal
import Mnemo.Graph.ShortestPath
import Mnemo.Graph.Communities
import Mnemo.Graph.EdgeQueries
import Mnemo.Lib.Scroll
import Mnemo.Compression.Tier
import Mnemo.Compression.Sweep
import Mnemo.Lib.WriteBack
import Mnemo.Lora.Embedder
import Mnemo.Lora.Accumulation
import Mnemo.Lib.FileTree
import Mnemo.Blob.LocalStore
import Mnemo.Blob.Keys
import Mnemo.Blob.Refinement
import Mnemo.Blob.Runs
import Mnemo.Lib.PercentEncoding
import Mnemo.Lib.Url
import Mnemo.Lib.UrlText
import Mnemo.Lib.UrlParts
import Mnemo.Lib.UrlTemplate
import Mnemo.Mcp.Server
import Mnemo.Mcp.Tools
import Mnemo.Mcp.Resources
import Mnemo.Mcp.Templates
import Mnemo.Mcp.Confinement
import Mnemo.Mcp.Calls
import Mnemo.Sync.VectorClock
import Mnemo.Guardrail.Model
import Mnemo.Guardrail.Evaluation
import Mnemo.Guardrail.Validation
import Mnemo.Context.Budget
import Mnemo.Context.Assembly
import Mnemo.Lib.ByteSlice
import Mnemo.Context.Tiered
import Mnemo.Context.TierBudgets
import Mnemo.Context.Slices
import Mnemo.Lib.Greedy
import Mnemo.Lib.Newest
import Mnemo.Retrieval.Merge
import Mnemo.Ingest.Backoff
import Mnemo.Lib.FaultPlan
import Mnemo.Episode.Model
import Mnemo.Episode.Creation
import Mnemo.Episode.Failures
import Mnemo.Lib.Replay
import Mnemo.Webhook.Replay
import Mnemo.Recall.View
import Mnemo.Lib.CappedLog
import Mnemo.Webhook.Audit
import Mnemo.Lib.Snapshots
import Mnemo.Webhook.Persistence
import Mnemo.Webhook.AddressGuard
import Mnemo.Lib.Base64
import Mnemo.Encryption.Envelope
import Mnemo.Lib.QuotedFields
import Mnemo.Encryption.Rotation
import Mnemo.Encryption.Authenticity
import Mnemo.Lib.Dense
import Mnemo.Graph.EntityListing
import Mnemo.Lib.Lines
import Mnemo.Document.Chunking
import Mnemo.Document.Structural
import Mnemo.Document.Fixed
import Mnemo.Lib.Escaping
import Mnemo.Retrieval.SearchQuery
import Mnemo.Lib.ByteSearch
import Mnemo.Extraction.Salvage
import Mnemo.Extraction.Parsing
import Mnemo.Import.DryRun
import Mnemo.Import.Conversation
import Mnemo.Import.Synthetic
import Mnemo.Memory.Messages
import Mnemo.Recall.TimeLimits
import Mnemo.Retrieval.Feedback
import Mnemo.Graph.Statements
import Mnemo.Sync.Causality
import Mnemo.Retrieval.Fusion
import Mnemo.Webhook.Bounds
