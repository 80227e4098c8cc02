import SwaggerProvider.Table
import SwaggerProvider.Text.Basic
import SwaggerProvider.Text.Case
import SwaggerProvider.Text.Word
import SwaggerProvider.Text.SnakeCase
import SwaggerProvider.Decimal.Double
import SwaggerProvider.Json.Basic
import SwaggerProvider.Json.Number
import SwaggerProvider.Json.Printer
import SwaggerProvider.Json.Reader
import SwaggerProvider.Duration
import SwaggerProvider.Error
import SwaggerProvider.Log.Basic
import SwaggerProvider.Path.Basic
import SwaggerProvider.Path.Parents
import SwaggerProvider.Path.Template
import SwaggerProvider.Url.Percent
import SwaggerProvider.Url.Join
import SwaggerProvider.RegionHost
import SwaggerProvider.Swagger.Document
import SwaggerProvider.Swagger.Decode
import SwaggerProvider.Swagger.Encode
import SwaggerProvider.Swagger.Reference
import SwaggerProvider.Yaml.Cursor
import SwaggerProvider.Yaml.ScalarText
import SwaggerProvider.Yaml.Token
import SwaggerProvider.Yaml.CoreSchema
import SwaggerProvider.Yaml.Node
import SwaggerProvider.Yaml.Value
import SwaggerProvider.Yaml.Printer
import SwaggerProvider.Swagger.Source
import SwaggerProvider.Record.Basic
import SwaggerProvider.Record.Compile
import SwaggerProvider.Swagger.Merge
import SwaggerProvider.Url.Host
import SwaggerProvider.Url.Parse
import SwaggerProvider.Header
import SwaggerProvider.Security.Basic
import SwaggerProvider.Backend
import SwaggerProvider.Operation
import SwaggerProvider.Resource
import SwaggerProvider.Analysis
import SwaggerProvider.Block.Basic
import SwaggerProvider.Block.Encode
import SwaggerProvider.Block.Publish
import SwaggerProvider.Sha256
import SwaggerProvider.Config.Endpoint
import SwaggerProvider.Config.Provider
import SwaggerProvider.Config.Service
import SwaggerProvider.Payload
import SwaggerProvider.Filter
import SwaggerProvider.Text.Utf8
import SwaggerProvider.Http.Message
import SwaggerProvider.Http.Timeline
import SwaggerProvider.Security.Credentials
import SwaggerProvider.Client
import SwaggerProvider.Poll
import SwaggerProvider.Lifecycle
import SwaggerProvider.Provider
import SwaggerProvider.CommandLine
import SwaggerProvider.Main
import SwaggerProvider.Proofs.Gather
import SwaggerProvider.Proofs.Json.Agreement
import SwaggerProvider.Proofs.Payload.Entries
import SwaggerProvider.Proofs.Payload.Refresh
import SwaggerProvider.Proofs.Lifecycle.Refresh
import SwaggerProvider.Proofs.Outcome
import SwaggerProvider.Proofs.Record.Compile
import SwaggerProvider.Proofs.Record.Names
import SwaggerProvider.Proofs.Record.Invariant
import SwaggerProvider.Proofs.Payload.Converter
import SwaggerProvider.Proofs.Payload.RoundTrip
import SwaggerProvider.Proofs.Analysis.Skipping
import SwaggerProvider.Proofs.Analysis.Accounting
import SwaggerProvider.Proofs.Path.Prefix
import SwaggerProvider.Proofs.Path.Parents
import SwaggerProvider.Proofs.Analysis.Grounding
import SwaggerProvider.Proofs.Analysis.Ancestry
import SwaggerProvider.Proofs.Swagger.Calls
import SwaggerProvider.Proofs.Swagger.Meaning
import SwaggerProvider.Proofs.Lifecycle.Addressing
import SwaggerProvider.Proofs.Lifecycle.LastAnswer
import SwaggerProvider.Proofs.Poll.Reaching
import SwaggerProvider.Proofs.Lifecycle.Unsaid
import SwaggerProvider.Proofs.Lifecycle.Deletion
import SwaggerProvider.Proofs.Config.Endpoints
import SwaggerProvider.Proofs.Provider.Configuring
import SwaggerProvider.Proofs.Provider.Serving
import SwaggerProvider.Proofs.Config.Credentials
import SwaggerProvider.Proofs.Security.Satisfaction
import SwaggerProvider.Proofs.Provider.Stopping
import SwaggerProvider.Proofs.Url.Percent
import SwaggerProvider.Proofs.Log.Redaction
import SwaggerProvider.Proofs.Payload.Masking
import SwaggerProvider.Proofs.Lifecycle.Secrets
import SwaggerProvider.Proofs.Text.Pieces
import SwaggerProvider.Proofs.Lifecycle.RequestLog
import SwaggerProvider.Proofs.Url.Segments
import SwaggerProvider.Proofs.Url.Address
import SwaggerProvider.Proofs.Path.Filling
import SwaggerProvider.Proofs.Lifecycle.Instances
import SwaggerProvider.Proofs.Analysis.Operations
import SwaggerProvider.Proofs.Config.Headers
import SwaggerProvider.Proofs.Table.Sorted
import SwaggerProvider.Proofs.Block.Attributes
import SwaggerProvider.Proofs.Config.Hosts
import SwaggerProvider.Proofs.Analysis.Reordering
import SwaggerProvider.Proofs.Poll.Deadline
import SwaggerProvider.Proofs.Swagger.Merging
import SwaggerProvider.Proofs.Record.Acceptance
import SwaggerProvider.Proofs.Analysis.Refusal
import SwaggerProvider.Proofs.Json.Likeness
import SwaggerProvider.Proofs.Swagger.Members
import SwaggerProvider.Proofs.Swagger.Nodes
import SwaggerProvider.Proofs.Swagger.Ways
import SwaggerProvider.Proofs.Swagger.Likeness
import SwaggerProvider.Proofs.Swagger.Lossless
import SwaggerProvider.Proofs.Path.Ancestors
import SwaggerProvider.Proofs.Url.Assembly
import SwaggerProvider.Proofs.Security.Precedence
import SwaggerProvider.Proofs.Payload.Inputs
import SwaggerProvider.Proofs.Block.Settable
import SwaggerProvider.Proofs.Text.SnakeCase
import SwaggerProvider.Proofs.Json.Reordered
import SwaggerProvider.Proofs.Payload.Order
import SwaggerProvider.Proofs.Block.Origins
import SwaggerProvider.Proofs.Block.WellFormed
import SwaggerProvider.Proofs.Block.Sources
import SwaggerProvider.Proofs.Json.Distinct
import SwaggerProvider.Proofs.Config.Grammar
import SwaggerProvider.Proofs.Analysis.Collections
import SwaggerProvider.Proofs.Payload.Status
import SwaggerProvider.Proofs.Lifecycle.Selection
