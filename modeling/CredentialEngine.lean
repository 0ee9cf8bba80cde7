import CredentialEngine.Catalog
import CredentialEngine.Claims.Account
import CredentialEngine.Claims.Body
import CredentialEngine.Claims.Imports
import CredentialEngine.Claims.Issue
import CredentialEngine.Claims.Token
import CredentialEngine.Claims.User
import CredentialEngine.Cluster.Control
import CredentialEngine.Cluster.Link
import CredentialEngine.Cluster.Reply
import CredentialEngine.Cluster.Scripted
import CredentialEngine.CommandLine.Arguments
import CredentialEngine.CommandLine.Invocation
import CredentialEngine.CommandLine.Run
import CredentialEngine.CommandLine.Setting
import CredentialEngine.Decimal.Binary64
import CredentialEngine.Dict
import CredentialEngine.Digest.Sha2
import CredentialEngine.Encoding.Checksum
import CredentialEngine.Encoding.Radix
import CredentialEngine.Error
import CredentialEngine.FileTree
import CredentialEngine.Json.Basic
import CredentialEngine.Json.Reader
import CredentialEngine.Json.Shape
import CredentialEngine.Json.Writer
import CredentialEngine.Key.Bundle
import CredentialEngine.Key.Curve
import CredentialEngine.Key.Pair
import CredentialEngine.Keyring.AccountKeys
import CredentialEngine.Keyring.Records
import CredentialEngine.Lifecycle.Account
import CredentialEngine.Lifecycle.Estate
import CredentialEngine.Lifecycle.Fleet
import CredentialEngine.Lifecycle.Manifests
import CredentialEngine.Lifecycle.Reconcile
import CredentialEngine.Lifecycle.User
import CredentialEngine.Lifecycle.World
import CredentialEngine.Main
import CredentialEngine.Manifest
import CredentialEngine.Net.Network
import CredentialEngine.Proofs.Action
import CredentialEngine.Proofs.Catalog
import CredentialEngine.Proofs.Catalog.Tenants
import CredentialEngine.Proofs.Claims.Acceptance
import CredentialEngine.Proofs.Claims.Account
import CredentialEngine.Proofs.Claims.Collisions
import CredentialEngine.Proofs.Claims.Constraints
import CredentialEngine.Proofs.Claims.Fields
import CredentialEngine.Proofs.Claims.Imports
import CredentialEngine.Proofs.Claims.Shapes
import CredentialEngine.Proofs.Claims.Signing
import CredentialEngine.Proofs.Claims.Token
import CredentialEngine.Proofs.Claims.User
import CredentialEngine.Proofs.Claims.UserReport
import CredentialEngine.Proofs.Cluster.Discipline
import CredentialEngine.Proofs.Cluster.Sharing
import CredentialEngine.Proofs.Cluster.Transcript
import CredentialEngine.Proofs.Decimal.Binary64
import CredentialEngine.Proofs.Dict
import CredentialEngine.Proofs.Digest.Sha2
import CredentialEngine.Proofs.Encoding.Radix
import CredentialEngine.Proofs.Encoding.Strict
import CredentialEngine.Proofs.FileTree
import CredentialEngine.Proofs.Json.Faithful
import CredentialEngine.Proofs.Json.Fields
import CredentialEngine.Proofs.Json.Keeping
import CredentialEngine.Proofs.Json.Layout
import CredentialEngine.Proofs.Json.Medium
import CredentialEngine.Proofs.Json.Reading
import CredentialEngine.Proofs.Key.Bundle
import CredentialEngine.Proofs.Key.Curve
import CredentialEngine.Proofs.Key.Layout
import CredentialEngine.Proofs.Key.Text
import CredentialEngine.Proofs.Keyring.Accumulation
import CredentialEngine.Proofs.Keyring.Choice
import CredentialEngine.Proofs.Keyring.Foreign
import CredentialEngine.Proofs.Keyring.Holding
import CredentialEngine.Proofs.Keyring.Lawful
import CredentialEngine.Proofs.Keyring.Migration
import CredentialEngine.Proofs.Keyring.Sources
import CredentialEngine.Proofs.Keyring.Steps
import CredentialEngine.Proofs.Lifecycle.Brackets
import CredentialEngine.Proofs.Lifecycle.Calls
import CredentialEngine.Proofs.Lifecycle.Creation
import CredentialEngine.Proofs.Lifecycle.Deletions
import CredentialEngine.Proofs.Lifecycle.Histories
import CredentialEngine.Proofs.Lifecycle.Identity
import CredentialEngine.Proofs.Lifecycle.Invariants
import CredentialEngine.Proofs.Lifecycle.Issuance
import CredentialEngine.Proofs.Lifecycle.KeyStability
import CredentialEngine.Proofs.Lifecycle.Observation
import CredentialEngine.Proofs.Lifecycle.Outcomes
import CredentialEngine.Proofs.Lifecycle.Ownership
import CredentialEngine.Proofs.Lifecycle.Phases
import CredentialEngine.Proofs.Lifecycle.Publication
import CredentialEngine.Proofs.Lifecycle.Removal
import CredentialEngine.Proofs.Lifecycle.Reports
import CredentialEngine.Proofs.Lifecycle.Revocation
import CredentialEngine.Proofs.Lifecycle.Runs
import CredentialEngine.Proofs.Lifecycle.Separation
import CredentialEngine.Proofs.Lifecycle.Signers
import CredentialEngine.Proofs.Lifecycle.Steps
import CredentialEngine.Proofs.Lifecycle.Uploads
import CredentialEngine.Proofs.Lifecycle.Withdrawal
import CredentialEngine.Proofs.Lifecycle.World
import CredentialEngine.Proofs.Manifest
import CredentialEngine.Proofs.Net.Address
import CredentialEngine.Proofs.Net.Network
import CredentialEngine.Proofs.Resource.Account
import CredentialEngine.Proofs.Resource.User
import CredentialEngine.Proofs.Resource.WriteBack
import CredentialEngine.Proofs.Secret.Apart
import CredentialEngine.Proofs.Secret.Deletion
import CredentialEngine.Proofs.Secret.Folder
import CredentialEngine.Proofs.Secret.Lawful
import CredentialEngine.Proofs.Secret.Names
import CredentialEngine.Proofs.Secret.Paths
import CredentialEngine.Proofs.Secret.Readable
import CredentialEngine.Proofs.Secret.Record
import CredentialEngine.Proofs.Secret.Refinement
import CredentialEngine.Proofs.Secret.Table
import CredentialEngine.Proofs.Text.Bytes
import CredentialEngine.Proofs.Text.Digits
import CredentialEngine.Proofs.Text.Order
import CredentialEngine.Proofs.Text.Splitting
import CredentialEngine.Proofs.Time.Calendar
import CredentialEngine.Proofs.Time.Clock
import CredentialEngine.Proofs.Time.Duration
import CredentialEngine.Proofs.Time.Duration.Parts
import CredentialEngine.Proofs.Time.Duration.Rounds
import CredentialEngine.Proofs.Time.Timestamp
import CredentialEngine.Resource.Account
import CredentialEngine.Resource.Basic
import CredentialEngine.Resource.Limits
import CredentialEngine.Resource.Meta
import CredentialEngine.Resource.Plan
import CredentialEngine.Resource.User
import CredentialEngine.Secret.Faults
import CredentialEngine.Secret.Filed
import CredentialEngine.Secret.Folder
import CredentialEngine.Secret.Location
import CredentialEngine.Secret.Record
import CredentialEngine.Secret.Storage
import CredentialEngine.Secret.Summary
import CredentialEngine.Secret.Table
import CredentialEngine.Text.Blank
import CredentialEngine.Text.Hidden
import CredentialEngine.Text.Numeral
import CredentialEngine.Text.Parts
import CredentialEngine.Text.Quoted
import CredentialEngine.Text.Word
import CredentialEngine.Time.Duration
import CredentialEngine.Time.Timestamp
import CredentialEngine.Yaml.Char
import CredentialEngine.Yaml.Cursor
import CredentialEngine.Yaml.Event
import CredentialEngine.Yaml.Plain
import CredentialEngine.Yaml.Scalar
import CredentialEngine.Yaml.Tag
import CredentialEngine.Yaml.Token
import CredentialEngine.Yaml.Token.Lexer
import CredentialEngine.Yaml.Value
import CredentialEngine.Yaml.Writer
