import Routecraft.Build.Action
import Routecraft.Build.Descriptors
import Routecraft.Build.Error
import Routecraft.Build.Manifest
import Routecraft.Build.Run
import Routecraft.Bytecode.Assembler
import Routecraft.Bytecode.Bytes
import Routecraft.Bytecode.Constant
import Routecraft.Bytecode.DataType
import Routecraft.Bytecode.Document
import Routecraft.Bytecode.Draft
import Routecraft.Bytecode.Encoding
import Routecraft.Bytecode.Error
import Routecraft.Bytecode.Hierarchy
import Routecraft.Bytecode.Instr
import Routecraft.Bytecode.Pool
import Routecraft.Bytecode.SlotType
import Routecraft.Bytecode.Typing
import Routecraft.Bytecode.Unit
import Routecraft.Bytecode.Verify
import Routecraft.CommandLine
import Routecraft.Compile.AttributeFilter
import Routecraft.Compile.BindingCode
import Routecraft.Compile.Compiler
import Routecraft.Compile.Error
import Routecraft.Compile.Framework
import Routecraft.Compile.Handler
import Routecraft.Compile.Literal
import Routecraft.Compile.Registration
import Routecraft.Compile.RouteName
import Routecraft.Config.Basic
import Routecraft.Config.Document
import Routecraft.Config.Environment
import Routecraft.Config.Loader
import Routecraft.Decimal.Binary
import Routecraft.Decimal.Plain
import Routecraft.Decimal.Reading
import Routecraft.Decimal.Shortest
import Routecraft.Files.Path
import Routecraft.Files.Tree
import Routecraft.Json.Basic
import Routecraft.Json.Reader
import Routecraft.Json.Record
import Routecraft.Json.Writer
import Routecraft.Machine.Conversion
import Routecraft.Machine.Document
import Routecraft.Machine.Error
import Routecraft.Machine.Host
import Routecraft.Machine.Loader
import Routecraft.Machine.Run
import Routecraft.Machine.Store
import Routecraft.Machine.Value
import Routecraft.Main
import Routecraft.Platform
import Routecraft.Route.Attribute
import Routecraft.Route.Controller
import Routecraft.Route.Document
import Routecraft.Route.Pattern
import Routecraft.Route.Primitive
import Routecraft.Route.TypeExpr
import Routecraft.Route.Verb
import Routecraft.Telemetry.FieldPattern
import Routecraft.Telemetry.LogFilter
import Routecraft.Telemetry.Logging
import Routecraft.Telemetry.Metrics
import Routecraft.Text.Alphanumeric
import Routecraft.Text.Blank
import Routecraft.Text.Case
import Routecraft.Text.Cased
import Routecraft.Text.CharClass
import Routecraft.Text.Hex
import Routecraft.Text.Printable
import Routecraft.Text.Quoted
import Routecraft.Text.Utf8
import Routecraft.Toml.Reader
import Routecraft.Toml.Scalar
import Routecraft.Toml.Table
import Routecraft.Toml.Token
import Routecraft.Proofs.Format.Descriptors
import Routecraft.Proofs.Format.Readers
import Routecraft.Proofs.Format.RoundTrip
import Routecraft.Proofs.Execution.Actions
import Routecraft.Proofs.Verification.Effects
import Routecraft.Proofs.Verification.Settling
import Routecraft.Proofs.Execution.Activations
import Routecraft.Proofs.Verification.Shapes
import Routecraft.Proofs.Assembly.Pools
import Routecraft.Proofs.Verification.Subtyping
import Routecraft.Proofs.Verification.Transfer
import Routecraft.Proofs.Verification.Stability
import Routecraft.Proofs.Assembly.Assembling
import Routecraft.Proofs.Assembly.Drafting
import Routecraft.Proofs.Assembly.Parts
import Routecraft.Proofs.Execution.Operands
import Routecraft.Proofs.Execution.Nesting
import Routecraft.Proofs.Execution.Straight
import Routecraft.Proofs.Compile.Calls
import Routecraft.Proofs.Compile.Literals
import Routecraft.Proofs.Compile.Plainness
import Routecraft.Proofs.Compile.Units
import Routecraft.Proofs.Compile.RouteNames
import Routecraft.Proofs.Compile.Linking
import Routecraft.Proofs.Compile.Describing
import Routecraft.Proofs.Compile.Installing
import Routecraft.Proofs.Compile.Interpreting
import Routecraft.Proofs.Format.Signatures
import Routecraft.Proofs.Compile.Handling
import Routecraft.Proofs.Verification.Naming
import Routecraft.Proofs.Verification.Termination
import Routecraft.Proofs.Execution.References
import Routecraft.Proofs.Verification.Slots
import Routecraft.Proofs.Verification.Members
import Routecraft.Proofs.Verification.Raw
import Routecraft.Proofs.Verification.Soundness
import Routecraft.Proofs.Verification.Tracing
import Routecraft.Proofs.Verification.InOrder
import Routecraft.Proofs.Assembly.Written
import Routecraft.Proofs.Compile.Typing
import Routecraft.Proofs.Compile.Arguments
import Routecraft.Proofs.Compile.Verdicts
import Routecraft.Proofs.Compile.Registering
import Routecraft.Proofs.Compile.References
import Routecraft.Proofs.Build.Linking
import Routecraft.Proofs.Files.Walking
import Routecraft.Proofs.Files.Changes
import Routecraft.Proofs.Files.Folders
import Routecraft.Proofs.Json.Reading
import Routecraft.Proofs.Format.Sizes
import Routecraft.Proofs.Build.Manifests
import Routecraft.Proofs.Build.Deeds
import Routecraft.Proofs.Build.Running
import Routecraft.Proofs.Build.Places
import Routecraft.Proofs.Build.Outputs
import Routecraft.Proofs.Build.Boundaries
import Routecraft.Proofs.Build.Histories
import Routecraft.Proofs.Build.Compiling
import Routecraft.Proofs.Compile.Bindings
import Routecraft.Proofs.Compile.Statelessness
import Routecraft.Proofs.Compile.Containers
import Routecraft.Proofs.Compile.Duplicates
import Routecraft.Proofs.Compile.ReturnTypes
import Routecraft.Proofs.Compile.Emitting
import Routecraft.Proofs.Compile.Filtering
import Routecraft.Proofs.Route.Spellings
import Routecraft.Proofs.Assembly.Labels
import Routecraft.Proofs.Format.Limits
import Routecraft.Proofs.Format.Truncation
import Routecraft.Proofs.Execution.Agreement
import Routecraft.Proofs.Execution.Limits
import Routecraft.Proofs.Execution.Endings
import Routecraft.Proofs.Execution.LoadOrder
import Routecraft.Proofs.Config.Overrides
import Routecraft.Proofs.Build.Refusals
import Routecraft.Proofs.Execution.ClosedWorld
import Routecraft.Proofs.Verification.Joining
import Routecraft.Proofs.Format.Indices
import Routecraft.Proofs.Verification.StraightLine
