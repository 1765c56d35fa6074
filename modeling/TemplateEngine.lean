import TemplateEngine.Host.Table
import TemplateEngine.Main
import TemplateEngine.Sink.Bytes
import TemplateEngine.Proofs.Nested.Block
import TemplateEngine.Proofs.Nested.Draft
import TemplateEngine.Proofs.Nested.Layout
import TemplateEngine.Proofs.Nested.Evaluation
import TemplateEngine.Proofs.Nested.Jumps
import TemplateEngine.Proofs.References.Within
import TemplateEngine.Proofs.References.Program
import TemplateEngine.Proofs.References.Lookup
import TemplateEngine.Proofs.Termination.Machine
import TemplateEngine.Proofs.Termination.Produced
import TemplateEngine.Proofs.Termination.Run
import TemplateEngine.Proofs.Writing.Prefix
import TemplateEngine.Proofs.Calls.Afresh
import TemplateEngine.Proofs.Calls.Sized
import TemplateEngine.Proofs.Calls.Confined
import TemplateEngine.Proofs.Blocks.Acceptance
import TemplateEngine.Proofs.Segments.Order
import TemplateEngine.Proofs.Depth.Stack
import TemplateEngine.Proofs.Depth.Ceiling
import TemplateEngine.Proofs.Reports.Machine
import TemplateEngine.Proofs.Reports.Placeholders
import TemplateEngine.Proofs.Meaning.Lowered
import TemplateEngine.Proofs.Debug.Scan
import TemplateEngine.Proofs.Debug.Tables
import TemplateEngine.Proofs.Debug.Trigger
import TemplateEngine.Proofs.Debug.Blocks
import TemplateEngine.Proofs.Debug.Builders
import TemplateEngine.Proofs.Debug.Drafts
import TemplateEngine.Proofs.Debug.Exchange
import TemplateEngine.Proofs.Debug.Silence
import TemplateEngine.Proofs.Syntax.Reading
import TemplateEngine.Proofs.Syntax.Descent
import TemplateEngine.Proofs.Segments.InFile
import TemplateEngine.Proofs.Segments.Written
import TemplateEngine.Proofs.Calls.Noted
import TemplateEngine.Proofs.References.Emitted
import TemplateEngine.Proofs.Segments.Closed
import TemplateEngine.Proofs.Faults.Marker
import TemplateEngine.Proofs.Faults.File
import TemplateEngine.Proofs.Syntax.Brackets
import TemplateEngine.Proofs.Syntax.Embedded
import TemplateEngine.Proofs.Syntax.Variable
import TemplateEngine.Proofs.Skeleton.Constants
import TemplateEngine.Proofs.Operations.Compiled
import TemplateEngine.Proofs.Operations.Invoked
import TemplateEngine.Proofs.Operations.Watched
import TemplateEngine.Proofs.Operations.Contract
import TemplateEngine.Proofs.Bytes.Slice
import TemplateEngine.Proofs.Bytes.Marker
import TemplateEngine.Proofs.Bytes.Scan
import TemplateEngine.Proofs.Bytes.Tokens
import TemplateEngine.Proofs.Bytes.Operands
import TemplateEngine.Proofs.Bytes.Tables
import TemplateEngine.Proofs.Bytes.Layout
import TemplateEngine.Proofs.Bytes.Compile
import TemplateEngine.Proofs.Bytes.Segments
import TemplateEngine.Proofs.Bytes.InRange
import TemplateEngine.Proofs.Plain.CodePoint
import TemplateEngine.Proofs.References.Declared
import TemplateEngine.Proofs.References.Noted
import TemplateEngine.Proofs.Arithmetic.Exact
import TemplateEngine.Proofs.Syntax.Integers
import TemplateEngine.Proofs.Subject.Operand
import TemplateEngine.Proofs.Values.Containers
import TemplateEngine.Proofs.Text.Lines
import TemplateEngine.Proofs.Command.Values
import TemplateEngine.Proofs.Signs.Exact
import TemplateEngine.Proofs.Listing.Faithful
import TemplateEngine.Proofs.References.ReadBack
import TemplateEngine.Proofs.Registry.History
import TemplateEngine.Proofs.References.Interned
