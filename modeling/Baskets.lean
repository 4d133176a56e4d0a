import Baskets.Basket
import Baskets.Block
import Baskets.Bytes
import Baskets.Cache
import Baskets.Codec.Bits
import Baskets.Codec.Canonical
import Baskets.Codec.Checksum
import Baskets.Codec.Inflate
import Baskets.Codec.Lz4
import Baskets.Codec.Lzma
import Baskets.Codec.Lzma.Chunks
import Baskets.Codec.Lzma.Range
import Baskets.Codec.Window
import Baskets.Codec.Xz
import Baskets.Codec.Zstandard
import Baskets.Codec.Zstandard.Block
import Baskets.Codec.Zstandard.Entropy
import Baskets.Codec.Zstandard.Weights
import Baskets.Context
import Baskets.Contribution
import Baskets.Cursor
import Baskets.Decimal.Shortest
import Baskets.Double
import Baskets.Fault
import Baskets.Fingerprint
import Baskets.Form
import Baskets.Form.Json
import Baskets.Generator
import Baskets.Hash
import Baskets.Instruction
import Baskets.Interpretation
import Baskets.Json
import Baskets.Json.Number
import Baskets.Json.Parser
import Baskets.Json.Printer
import Baskets.Json.Token
import Baskets.Layout
import Baskets.Node
import Baskets.Node.Form
import Baskets.Primitive
import Baskets.Program
import Baskets.Proofs.Reading.Faithful
import Baskets.Proofs.Reading.Mirror
import Baskets.Proofs.Reading.Run
import Baskets.Proofs.Trace
import Baskets.Proofs.Trace.Reading
import Baskets.Reading
import Baskets.Reading.Streamed
import Baskets.Registry
import Baskets.Source
import Baskets.Text.Hidden
import Baskets.Text.Lossy
import Baskets.Text.Quoted
import Baskets.Value
import Baskets.Proofs.Generator.Tree
import Baskets.Proofs.Generator.Adding
import Baskets.Proofs.Plan
import Baskets.Proofs.Plan.Kinds
import Baskets.Proofs.Trace.Contribution
import Baskets.Proofs.Generator.Standing
import Baskets.Proofs.Plan.Growth
import Baskets.Proofs.Plan.Whole
import Baskets.Proofs.Plan.Form
import Baskets.Proofs.Machine
import Baskets.Proofs.Machine.Steps
import Baskets.Proofs.Machine.Decoding
import Baskets.Proofs.Machine.Columns
import Baskets.Proofs.Machine.Model
import Baskets.Proofs.Plan.Headers
import Baskets.Proofs.Discovery
import Baskets.Proofs.Discovery.Fallback
import Baskets.Proofs.Bytes
import Baskets.Proofs.Scan
import Baskets.Proofs.Discovery.Conformance
import Baskets.Proofs.Basket.Blocks
import Baskets.Proofs.Basket.Footer
import Baskets.Proofs.Basket.Written
import Baskets.Proofs.Text.Utf8
import Baskets.Proofs.Serial
import Baskets.Proofs.Serial.Reading
import Baskets.Proofs.Cache
import Baskets.Proofs.Hash
import Baskets.Proofs.Reachable
import Baskets.Proofs.Fingerprint
import Baskets.Proofs.Signature
import Baskets.Proofs.Key
import Baskets.Proofs.Cache.Building
import Baskets.Proofs.Discovery.Offsets
import Baskets.Proofs.Node.Outputs
import Baskets.Proofs.Plan.Outputs
import Baskets.Proofs.Basket.Slices
import Baskets.Proofs.Basket.WellFormed
import Baskets.Proofs.Cache.Run
import Baskets.Proofs.Cache.View
import Baskets.Proofs.Cache.Map
import Baskets.Proofs.Cache.Failing
import Baskets.Proofs.Discovery.Unbounded
import Baskets.Proofs.Form.RoundTrip
import Baskets.Proofs.Generator.Ascending
import Baskets.Proofs.Generator.Operations
import Baskets.Proofs.Generator.Rooted
import Baskets.Proofs.Reading.Tidy
import Baskets.Proofs.Reading.Bookkeeping
import Baskets.Proofs.Basket.Grammar
import Baskets.Proofs.Scan.Surroundings
import Baskets.Proofs.Basket.InFile
import Baskets.Proofs.Reading.Surroundings
import Baskets.Proofs.Node.Lineage
import Baskets.Proofs.Generator.Lineage
import Baskets.Proofs.Reading.Steady
import Baskets.Proofs.Reading.Lineage
import Baskets.Proofs.Trace.Determined
import Baskets.Proofs.Plan.Entries
import Baskets.Proofs.Scan.Header
import Baskets.Proofs.Form.Paired
import Baskets.Proofs.Node.Form
import Baskets.Proofs.Generator.Insertion
import Baskets.Proofs.Reading.Onward
import Baskets.Proofs.Reading.Nesting
import Baskets.Proofs.Names
import Baskets.Proofs.Basket.Header
import Baskets.Proofs.Scan.Fixed
import Baskets.Proofs.Scan.Requests
import Baskets.Proofs.Values
import Baskets.Proofs.Generator.Planting
