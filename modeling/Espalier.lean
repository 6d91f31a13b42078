import Espalier.Compile
import Espalier.Emission.Session
import Espalier.Template.Payload
import Espalier.Proofs.Render.Execution
import Espalier.Proofs.Render.Forest
import Espalier.Proofs.Scan.Balanced
import Espalier.Proofs.Scan.Completion
import Espalier.Proofs.Scan.Expression
import Espalier.Proofs.Render.Leaves
import Espalier.Proofs.Render.Conservation
import Espalier.Proofs.Render.Placement
import Espalier.Proofs.Script.Spelling
import Espalier.Proofs.Script.Reading
import Espalier.Proofs.Script.Printing
import Espalier.Proofs.Script.Operands
import Espalier.Proofs.Script.Calls
import Espalier.Proofs.Template.Generated
import Espalier.Proofs.Compile.History
import Espalier.Proofs.Compress.Behaviour
import Espalier.Proofs.Compress.Preservation
import Espalier.Proofs.Interpolation.Pieces
import Espalier.Proofs.Render.Printed
import Espalier.Proofs.Compile.Markup
import Espalier.Proofs.Script.Invariants
import Espalier.Proofs.Script.Lexing
import Espalier.Proofs.Script.Nesting
import Espalier.Proofs.Scan.Tokens
import Espalier.Proofs.Interpolation.Expressions
import Espalier.Proofs.Script.Inversion
import Espalier.Proofs.Script.Agreement
import Espalier.Proofs.Script.Locality
import Espalier.Proofs.Script.Closed
import Espalier.Proofs.Script.Passage
import Espalier.Proofs.Script.Phrase
import Espalier.Proofs.Template.Announced
import Espalier.Proofs.Template.Pairing
import Espalier.Proofs.Template.Regular
import Espalier.Proofs.Template.Stretches
import Espalier.Proofs.Template.Temporaries
import Espalier.Proofs.Compress.Prologue
import Espalier.Proofs.Scan.Parts
import Espalier.Proofs.Template.Faults
import Espalier.Proofs.Template.Encoding
import Espalier.Proofs.Compile.Roundtrip
import Espalier.Proofs.Script.Expressions
import Espalier.Proofs.Script.Legible
import Espalier.Proofs.Script.Rereading
import Espalier.Proofs.Render.Untouched
import Espalier.Proofs.Compress.NormalForm
import Espalier.Proofs.Render.Scoping
import Espalier.Proofs.Template.Frame
import Espalier.Proofs.Scan.Enclosed
import Espalier.Proofs.Interpolation.Calls
import Espalier.Proofs.Interpolation.Stops
import Espalier.Proofs.Attribute.Classes
import Espalier.Proofs.Script.Roundtrip
import Espalier.Proofs.Scan.Lists
import Espalier.Proofs.Attribute.Entries
import Espalier.Proofs.Script.Quoting
import Espalier.Proofs.Attribute.Keys
import Espalier.Proofs.Template.Comments
import Espalier.Proofs.Template.Requests
import Espalier.Proofs.Emission.Contexts
import Espalier.Proofs.Script.Acceptance
import Espalier.Proofs.Render.Grammar
import Espalier.Proofs.Compress.Grammar
