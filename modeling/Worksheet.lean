import Worksheet.Service
import Worksheet.Proofs.Graph.Edges
import Worksheet.Proofs.Graph.Search
import Worksheet.Proofs.Formula.Numerals
import Worksheet.Proofs.Formula.Yield
import Worksheet.Proofs.Graph.Sorting
import Worksheet.Proofs.Formula.Results
import Worksheet.Proofs.Formula.Traversal
import Worksheet.Proofs.Graph.Restriction
import Worksheet.Proofs.Recalculation.LoopCells
import Worksheet.Proofs.Recalculation.Restriction
import Worksheet.Proofs.Recalculation.Inputs
import Worksheet.Proofs.Formula.Grammar
import Worksheet.Proofs.Wiring.Completion
import Worksheet.Proofs.Recalculation.Completion
import Worksheet.Proofs.Wiring.Guarding
import Worksheet.Proofs.Wiring.Contents
import Worksheet.Proofs.Recalculation.Loopless
import Worksheet.Proofs.Recalculation.Passes
import Worksheet.Proofs.Service.Resending
import Worksheet.Proofs.Formula.Respelling
import Worksheet.Proofs.Recalculation.Likeness
import Worksheet.Proofs.Text.Letters
import Worksheet.Proofs.Recalculation.Respelling
import Worksheet.Proofs.Formula.Spans
import Worksheet.Proofs.Formula.Enclosing
import Worksheet.Proofs.Wiring.Reaching
import Worksheet.Proofs.Recalculation.Spelling
import Worksheet.Proofs.Formula.Spacing
import Worksheet.Proofs.Formula.Quoting
import Worksheet.Proofs.Formula.Refusals
import Worksheet.Proofs.Formula.Calls
import Worksheet.Proofs.Graph.Ties
import Worksheet.Proofs.Recalculation.Summary
import Worksheet.Proofs.Number.Readback
import Worksheet.Proofs.Recalculation.Integers
import Worksheet.Proofs.Graph.Tables
import Worksheet.Proofs.Formula.Coverage
import Worksheet.Proofs.Formula.Preorder
