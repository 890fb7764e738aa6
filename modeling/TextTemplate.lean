import TextTemplate.Command.Machine
import TextTemplate.Main
import TextTemplate.Proofs.Block.Print
import TextTemplate.Proofs.Render.Modes
import TextTemplate.Proofs.Block.Descent
import TextTemplate.Proofs.Block.Extent
import TextTemplate.Proofs.Block.Lossless
import TextTemplate.Proofs.Render.Weaving
import TextTemplate.Proofs.Render.Check
import TextTemplate.Proofs.Token.Plain
import TextTemplate.Proofs.Token.Tiling
import TextTemplate.Proofs.Block.Agreement
import TextTemplate.Proofs.Render.Depth
import TextTemplate.Proofs.Render.Scope
import TextTemplate.Proofs.Render.Limit
import TextTemplate.Proofs.Render.Iteration
import TextTemplate.Proofs.Expr.Spelling
import TextTemplate.Proofs.Expr.Path
import TextTemplate.Proofs.Text.Outside
import TextTemplate.Proofs.Expr.Reading
import TextTemplate.Proofs.Expr.Name
import TextTemplate.Proofs.Data.Plain
import TextTemplate.Proofs.Render.Lenient
import TextTemplate.Proofs.Render.Pruning
import TextTemplate.Proofs.Render.Placement
import TextTemplate.Proofs.Render.Nesting
import TextTemplate.Proofs.Render.Choice
import TextTemplate.Proofs.Render.Truncation
import TextTemplate.Proofs.Number.Nearest
import TextTemplate.Proofs.Render.Inert
import TextTemplate.Proofs.Value.Comparison
import TextTemplate.Proofs.Value.Integers
import TextTemplate.Proofs.Context.History
import TextTemplate.Proofs.Render.Naming
import TextTemplate.Proofs.Expr.Quoted
import TextTemplate.Proofs.Data.Export
import TextTemplate.Proofs.Token.Respelling
import TextTemplate.Proofs.Value.Unmarked
import TextTemplate.Proofs.Render.Origin
import TextTemplate.Proofs.Render.Again
import TextTemplate.Proofs.Expr.Search
import TextTemplate.Proofs.Command.Variables
import TextTemplate.Proofs.Command.Delivery
