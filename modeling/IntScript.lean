import IntScript.Main
import IntScript.Proofs.Action.Order
import IntScript.Proofs.Action.Triple
import IntScript.Proofs.Grammar.Bound
import IntScript.Proofs.Grammar.Shape
import IntScript.Proofs.Grammar.Recovery
import IntScript.Proofs.Run.Congruence
import IntScript.Proofs.Run.Frame
import IntScript.Proofs.Run.Environment
import IntScript.Proofs.Run.Session
import IntScript.Proofs.Scope.Layers
import IntScript.Proofs.Run.Complete
import IntScript.Proofs.Run.Refinement
import IntScript.Proofs.Grammar.Complete
import IntScript.Proofs.Token.Classes
import IntScript.Proofs.Token.Pieces
import IntScript.Proofs.Token.Glyph
import IntScript.Proofs.Token.Page
import IntScript.Proofs.Tree.Write
import IntScript.Proofs.Grammar.Written
import IntScript.Proofs.Grammar.Layout
import IntScript.Proofs.Grammar.WrittenStatement
import IntScript.Proofs.Grammar.Image
import IntScript.Proofs.Grammar.Taken
import IntScript.Proofs.Grammar.Exact
import IntScript.Proofs.Grammar.LineStarts
import IntScript.Proofs.Token.Munch
import IntScript.Proofs.Token.Segments
import IntScript.Proofs.Token.Joined
import IntScript.Proofs.Grammar.Alike
import IntScript.Proofs.Grammar.Elsewhere
import IntScript.Proofs.Grammar.Stops
import IntScript.Proofs.Grammar.Chunks
import IntScript.Proofs.Command.Outcomes
import IntScript.Proofs.Run.Limit
import IntScript.Proofs.Token.Tiling
import IntScript.Proofs.Grammar.Calls
import IntScript.Proofs.Grammar.Appended
import IntScript.Proofs.Grammar.Prefix
import IntScript.Proofs.Grammar.Inline
import IntScript.Proofs.Grammar.Opened
import IntScript.Proofs.Grammar.Nested
import IntScript.Proofs.Token.Newline
import IntScript.Proofs.Token.Literals
import IntScript.Proofs.Grammar.Blamed
import IntScript.Proofs.Grammar.Moved
import IntScript.Proofs.Token.Separated
import IntScript.Proofs.Token.Sequence
import IntScript.Proofs.Run.Arithmetic
import IntScript.Proofs.Run.Visible
import IntScript.Proofs.Tree.Parts
import IntScript.Proofs.Run.Budget
import IntScript.Proofs.Tree.Paraphrase
import IntScript.Proofs.Scope.Found
import IntScript.Proofs.Scope.Paraphrased
import IntScript.Proofs.Run.Repeated
import IntScript.Proofs.Run.Ranked
import IntScript.Proofs.Run.Paraphrase
import IntScript.Proofs.Run.Variants
import IntScript.Proofs.Run.Returns
import IntScript.Proofs.Scope.History
import IntScript.Proofs.Run.ReadBack
