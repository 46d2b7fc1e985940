import GoTrace.Grammar.File
import GoTrace.Proofs.Trace.Complete
import GoTrace.Proofs.Trace.Order
import GoTrace.Proofs.Trace.Outline
import GoTrace.Proofs.Trace.Replay
import GoTrace.Token.Stream
import GoTrace.Trace.Log
import GoTrace.Proofs.Token.Scans
import GoTrace.Proofs.Token.Coverage
import GoTrace.Proofs.Token.Semicolons
import GoTrace.Proofs.Grammar.Local
import GoTrace.Proofs.Grammar.LocalRules
import GoTrace.Proofs.Grammar.Ends
import GoTrace.Proofs.Grammar.Siblings
import GoTrace.Proofs.Grammar.Comments
import GoTrace.Proofs.Grammar.Ensures
import GoTrace.Proofs.Layout.Levels
import GoTrace.Proofs.Grammar.Levels
import GoTrace.Proofs.Trace.Checkpoints
import GoTrace.Proofs.Trace.Faults
import GoTrace.Proofs.Trace.Fitting
import GoTrace.Proofs.Trace.Fits
import GoTrace.Proofs.Trace.Limit
import GoTrace.Proofs.Trace.Nesting
import GoTrace.Proofs.Grammar.Mirrors
import GoTrace.Proofs.Grammar.MirrorRules
import GoTrace.Proofs.Grammar.OpenEnds
import GoTrace.Proofs.Grammar.Formed
import GoTrace.Proofs.Grammar.Places
import GoTrace.Proofs.Syntax.Stops
import GoTrace.Proofs.Grammar.Shape
import GoTrace.Proofs.Grammar.Spans
import GoTrace.Proofs.Token.BlockComments
import GoTrace.Proofs.Token.QuotedLiterals
import GoTrace.Proofs.Grammar.Precedence
import GoTrace.Proofs.Grammar.Literals
import GoTrace.Proofs.Grammar.Clauses
import GoTrace.Proofs.Grammar.Parameters
import GoTrace.Proofs.Trace.Placeholders
import GoTrace.Proofs.Token.Respelling
import GoTrace.Proofs.Grammar.ErrorSpans
import GoTrace.Proofs.Source.Positions
import GoTrace.Proofs.Token.Sequence
import GoTrace.Proofs.Trace.Rendering
import GoTrace.Proofs.Grammar.Ending
import GoTrace.Proofs.Grammar.Streaming
