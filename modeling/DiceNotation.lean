import DiceNotation.Editor.Brackets
import DiceNotation.Editor.Completion
import DiceNotation.Main
import DiceNotation.Proofs.CanonicalTerm
import DiceNotation.Proofs.NestingDepth
import DiceNotation.Query.Steps
import DiceNotation.Proofs.ExpressionText
import DiceNotation.Proofs.ThrownTree
import DiceNotation.Proofs.KindAgreement
import DiceNotation.Proofs.ThrowOrder
import DiceNotation.Proofs.ThrowOutcome
import DiceNotation.Proofs.Observation
import DiceNotation.Proofs.GroupFlattening
import DiceNotation.Proofs.PlusSpacing
import DiceNotation.Proofs.Trimming
import DiceNotation.Proofs.LineVerdict
import DiceNotation.Proofs.PipedLines
import DiceNotation.Proofs.Allowance
import DiceNotation.Proofs.SumComposition
import DiceNotation.Proofs.QueryRuns
import DiceNotation.Proofs.DieLetter
import DiceNotation.Proofs.GreedyTokens
import DiceNotation.Proofs.ModifierInfluence
import DiceNotation.Proofs.GroupNesting
import DiceNotation.Proofs.FaceBounds
import DiceNotation.Proofs.TotalBounds
import DiceNotation.Proofs.MarkedFaces
import DiceNotation.Proofs.Breakdown
import DiceNotation.Proofs.FirstFault
import DiceNotation.Proofs.CompletionPlace
import DiceNotation.Proofs.GroupPieces
import DiceNotation.Proofs.RangeHistory
