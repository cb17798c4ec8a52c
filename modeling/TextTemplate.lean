import TextTemplate.Data.Plain
import TextTemplate.Evaluation.Part
import TextTemplate.Log.Trace
import TextTemplate.Markup.Lookahead
import TextTemplate.Proofs.BlockParsing
import TextTemplate.Proofs.BlockRecovery
import TextTemplate.Proofs.BraceRecovery
import TextTemplate.Proofs.CanonicalForm
import TextTemplate.Proofs.CheckedEvaluation
import TextTemplate.Proofs.CleanBoundary
import TextTemplate.Proofs.Concatenation
import TextTemplate.Proofs.Conversion
import TextTemplate.Proofs.CursorPlaces
import TextTemplate.Proofs.DroppedBranches
import TextTemplate.Proofs.Flattening
import TextTemplate.Proofs.InnerBraces
import TextTemplate.Proofs.JoinedTokens
import TextTemplate.Proofs.ListSegments
import TextTemplate.Proofs.MentionedNames
import TextTemplate.Proofs.NestingLimit
import TextTemplate.Proofs.ParsedForm
import TextTemplate.Proofs.PathResolution
import TextTemplate.Proofs.Provenance
import TextTemplate.Proofs.ReachableTrees
import TextTemplate.Proofs.ResidualFusion
import TextTemplate.Proofs.SettledResiduals
import TextTemplate.Proofs.SpanIndependence
import TextTemplate.Proofs.StagedRendering
import TextTemplate.Proofs.TagRecognition
import TextTemplate.Proofs.TokenTrace
import TextTemplate.Proofs.UndecidedTrees
import TextTemplate.Proofs.UnreachedLimits
import TextTemplate.Proofs.WrittenDecimals
import TextTemplate.Template
