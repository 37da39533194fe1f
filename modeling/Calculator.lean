import Calculator.Main
import Calculator.Proofs.Alternation
import Calculator.Proofs.Barriers
import Calculator.Proofs.Blanks
import Calculator.Proofs.Concatenation
import Calculator.Proofs.Conservation
import Calculator.Proofs.DistinctMessages
import Calculator.Proofs.ErrorExcerpt
import Calculator.Proofs.GroupContents
import Calculator.Proofs.GroupPlaces
import Calculator.Proofs.RenderedValue
import Calculator.Proofs.ReportLines
import Calculator.Proofs.ScriptLines
import Calculator.Proofs.SpacedTexts
