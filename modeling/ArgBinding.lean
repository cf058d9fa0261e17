import ArgBinding.Text.Blank
import ArgBinding.Text.Digit
import ArgBinding.Text.Lowercase
import ArgBinding.Text.Pieces
import ArgBinding.Text.Quoted
import ArgBinding.Numeral.Binary64
import ArgBinding.Numeral.Decimal
import ArgBinding.Numeral.Integer
import ArgBinding.Datum
import ArgBinding.Directive
import ArgBinding.Text.Separated
import ArgBinding.Param.Simple
import ArgBinding.Schema
import ArgBinding.Usage
import ArgBinding.Binding.Progress
import ArgBinding.Bind
import ArgBinding.Binding.Notation
import ArgBinding.Replacement
import ArgBinding.Main
import ArgBinding.Proofs.Insertion
import ArgBinding.Proofs.Reordering
import ArgBinding.Proofs.CopiedArguments
import ArgBinding.Proofs.SuppliedLater
import ArgBinding.Proofs.ReplacedValues
import ArgBinding.Proofs.Representation
import ArgBinding.Proofs.AddedNames
import ArgBinding.Proofs.StartedRepetitions
import ArgBinding.Proofs.UniqueCuts
import ArgBinding.Proofs.PositionalArguments
import ArgBinding.Proofs.DeclarationOrder
import ArgBinding.Proofs.Spellings
import ArgBinding.Proofs.StandaloneRepetitions
import ArgBinding.Proofs.TypedChoices
import ArgBinding.Proofs.TruthReadings
import ArgBinding.Proofs.AccessMisuse
import ArgBinding.Proofs.Revisions
import ArgBinding.Proofs.CopiedNames
import ArgBinding.Proofs.ConsistentSchemas
import ArgBinding.Proofs.DeclaredGroups
import ArgBinding.Proofs.NumberedRecords
import ArgBinding.Proofs.SoleArguments
import ArgBinding.Proofs.SeparatedValues
import ArgBinding.Proofs.RenderedArguments
import ArgBinding.Proofs.RepeatedParameters
import ArgBinding.Proofs.BindingRounds
