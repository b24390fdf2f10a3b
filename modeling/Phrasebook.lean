import Phrasebook.Main
import Phrasebook.Template.Grammar
import Phrasebook.Template.Printer
import Phrasebook.Settings.Reader
import Phrasebook.Proofs.Template.Canonical
import Phrasebook.Proofs.Template.Grammar
import Phrasebook.Proofs.Template.Layout
import Phrasebook.Proofs.Template.Memo
import Phrasebook.Proofs.Template.Reading
import Phrasebook.Proofs.Template.Tokens
import Phrasebook.Proofs.Template.Printing
import Phrasebook.Proofs.Template.RoundTrip
import Phrasebook.Proofs.Locale.Tag
import Phrasebook.Proofs.Catalog.Contents
import Phrasebook.Proofs.Catalog.Cache
import Phrasebook.Proofs.Engine.Run
import Phrasebook.Proofs.Engine.Coherence
import Phrasebook.Proofs.Engine.Refusal
import Phrasebook.Proofs.Engine.Refinement
import Phrasebook.Proofs.Template.WellFormed
import Phrasebook.Proofs.Template.Scan
import Phrasebook.Proofs.Message.Merging
import Phrasebook.Proofs.Evaluation.Pieces
import Phrasebook.Proofs.Evaluation.Outcome
import Phrasebook.Proofs.Evaluation.Source
import Phrasebook.Proofs.Evaluation.Choices
import Phrasebook.Proofs.Engine.Validity
import Phrasebook.Proofs.Plural.Integers
import Phrasebook.Proofs.Catalog.Run
import Phrasebook.Proofs.Catalog.Texts
import Phrasebook.Proofs.Catalog.Versions
import Phrasebook.Proofs.Catalog.Requests
import Phrasebook.Proofs.Engine.Alike
import Phrasebook.Proofs.Engine.Failure
import Phrasebook.Proofs.Evaluation.Missing
import Phrasebook.Proofs.Catalog.Identifiers
import Phrasebook.Proofs.Engine.Identifiers
import Phrasebook.Proofs.Command.Check
import Phrasebook.Proofs.Evaluation.Opacity
import Phrasebook.Proofs.Number.Whole
import Phrasebook.Proofs.Message.Readings
import Phrasebook.Proofs.Evaluation.Selection
import Phrasebook.Proofs.Text.ByteOrder
import Phrasebook.Proofs.Catalog.Collisions
import Phrasebook.Proofs.Catalog.Accounting
import Phrasebook.Proofs.Locale.Fallback
import Phrasebook.Proofs.Locale.Spelling
import Phrasebook.Proofs.Message.Stream
import Phrasebook.Proofs.Message.Lines
import Phrasebook.Proofs.Message.Construction
import Phrasebook.Proofs.Engine.Listing
import Phrasebook.Proofs.Template.Positions
import Phrasebook.Proofs.Template.Origins
import Phrasebook.Proofs.Template.Validation
import Phrasebook.Proofs.Engine.Comparison
import Phrasebook.Proofs.Engine.Loaded
import Phrasebook.Proofs.Command.Coverage
import Phrasebook.Proofs.Command.Strict
import Phrasebook.Proofs.Command.Bindings
import Phrasebook.Proofs.Text.Replacing
import Phrasebook.Proofs.Engine.Marker
import Phrasebook.Proofs.Engine.Counting
import Phrasebook.Proofs.Json.Members
import Phrasebook.Proofs.Files.Flattening
import Phrasebook.Proofs.Number.Order
import Phrasebook.Proofs.Engine.Suggestions
import Phrasebook.Proofs.Engine.Memo
import Phrasebook.Proofs.Files.Offsets
import Phrasebook.Proofs.Files.Directory
import Phrasebook.Proofs.Locale.Naming
import Phrasebook.Proofs.Command.Targets
import Phrasebook.Proofs.Engine.Caching
