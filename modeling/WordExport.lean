import WordExport.Export
import WordExport.Markdown.Decode
import WordExport.Markdown.Encode
import WordExport.Options.Decode
import WordExport.Proofs.Conversion.Preservation
import WordExport.Proofs.Math.Accounting
import WordExport.Proofs.Math.Typesetting
import WordExport.Proofs.Package.Closure
import WordExport.Proofs.Xml.Grammar
import WordExport.Proofs.Xml.Printing
import WordExport.Proofs.Package.Tags
import WordExport.Proofs.Package.WellFormed
import WordExport.Proofs.Conversion.Visits
import WordExport.Proofs.Footnotes.Ascending
import WordExport.Proofs.Conversion.Images
import WordExport.Proofs.Conversion.InPlace
import WordExport.Proofs.Footnotes.Numbering
import WordExport.Proofs.Footnotes.References
import WordExport.Proofs.Footnotes.Resolution
import WordExport.Proofs.Footnotes.Identity
import WordExport.Proofs.Image.Requests
import WordExport.Proofs.Conversion.Faults
import WordExport.Proofs.Footnotes.Outcome
import WordExport.Proofs.Conversion.Surroundings
import WordExport.Proofs.Package.Runs
import WordExport.Proofs.Package.Numbers
import WordExport.Proofs.Markdown.RoundTrip
import WordExport.Proofs.Markdown.Vocabulary
import WordExport.Proofs.Conversion.Tables
import WordExport.Proofs.Package.StyleDefinitions
import WordExport.Proofs.Package.Characters
import WordExport.Proofs.Math.Unfolding
import WordExport.Proofs.Math.Saturation
import WordExport.Proofs.Math.Trivia
import WordExport.Proofs.Math.Scripts
import WordExport.Proofs.Math.Nesting
import WordExport.Proofs.Math.Rows
import WordExport.Proofs.Package.MathReading
import WordExport.Proofs.Conversion.Placement
import WordExport.Proofs.Conversion.Siblings
import WordExport.Proofs.Footnotes.Identifiers
import WordExport.Proofs.Xml.Decoding
import WordExport.Proofs.Math.Shifts
import WordExport.Proofs.Footnotes.Position
