import DependencyClause.Text.Blank
import DependencyClause.Text.Digit
import DependencyClause.Text.CaseFold.Table
import DependencyClause.Text.CaseFold.Basic
import DependencyClause.Text.CharSet
import DependencyClause.Text.Quoted
import DependencyClause.Text.Occurrence
import DependencyClause.Version.Semantic
import DependencyClause.Version.Precedence
import DependencyClause.Version.Tag
import DependencyClause.Version.Library
import DependencyClause.Version.Laws
import DependencyClause.Version.Reading
import DependencyClause.Comparison
import DependencyClause.Cursor.Basic
import DependencyClause.Cursor.Lemmas
import DependencyClause.Failure
import DependencyClause.Trace
import DependencyClause.Parser
import DependencyClause.Platform
import DependencyClause.Restriction
import DependencyClause.Pin
import DependencyClause.Constraint
import DependencyClause.Clause
import DependencyClause.Session
import DependencyClause.Logging
import DependencyClause.Proofs.Text.Decimal
import DependencyClause.Proofs.Text.Folding
import DependencyClause.Proofs.Text.Printable
import DependencyClause.Proofs.Text.Quotable
import DependencyClause.Proofs.Text.Quoted
import DependencyClause.Proofs.Cursor.Passage
import DependencyClause.Proofs.Cursor.Scan
import DependencyClause.Proofs.Cursor.Behind
import DependencyClause.Proofs.Cursor.Line
import DependencyClause.Proofs.Cursor.Onward
import DependencyClause.Proofs.Cursor.Search
import DependencyClause.Proofs.Cursor.Splice
import DependencyClause.Proofs.Parser.Reads
import DependencyClause.Proofs.Trace.Origin
import DependencyClause.Proofs.Parser.Compositional
import DependencyClause.Proofs.Parser.Return
import DependencyClause.Proofs.Parser.Behind
import DependencyClause.Proofs.Grammar.Basic
import DependencyClause.Proofs.Parser.Quotation
import DependencyClause.Proofs.Grammar.Tokens
import DependencyClause.Proofs.Parser.Faults
import DependencyClause.Proofs.Parser.Rejects
import DependencyClause.Proofs.Parser.Settings
import DependencyClause.Proofs.Parser.Lines
import DependencyClause.Proofs.Parser.Onward
import DependencyClause.Proofs.Parser.Search
import DependencyClause.Proofs.Grammar.Constraints
import DependencyClause.Proofs.Grammar.Platforms
import DependencyClause.Proofs.Grammar.Clauses
import DependencyClause.Proofs.Grammar.Pins
import DependencyClause.Proofs.Version.Parts
import DependencyClause.Proofs.Version.Tags
import DependencyClause.Proofs.Version.Suffixes
import DependencyClause.Proofs.Version.Canonical
import DependencyClause.Proofs.Version.Spelling
import DependencyClause.Proofs.Version.Library
import DependencyClause.Proofs.Version.Decoding
import DependencyClause.Proofs.Version.Order
import DependencyClause.Proofs.Platform.Lists
import DependencyClause.Proofs.Platform.Recognition
import DependencyClause.Proofs.Platform.Rounds
import DependencyClause.Proofs.Trace.Layers
import DependencyClause.Proofs.Trace.Messages
import DependencyClause.Proofs.Roundtrip.Platforms
import DependencyClause.Proofs.Roundtrip.Clauses
import DependencyClause.Proofs.Roundtrip.Pins
import DependencyClause.Proofs.Roundtrip.Declarations
import DependencyClause.Proofs.Roundtrip.Versions
import DependencyClause.Proofs.Acceptance.Ranges
import DependencyClause.Proofs.Acceptance.Agreement
import DependencyClause.Proofs.Acceptance.Intervals
import DependencyClause.Proofs.Acceptance.Resolved
import DependencyClause.Proofs.Session.Behind
import DependencyClause.Proofs.Session.Bounds
import DependencyClause.Proofs.Logging.Configuration
import DependencyClause.Proofs.Logging.Lines
