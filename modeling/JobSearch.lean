import JobSearch.Main
import JobSearch.Proofs.Results
import JobSearch.Proofs.Text.Words
import JobSearch.Proofs.Text.Search
import JobSearch.Proofs.Text.Number
import JobSearch.Proofs.Calendar.Month
import JobSearch.Proofs.Part.Order
import JobSearch.Proofs.Part.Token
import JobSearch.Proofs.Query.Reading
import JobSearch.Proofs.Query.Writing
import JobSearch.Proofs.Query.Canonical
import JobSearch.Proofs.Query.Content
import JobSearch.Proofs.Query.Rebuild
import JobSearch.Proofs.Query.Sweep
import JobSearch.Proofs.Json.Scan
import JobSearch.Proofs.Json.Compact
import JobSearch.Proofs.Part.Json
import JobSearch.Proofs.Query.Questions
import JobSearch.Proofs.Query.Fingerprint
import JobSearch.Proofs.Query.Kept
import JobSearch.Proofs.Text.Runs
import JobSearch.Proofs.Text.Pattern
import JobSearch.Proofs.Calendar.Phrase
import JobSearch.Proofs.Calendar.Grammar
import JobSearch.Proofs.Calendar.Recognizer
import JobSearch.Proofs.Calendar.Bound
import JobSearch.Proofs.Query.Resume
import JobSearch.Proofs.Part.Grammar
import JobSearch.Proofs.Query.Acceptance
import JobSearch.Proofs.Form.Entry
import JobSearch.Proofs.Form.Build
import JobSearch.Proofs.Url.Percent
import JobSearch.Proofs.Url.Idna
import JobSearch.Proofs.Query.Link
import JobSearch.Proofs.Config.Store
import JobSearch.Proofs.Form.RoundTrip
import JobSearch.Proofs.Calendar.Reach
import JobSearch.Proofs.Command.Total
import JobSearch.Proofs.Json.Indented
import JobSearch.Proofs.Command.Pipeline
import JobSearch.Proofs.Yaml.Plain
import JobSearch.Proofs.Yaml.Mapping
import JobSearch.Proofs.Yaml.Line
import JobSearch.Proofs.Calendar.Iso
import JobSearch.Proofs.Config.Text
import JobSearch.Proofs.Query.Operator
import JobSearch.Proofs.Query.Respelling
import JobSearch.Proofs.Form.Lowering
import JobSearch.Proofs.Form.AtOnce
import JobSearch.Proofs.Query.Shape
import JobSearch.Proofs.Query.Refill
import JobSearch.Proofs.Query.Joining
import JobSearch.Proofs.Calendar.Label
import JobSearch.Proofs.Calendar.Chronology
import JobSearch.Proofs.Query.Label
import JobSearch.Proofs.Calendar.Shift
import JobSearch.Proofs.Calendar.Absolute
import JobSearch.Proofs.Query.Today
import JobSearch.Proofs.Query.Chronology
