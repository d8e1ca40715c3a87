import NoteQuery.Main
import NoteQuery.Query.Printer
import NoteQuery.Proofs.Query.RoundTrip
import NoteQuery.Proofs.Query.Phrase
import NoteQuery.Proofs.Query.Quoted
import NoteQuery.Proofs.Query.Accepted
import NoteQuery.Proofs.Query.Integer
import NoteQuery.Proofs.Query.Label
import NoteQuery.Proofs.Number.Numeral
import NoteQuery.Proofs.Number.Rounding
import NoteQuery.Proofs.Number.ShortestDecimal
import NoteQuery.Proofs.Number.FloatText
import NoteQuery.Proofs.Number.Place
import NoteQuery.Proofs.Json.Text
import NoteQuery.Proofs.Json.Number
import NoteQuery.Proofs.Json.RoundTrip
import NoteQuery.Proofs.Number.Whole
import NoteQuery.Proofs.Value.Rank
import NoteQuery.Proofs.Value.Coercion
import NoteQuery.Proofs.Value.Trichotomy
import NoteQuery.Proofs.Value.Decimal
import NoteQuery.Proofs.Index.Row
import NoteQuery.Proofs.Index.Refinement
import NoteQuery.Proofs.Index.Refresh
import NoteQuery.Proofs.Index.Completion
import NoteQuery.Proofs.Index.Projection
import NoteQuery.Proofs.Index.Settled
import NoteQuery.Proofs.Result.Grouping
import NoteQuery.Proofs.Result.Flattening
import NoteQuery.Proofs.Result.AnyItem
import NoteQuery.Proofs.Result.GroupOrder
import NoteQuery.Proofs.Result.DrillDown
import NoteQuery.Proofs.Result.Sorting
import NoteQuery.Proofs.Result.Sums
import NoteQuery.Proofs.Result.Rendering
import NoteQuery.Proofs.Vault.Agreement
import NoteQuery.Proofs.Vault.Secrecy
import NoteQuery.Proofs.Vault.Books
import NoteQuery.Proofs.Vault.Answers
import NoteQuery.Proofs.Vault.Limits
import NoteQuery.Proofs.Scope
import NoteQuery.Proofs.Note.FrontMatter
import NoteQuery.Proofs.Note.Privacy
import NoteQuery.Proofs.Note.RecordTags
import NoteQuery.Proofs.Note.Link
import NoteQuery.Proofs.Note.Code
import NoteQuery.Proofs.Note.VirtualField
import NoteQuery.Proofs.Value.MapOrder
import NoteQuery.Proofs.Folder.PublicNotes
import NoteQuery.Proofs.Config.RoundTrip
import NoteQuery.Proofs.Config.Validity
