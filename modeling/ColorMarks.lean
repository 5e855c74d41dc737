import ColorMarks.Text.Blank
import ColorMarks.Text.Integer
import ColorMarks.Text.Quoted
import ColorMarks.Decimal.Layout
import ColorMarks.Json.Reader
import ColorMarks.Json.Printer
import ColorMarks.Diagnostic.Record
import ColorMarks.Command
import ColorMarks.Store
import ColorMarks.Notification
import ColorMarks.Settings
import ColorMarks.Selector
import ColorMarks.Proofs.Client.Order
import ColorMarks.Proofs.Client.Documents
import ColorMarks.Proofs.Json.Scalar
import ColorMarks.Proofs.Json.RoundTrip
import ColorMarks.Proofs.Frame.Header
import ColorMarks.Proofs.Frame.Stream
import ColorMarks.Proofs.Ordered
import ColorMarks.Proofs.Store
import ColorMarks.Proofs.Client.Published
import ColorMarks.Proofs.Highlight.Grouping
import ColorMarks.Proofs.Highlight.Painting
import ColorMarks.Proofs.Extension
import ColorMarks.Proofs.Client.Answers
import ColorMarks.Proofs.Notices
import ColorMarks.Proofs.Highlight.Display
import ColorMarks.Proofs.Highlight.Lifetime
import ColorMarks.Proofs.Client.Recall
import ColorMarks.Proofs.Client.Waiting
import ColorMarks.Proofs.Client.Rounds
import ColorMarks.Proofs.Client.Calls
import ColorMarks.Proofs.Replacement
import ColorMarks.Proofs.Highlight.Requests
import ColorMarks.Proofs.Cli
import ColorMarks.Proofs.Highlight.Cycle
import ColorMarks.Proofs.Color
import ColorMarks.Proofs.Frame.Consumption
import ColorMarks.Proofs.Client.Response
import ColorMarks.Proofs.Frame.Announcement
import ColorMarks.Proofs.Frame.Truncation
import ColorMarks.Proofs.Diagnostic.Decoding
import ColorMarks.Proofs.Diagnostic.Encoding
import ColorMarks.Proofs.Selector
import ColorMarks.Proofs.Host.Uri
import ColorMarks.Proofs.Client.Watched
import ColorMarks.Proofs.Client.Malformed
import ColorMarks.Proofs.Settings
import ColorMarks.Proofs.Highlight.Style
import ColorMarks.Main
