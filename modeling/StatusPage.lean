import StatusPage.Main
import StatusPage.Settings.Writer
import StatusPage.Proofs.Restart.History
import StatusPage.Proofs.Restart.Clicks
import StatusPage.Proofs.Restart.Timeout
import StatusPage.Proofs.Restart.Transcript
import StatusPage.Proofs.Restart.Calendar
import StatusPage.Proofs.Span.Terms
import StatusPage.Proofs.Seconds.Terms
import StatusPage.Proofs.Uptime.Parts
import StatusPage.Proofs.Uptime.ReadBack
import StatusPage.Proofs.Uptime.Fields
import StatusPage.Proofs.Uptime.Total
import StatusPage.Proofs.Binary64.Nearest
import StatusPage.Proofs.Binary64.Decimal
import StatusPage.Proofs.Binary64.Literal
import StatusPage.Proofs.Report.Cut
import StatusPage.Proofs.Text.Digits
import StatusPage.Proofs.Binary64.Whole
import StatusPage.Proofs.Binary64.Range
import StatusPage.Proofs.Seconds.Literal
import StatusPage.Proofs.Seconds.Integer
import StatusPage.Proofs.Seconds.Double
import StatusPage.Proofs.Locale.Number
import StatusPage.Proofs.Locale.Integer
import StatusPage.Proofs.Locale.Precedence
import StatusPage.Proofs.Report.Block
import StatusPage.Proofs.Restart.Ticks
import StatusPage.Proofs.Settings.RoundTrip
import StatusPage.Proofs.Settings.Layout
import StatusPage.Proofs.Command.Output
import StatusPage.Proofs.Command.Inputs
import StatusPage.Proofs.Command.Items
import StatusPage.Proofs.Command.Spelling
import StatusPage.Proofs.Command.Startup
import StatusPage.Proofs.Command.Negative
import StatusPage.Proofs.Span.Lengths
import StatusPage.Proofs.Span.Printing
import StatusPage.Proofs.Restart.Ending
import StatusPage.Proofs.Restart.Window
import StatusPage.Proofs.Span.Amounts
import StatusPage.Proofs.Span.Grammar
import StatusPage.Proofs.Seconds.Abandoned
import StatusPage.Proofs.Binary64.Grammar
import StatusPage.Proofs.Command.CounterText
