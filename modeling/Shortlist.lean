import Shortlist.Category.Buckets
import Shortlist.Fetch.Schedule
import Shortlist.Main
import Shortlist.Proofs.Number.Rounding
import Shortlist.Proofs.Number.Finite
import Shortlist.Proofs.Text.AsciiCase
import Shortlist.Proofs.Text.Ranges
import Shortlist.Proofs.Text.Folding
import Shortlist.Proofs.Text.Runs
import Shortlist.Proofs.Text.Splitting
import Shortlist.Proofs.Text.Occurrence
import Shortlist.Proofs.Json.Scalars
import Shortlist.Proofs.Json.Values
import Shortlist.Proofs.Json.Reading
import Shortlist.Proofs.Json.Printed
import Shortlist.Proofs.Json.Delimited
import Shortlist.Proofs.Json.Enclosed
import Shortlist.Proofs.Record.Cleaning
import Shortlist.Proofs.Record.Leaves
import Shortlist.Proofs.Record.Codec
import Shortlist.Proofs.Record.NormalForm
import Shortlist.Proofs.Record.Stream
import Shortlist.Proofs.Record.Portable
import Shortlist.Proofs.Record.Appended
import Shortlist.Proofs.Pattern.Meaning
import Shortlist.Proofs.Pattern.CharClass
import Shortlist.Proofs.Pattern.Heritable
import Shortlist.Proofs.Pattern.Proper
import Shortlist.Proofs.Pattern.Automaton
import Shortlist.Proofs.Pattern.Search
import Shortlist.Proofs.Pattern.Local
import Shortlist.Proofs.Pattern.Names
import Shortlist.Proofs.Pattern.Token
import Shortlist.Proofs.Pattern.Joined
import Shortlist.Proofs.Pattern.Room
import Shortlist.Proofs.Pattern.Malformed
import Shortlist.Proofs.Pattern.Occurrences
import Shortlist.Proofs.Pattern.Spellings
import Shortlist.Proofs.Pattern.Plain
import Shortlist.Proofs.Pattern.Words
import Shortlist.Proofs.Pattern.CaseBlind
import Shortlist.Proofs.Pattern.CaseRun
import Shortlist.Proofs.Relevance.Compiled
import Shortlist.Proofs.Relevance.BuiltIn
import Shortlist.Proofs.Relevance.Malformed
import Shortlist.Proofs.Relevance.Deciders
import Shortlist.Proofs.Relevance.Keywords
import Shortlist.Proofs.Relevance.CaseBlind
import Shortlist.Proofs.Relevance.Social
import Shortlist.Proofs.Category.Buckets
import Shortlist.Proofs.Pipeline.Stages
import Shortlist.Proofs.Pipeline.Reference
import Shortlist.Proofs.Pipeline.Reprocessing
import Shortlist.Proofs.Pipeline.Rearranging
import Shortlist.Proofs.Pipeline.Batches
import Shortlist.Proofs.Pipeline.Links
import Shortlist.Proofs.Pipeline.Schedules
import Shortlist.Proofs.Proxy.Reports
import Shortlist.Proofs.Proxy.History
import Shortlist.Proofs.Proxy.Law
import Shortlist.Proofs.Proxy.Lists
import Shortlist.Proofs.Proxy.Turns
import Shortlist.Proofs.Headers
import Shortlist.Proofs.Captcha.Detection
import Shortlist.Proofs.Captcha.Forms
import Shortlist.Proofs.Captcha.SiteKey
import Shortlist.Proofs.Duration
import Shortlist.Proofs.Retry
import Shortlist.Proofs.Fetch.Solo
import Shortlist.Proofs.Fetch.Attempts
import Shortlist.Proofs.Fetch.Shutdown
import Shortlist.Proofs.Fetch.Crew
import Shortlist.Proofs.Fetch.Health
import Shortlist.Proofs.Fetch.Requests
import Shortlist.Proofs.Fetch.Schedule
import Shortlist.Proofs.Run
