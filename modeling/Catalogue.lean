import Catalogue.Http.Server
import Catalogue.Http.Standard
import Catalogue.Main
import Catalogue.Store.Edit
import Catalogue.Proofs.Date
import Catalogue.Proofs.Entry.FieldList
import Catalogue.Proofs.File.Tree
import Catalogue.Proofs.Store.Reopening
import Catalogue.Proofs.Store.Saved
import Catalogue.Proofs.Store.Session
import Catalogue.Proofs.Store.Refinement
import Catalogue.Proofs.Filter.Compile
import Catalogue.Proofs.Filter.Like
import Catalogue.Proofs.Filter.Reading
import Catalogue.Proofs.Store.Discovery
import Catalogue.Proofs.Store.Paging
import Catalogue.Proofs.Store.Walk
import Catalogue.Proofs.Filter.Containment
import Catalogue.Proofs.Filter.Answering
import Catalogue.Proofs.Filter.Predicate
import Catalogue.Proofs.Filter.Alignment
import Catalogue.Proofs.Filter.Joining
import Catalogue.Proofs.Filter.FanOut
import Catalogue.Proofs.Filter.Days
import Catalogue.Proofs.Filter.Writing
import Catalogue.Proofs.Filter.Overlong
import Catalogue.Proofs.Store.ReadOnly
import Catalogue.Proofs.Store.Vocabulary
import Catalogue.Proofs.Store.Serving
import Catalogue.Proofs.Store.Lasting
import Catalogue.Proofs.Store.Undone
import Catalogue.Proofs.Store.Ordering
import Catalogue.Proofs.Store.Numbering
import Catalogue.Proofs.Store.Filtered
import Catalogue.Proofs.Store.Membership
import Catalogue.Proofs.Store.Binding
import Catalogue.Proofs.Store.Faults
import Catalogue.Proofs.Http.Surface
import Catalogue.Proofs.Http.Listing
import Catalogue.Proofs.Http.SavingBack
import Catalogue.Proofs.Settings.File
import Catalogue.Proofs.Settings.Merging
import Catalogue.Proofs.Settings.Unknown
import Catalogue.Proofs.Settings.Loading
import Catalogue.Proofs.Store.Malformed
import Catalogue.Proofs.Launch.Host
import Catalogue.Proofs.Log.Handlers
import Catalogue.Proofs.Store.Blocks
import Catalogue.Proofs.Launch.Server
import Catalogue.Proofs.File.Expansion
import Catalogue.Proofs.File.WorkingDir
import Catalogue.Proofs.Log.Line
import Catalogue.Proofs.Launch.Configuration
