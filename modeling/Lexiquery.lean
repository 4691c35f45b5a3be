import Lexiquery.Main
import Lexiquery.Query.Response
import Lexiquery.Files.Tree
import Lexiquery.Proofs.Relation
import Lexiquery.Proofs.Entity.Converse
import Lexiquery.Proofs.Entity.Sessions
import Lexiquery.Proofs.Filter.Alternatives
import Lexiquery.Proofs.Filter.Duality
import Lexiquery.Proofs.Filter.Encoding
import Lexiquery.Proofs.Filter.Pruning
import Lexiquery.Proofs.Filter.Sharing
import Lexiquery.Proofs.Filter.Termination
import Lexiquery.Proofs.Metrics.Scopes
import Lexiquery.Proofs.Query.Answers
import Lexiquery.Proofs.Query.Complement
import Lexiquery.Proofs.Query.Conjunction
import Lexiquery.Proofs.Query.Counts
import Lexiquery.Proofs.Query.Executing
import Lexiquery.Proofs.Query.Gathering
import Lexiquery.Proofs.Query.Links
import Lexiquery.Proofs.Query.Ordering
import Lexiquery.Proofs.Query.Positive
import Lexiquery.Proofs.Query.Records
import Lexiquery.Proofs.Query.Relatives
import Lexiquery.Proofs.Query.Reordering
import Lexiquery.Proofs.Query.Resolution
import Lexiquery.Proofs.Query.Sharing
import Lexiquery.Proofs.Query.Union
import Lexiquery.Proofs.Shell.Commands
import Lexiquery.Proofs.Shell.Rhymes
import Lexiquery.Proofs.Statement.Bindings
import Lexiquery.Proofs.Statement.Blanks
import Lexiquery.Proofs.Statement.Faults
import Lexiquery.Proofs.Statement.Identity
import Lexiquery.Proofs.Statement.Readback
import Lexiquery.Proofs.Statement.WellScoped
