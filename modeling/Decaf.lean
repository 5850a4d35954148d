import Decaf.Main
import Decaf.Proofs.Recognizer.Blame
import Decaf.Proofs.Recognizer.Concatenation
import Decaf.Proofs.Scanner.Munch
import Decaf.Proofs.Scanner.Newlines
import Decaf.Proofs.Scanner.Patterns
import Decaf.Proofs.Scanner.Recount
import Decaf.Proofs.Scanner.Spacing
import Decaf.Recognizer.Session
import Decaf.Proofs.Recognizer.Sessions
import Decaf.Proofs.Diagnostic.Excerpts
import Decaf.Proofs.Diagnostic.Carets
import Decaf.Proofs.CommandLine.Listings
import Decaf.Proofs.Recognizer.Progress
import Decaf.Proofs.CommandLine.Arguments
import Decaf.Proofs.CommandLine.Misfits
import Decaf.Proofs.CommandLine.Reports
import Decaf.Proofs.CommandLine.Folders
import Decaf.Proofs.Scanner.Appending
import Decaf.Proofs.Scanner.Movement
import Decaf.Proofs.Scanner.Resuming
import Decaf.Proofs.Source.Offsets
import Decaf.Proofs.Source.Search
import Decaf.Proofs.Recognizer.Flat
import Decaf.Proofs.Recognizer.Nesting
import Decaf.Proofs.Grammar.Registrations
