import FrontEnd.CommandLine.Store
import FrontEnd.Main
import FrontEnd.Proofs.Accounting
import FrontEnd.Proofs.Bounds
import FrontEnd.Proofs.Breaks
import FrontEnd.Proofs.Chars.Joining
import FrontEnd.Proofs.Chars.Transcripts
import FrontEnd.Proofs.CommandLine.Visiting
import FrontEnd.Proofs.Failing
import FrontEnd.Proofs.Faultless
import FrontEnd.Proofs.Listing.Rows
import FrontEnd.Proofs.Listing.Tokens
import FrontEnd.Proofs.Listing.Tree
import FrontEnd.Proofs.Literals
import FrontEnd.Proofs.Lookahead
import FrontEnd.Proofs.Reporting
import FrontEnd.Proofs.Semicolons
import FrontEnd.Proofs.Sentences
import FrontEnd.Proofs.Silence
import FrontEnd.Proofs.Token.Printing
import FrontEnd.Proofs.Tree.Forming
import FrontEnd.Proofs.Tree.Rendering
import FrontEnd.Tree.Building
