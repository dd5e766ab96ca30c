import Rulebook.Text.Lines
import Rulebook.Text.Decimal
import Rulebook.Text.Case
import Rulebook.Text.Quoted
import Rulebook.Cursor
import Rulebook.Pattern.Plain
import Rulebook.Pattern.Extended
import Rulebook.Pattern.Compiled
import Rulebook.Table
import Rulebook.Value
import Rulebook.Fault
import Rulebook.Notice
import Rulebook.Item
import Rulebook.Picture
import Rulebook.Kernel
import Rulebook.Attribute
import Rulebook.Capture
import Rulebook.Transcript
import Rulebook.Proofs.Tiling
import Rulebook.Proofs.RoundTrip
import Rulebook.Proofs.Complaint
import Rulebook.Proofs.Rooted
import Rulebook.Proofs.Progress
import Rulebook.Proofs.Suffix
import Rulebook.Proofs.Registry
import Rulebook.Proofs.Collapse
import Rulebook.Proofs.StackBottom
import Rulebook.Proofs.Capturing
import Rulebook.Proofs.Forgetting
import Rulebook.Proofs.Facade
import Rulebook.Proofs.OpenPath
import Rulebook.Proofs.AllOrNothing
import Rulebook.Proofs.Turns
import Rulebook.Proofs.Conservative
import Rulebook.Proofs.Consuming
import Rulebook.Proofs.LineLookup
import Rulebook.Proofs.TreeIdentity
import Rulebook.Proofs.Routes
import Rulebook.Proofs.Installed
