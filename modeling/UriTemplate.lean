import UriTemplate.Command.Report
import UriTemplate.Main
import UriTemplate.Proofs.Agreement
import UriTemplate.Proofs.Delimiters
import UriTemplate.Proofs.ExpressionText
import UriTemplate.Proofs.FaultPosition
import UriTemplate.Proofs.Inspection
import UriTemplate.Proofs.Query
import UriTemplate.Proofs.ReadingOnce
import UriTemplate.Proofs.Reordering
import UriTemplate.Proofs.Reporting
import UriTemplate.Proofs.SingleValues
import UriTemplate.Proofs.Spellings
