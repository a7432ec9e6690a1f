import NamedRoutes.Binary64.Reader
import NamedRoutes.PublicName
import NamedRoutes.Session.Run
import NamedRoutes.Proofs.Resolution
import NamedRoutes.Proofs.Template.Cut
import NamedRoutes.Proofs.Template.Grammar
import NamedRoutes.Proofs.Template.Unambiguous
import NamedRoutes.Proofs.Template.Scores
import NamedRoutes.Proofs.Url.Placeholder
import NamedRoutes.Proofs.Url.Filling
import NamedRoutes.Proofs.Url.Assembly
import NamedRoutes.Proofs.Url.ReadBack
import NamedRoutes.Proofs.Url.Rebuild
import NamedRoutes.Proofs.Session.Congruence
import NamedRoutes.Proofs.Template.QueryMarker
import NamedRoutes.Proofs.Navigation
import NamedRoutes.Proofs.Ranking
import NamedRoutes.Proofs.Precedence
import NamedRoutes.Proofs.Url.Reordering
import NamedRoutes.Proofs.Session.History
import NamedRoutes.Proofs.Session.Chronicle
import NamedRoutes.Proofs.Session.Tracking
import NamedRoutes.Proofs.Session.FirstVisits
import NamedRoutes.Proofs.Session.Arrival
import NamedRoutes.Proofs.Session.WithoutHistory
import NamedRoutes.Proofs.Candidates
import NamedRoutes.Proofs.Template.SourceText
import NamedRoutes.Proofs.Text.Decoding
import NamedRoutes.Proofs.Url.QueryString
import NamedRoutes.Proofs.Dispatch
import NamedRoutes.Proofs.Session.Passage
import NamedRoutes.Proofs.Session.Registry
import NamedRoutes.Proofs.FirstDifference
import NamedRoutes.Proofs.Url.Pieces
import NamedRoutes.Proofs.Session.DerivedNames
import NamedRoutes.Proofs.Session.Uncallable
import NamedRoutes.Proofs.Defaults
import NamedRoutes.Proofs.Session.BulkRegistration
import NamedRoutes.Proofs.Template.Segments
import NamedRoutes.Proofs.Session.Attempts
import NamedRoutes.Proofs.Session.Invocations
import NamedRoutes.Proofs.Value.Sameness
import NamedRoutes.Proofs.Session.Nesting
import NamedRoutes.Proofs.Session.Provenance
import NamedRoutes.Proofs.Session.Expectations
