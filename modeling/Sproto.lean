import Sproto.Proofs.Banner.Range
import Sproto.Proofs.Editor.Edits
import Sproto.Proofs.Editor.FixAll
import Sproto.Proofs.Editor.Whole
import Sproto.Proofs.Layout.Announcement
import Sproto.Proofs.Layout.BannerLine
import Sproto.Proofs.Layout.Conservation
import Sproto.Proofs.Layout.Convergence
import Sproto.Proofs.Layout.FieldLine
import Sproto.Proofs.Layout.Idempotence
import Sproto.Proofs.Layout.Insensitivity
import Sproto.Proofs.Layout.NormalForm
import Sproto.Proofs.Line.Decomposition
import Sproto.Proofs.Outline.Listing
import Sproto.Proofs.Outline.Nesting
import Sproto.Proofs.Outline.Preservation
import Sproto.Proofs.Outline.Protocols
import Sproto.Proofs.Refusal
import Sproto.Proofs.Session.Freshness
import Sproto.Proofs.Session.Silence
import Sproto.Proofs.Uri.File
import Sproto.Proofs.Validation.Clean
import Sproto.Proofs.Validation.Comment
import Sproto.Proofs.Validation.Grouping
import Sproto.Proofs.Validation.Isolation
import Sproto.Proofs.Validation.Modules
import Sproto.Proofs.Validation.Repetition
import Sproto.Proofs.Validation.Verdict
import Sproto.Proofs.Workspace.Reading
import Sproto.Proofs.Workspace.Survey
import Sproto.Version
