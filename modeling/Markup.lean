import Markup.Json.Tree
import Markup.Site.Content
import Markup.Site.Form
import Markup.Site.Page
import Markup.Proofs.Render.Document
import Markup.Proofs.Render.FirstFault
import Markup.Proofs.Render.Skeleton
import Markup.Proofs.Uri.RoundTrip
import Markup.Proofs.Uri.FormData
import Markup.Proofs.Tree.History
import Markup.Proofs.Tree.Merging
import Markup.Proofs.Render.Merged
import Markup.Proofs.Text.ByteOrder
import Markup.Proofs.Render.AttributeText
import Markup.Proofs.Render.Composition
import Markup.Proofs.Render.Prerendered
import Markup.Proofs.Render.EqualTrees
import Markup.Proofs.Render.Splicing
import Markup.Proofs.Render.UpToFault
import Markup.Proofs.Site.Rebasing
import Markup.Proofs.Json.ReadingBack
import Markup.Proofs.Json.KeptSettings
import Markup.Proofs.Render.TagGrammar
import Markup.Proofs.Site.Building
import Markup.Proofs.Site.Linking
import Markup.Proofs.Site.Naming
import Markup.Proofs.Site.Root
import Markup.Proofs.Site.Submission
import Markup.Proofs.Render.Dialects
import Markup.Proofs.Render.Flattening
import Markup.Proofs.Site.Method
import Markup.Proofs.Number.DoubleText
import Markup.Proofs.Tree.Equivalence
import Markup.Proofs.Tree.Literals
import Markup.Proofs.Site.MailLink
