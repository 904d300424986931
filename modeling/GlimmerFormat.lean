import GlimmerFormat.Proofs.Format.Attributes
import GlimmerFormat.Proofs.Format.Blocks
import GlimmerFormat.Proofs.Format.Content
import GlimmerFormat.Proofs.Format.Faults
import GlimmerFormat.Proofs.Format.Limits
import GlimmerFormat.Proofs.Format.Names
import GlimmerFormat.Proofs.Format.Normal
import GlimmerFormat.Proofs.Format.OneLine
import GlimmerFormat.Proofs.Format.Quotations
import GlimmerFormat.Proofs.Format.Quotes
import GlimmerFormat.Proofs.Format.Statements
import GlimmerFormat.Proofs.Format.Thinning
import GlimmerFormat.Proofs.Format.Width
import GlimmerFormat.Proofs.Layout.Builders
import GlimmerFormat.Proofs.Layout.FlatFirst
import GlimmerFormat.Proofs.Layout.Tabs
import GlimmerFormat.Proofs.Printing.Bodies
import GlimmerFormat.Proofs.Printing.Reflow
import GlimmerFormat.Proofs.Settings
import GlimmerFormat.Proofs.Tree.Loading
import GlimmerFormat.Proofs.Walk.Following
