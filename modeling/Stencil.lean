import Stencil.Cli.Command
import Stencil.Lua.Snippet
import Stencil.Proofs.Batch.Artifacts
import Stencil.Proofs.Batch.Skip
import Stencil.Proofs.Lua.Fidelity
import Stencil.Proofs.Lua.Regions
import Stencil.Proofs.Markup.Layout
import Stencil.Proofs.Markup.Append
import Stencil.Proofs.Markup.Image
import Stencil.Proofs.Markup.Location
import Stencil.Proofs.Unit.Pieces
import Stencil.Proofs.Batch.Templates
import Stencil.Proofs.Batch.Effects
import Stencil.Proofs.Batch.States
import Stencil.Proofs.Batch.Order
import Stencil.Proofs.Batch.Retry
import Stencil.Proofs.Batch.Saving
import Stencil.Proofs.Lua.Capture
import Stencil.Proofs.Unit.Imports
import Stencil.Proofs.Markup.Directive
import Stencil.Proofs.Unit.Template
import Stencil.Proofs.Lua.Siblings
import Stencil.Proofs.Failure.Trace
import Stencil.Proofs.Failure.Chain
import Stencil.Proofs.Failure.Report
import Stencil.Proofs.Batch.Rivals
