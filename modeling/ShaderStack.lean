import ShaderStack.Workspace.Step
import ShaderStack.Device.Request
import ShaderStack.Device.OpenGL
import ShaderStack.Render.Computation
import ShaderStack.Main
import ShaderStack.Proofs.Naming
import ShaderStack.Proofs.Preamble
import ShaderStack.Proofs.Assembly
import ShaderStack.Proofs.Updates
import ShaderStack.Proofs.Rendering
import ShaderStack.Proofs.Binding
import ShaderStack.Proofs.Objects
import ShaderStack.Proofs.Ownership
import ShaderStack.Proofs.Session
import ShaderStack.Proofs.Allocation
import ShaderStack.Proofs.Lifetimes
import ShaderStack.Proofs.Graphics
import ShaderStack.Proofs.Targets
import ShaderStack.Proofs.Viewports
import ShaderStack.Proofs.Cells
import ShaderStack.Proofs.Readings
import ShaderStack.Proofs.Uploads
import ShaderStack.Proofs.Flushing
import ShaderStack.Proofs.Turns
import ShaderStack.Proofs.Frames
import ShaderStack.Proofs.Slots
import ShaderStack.Proofs.Filling
import ShaderStack.Proofs.Wiring
import ShaderStack.Proofs.Caching
import ShaderStack.Proofs.Managers
import ShaderStack.Proofs.CallSites
import ShaderStack.Proofs.Twins
import ShaderStack.Proofs.Echoes
import ShaderStack.Proofs.Mirrors
import ShaderStack.Proofs.Attempts
import ShaderStack.Proofs.Rebinding
import ShaderStack.Proofs.Relinking
import ShaderStack.Proofs.Transparency
import ShaderStack.Proofs.Compiling
import ShaderStack.Proofs.Mounts
import ShaderStack.Proofs.Preparation
import ShaderStack.Proofs.Upkeep
import ShaderStack.Proofs.Growth
import ShaderStack.Proofs.Drawing
import ShaderStack.Proofs.Naive
import ShaderStack.Proofs.Agreement
import ShaderStack.Proofs.Conflicts
import ShaderStack.Proofs.Listeners
import ShaderStack.Proofs.Redraws
import ShaderStack.Proofs.Polling
import ShaderStack.Proofs.Computing
import ShaderStack.Proofs.Recomputation
import ShaderStack.Proofs.Pacing
import ShaderStack.Proofs.Contributions
import ShaderStack.Proofs.Rounding
import ShaderStack.Proofs.Acceptance
import ShaderStack.Proofs.Mentions
import ShaderStack.Proofs.Strays
import ShaderStack.Proofs.Histories
import ShaderStack.Proofs.FirstValues
import ShaderStack.Proofs.Diffing
import ShaderStack.Proofs.Deliveries
import ShaderStack.Proofs.VertexData
import ShaderStack.Proofs.Overhearing
import ShaderStack.Proofs.Heedlessness
import ShaderStack.Proofs.Leftovers
import ShaderStack.Proofs.Seating
import ShaderStack.Proofs.Subscriptions
import ShaderStack.Proofs.Untouched
import ShaderStack.Proofs.Indices
import ShaderStack.Proofs.SingleDraws
import ShaderStack.Proofs.Renderbuffers
import ShaderStack.Proofs.Readbacks
import ShaderStack.Proofs.TargetReuse
import ShaderStack.Proofs.Splicing
import ShaderStack.Proofs.Layouts
import ShaderStack.Proofs.PixelReads
import ShaderStack.Proofs.Captures
import ShaderStack.Proofs.Identifiers
import ShaderStack.Proofs.Scanning
import ShaderStack.Proofs.Locations
import ShaderStack.Proofs.Emission
import ShaderStack.Proofs.Elision
import ShaderStack.Proofs.Tallies
import ShaderStack.Proofs.Registrations
import ShaderStack.Proofs.Steadiness
import ShaderStack.Proofs.Cadence
import ShaderStack.Proofs.Settling
import ShaderStack.Proofs.Bundles
import ShaderStack.Proofs.Staging
import ShaderStack.Proofs.Replays
