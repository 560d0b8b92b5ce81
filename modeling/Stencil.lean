import Stencil.Main
import Stencil.Proofs.Marker
import Stencil.Proofs.Reading
import Stencil.Proofs.Frames
import Stencil.Proofs.Nesting
import Stencil.Proofs.Discipline
import Stencil.Proofs.Sharing
import Stencil.Proofs.BlockTree
import Stencil.Proofs.Pushing
import Stencil.Proofs.Expansion
import Stencil.Proofs.Failures
import Stencil.Proofs.Locations
import Stencil.Proofs.Prediction
import Stencil.Proofs.Choosing
import Stencil.Proofs.Detecting
import Stencil.Proofs.Declining
import Stencil.Proofs.Writing
import Stencil.Proofs.Shapes
import Stencil.Proofs.Reindenting
import Stencil.Proofs.Histories
import Stencil.Proofs.Declaring
import Stencil.Proofs.Naming
import Stencil.Proofs.Delivery
import Stencil.Proofs.Leftovers
import Stencil.Proofs.Paths
import Stencil.Proofs.Walking
import Stencil.Proofs.Directories
import Stencil.Proofs.Agreement
import Stencil.Proofs.Touching
import Stencil.Proofs.Invoking
import Stencil.Proofs.Rewriting
import Stencil.Proofs.Repeating
import Stencil.Proofs.Levels
import Stencil.Proofs.Contents
import Stencil.Proofs.Copying
import Stencil.Proofs.Quoting
import Stencil.Proofs.Lowering
import Stencil.Proofs.Braces
import Stencil.Proofs.Evaluating
import Stencil.Proofs.Excluding
import Stencil.Proofs.Padding
import Stencil.Proofs.Relaxing
import Stencil.Proofs.Ranges
import Stencil.Proofs.Widths
