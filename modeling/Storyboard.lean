/-
Storyboards: scripts in a binary container, their text form, and the tool between the two.
-/
import Storyboard.Main
import Storyboard.Proofs.Meaning
import Storyboard.Proofs.Rebuilding
import Storyboard.Proofs.Reencoding
import Storyboard.Proofs.RoundTrip
import Storyboard.Proofs.Succession
import Storyboard.Proofs.Effect
import Storyboard.Proofs.Invariant
import Storyboard.Proofs.Acceptance
import Storyboard.Proofs.Balance
import Storyboard.Proofs.Storing
import Storyboard.Proofs.Batch
import Storyboard.Proofs.Refinement
import Storyboard.Proofs.Opening
import Storyboard.Proofs.Canonical
import Storyboard.Proofs.TextFile
import Storyboard.Proofs.Calling
import Storyboard.Proofs.Pool
import Storyboard.Proofs.Feasibility
import Storyboard.Proofs.Rebasing
import Storyboard.Proofs.Splitting
import Storyboard.Proofs.Diagnosis
import Storyboard.Proofs.Scanning
import Storyboard.Proofs.Spelling
import Storyboard.Proofs.Fraction
import Storyboard.Proofs.Readback
import Storyboard.Proofs.Excursion
import Storyboard.Proofs.Footprint
import Storyboard.Proofs.Selection
import Storyboard.Proofs.Patching
import Storyboard.Proofs.Recording
import Storyboard.Proofs.Padding
import Storyboard.Proofs.Widening
