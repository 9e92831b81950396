import ScoreGate.Cache
import ScoreGate.Cache.Memory
import ScoreGate.Main
import ScoreGate.Timer
import ScoreGate.Proofs.Judgement
import ScoreGate.Proofs.Severity
import ScoreGate.Proofs.Decision
import ScoreGate.Proofs.Locations
import ScoreGate.Proofs.Names
import ScoreGate.Proofs.Printing
import ScoreGate.Proofs.Replacement
import ScoreGate.Proofs.Shelf
import ScoreGate.Proofs.Refinement
import ScoreGate.Proofs.Histories
import ScoreGate.Proofs.Scanning
import ScoreGate.Proofs.Standstill
import ScoreGate.Proofs.Rereading
import ScoreGate.Proofs.Recording
import ScoreGate.Proofs.Validity
import ScoreGate.Proofs.Repeating
import ScoreGate.Proofs.Decoding
import ScoreGate.Proofs.Listing
import ScoreGate.Proofs.Removal
import ScoreGate.Proofs.Comparing
import ScoreGate.Proofs.Drops
import ScoreGate.Proofs.Layers
import ScoreGate.Proofs.Misreading
import ScoreGate.Proofs.Loading
import ScoreGate.Proofs.Averages
import ScoreGate.Proofs.Components
import ScoreGate.Proofs.Growth
import ScoreGate.Proofs.Worsening
import ScoreGate.Proofs.Consoles
import ScoreGate.Proofs.Commands
import ScoreGate.Proofs.Surprises
import ScoreGate.Proofs.Checking
import ScoreGate.Proofs.Screens
import ScoreGate.Proofs.Endings
import ScoreGate.Proofs.Exits
import ScoreGate.Proofs.Caching
import ScoreGate.Proofs.Codec
import ScoreGate.Proofs.Filling
import ScoreGate.Proofs.Spelling
import ScoreGate.Proofs.Retention
import ScoreGate.Proofs.Marks
import ScoreGate.Proofs.Copies
import ScoreGate.Proofs.Mirroring
import ScoreGate.Proofs.Pointing
import ScoreGate.Proofs.Adding
import ScoreGate.Proofs.Branches
import ScoreGate.Proofs.Inserting
import ScoreGate.Proofs.Returning
import ScoreGate.Proofs.Documents
import ScoreGate.Proofs.Shortest
import ScoreGate.Proofs.Tokens
import ScoreGate.Proofs.Writing
import ScoreGate.Proofs.Shapes
import ScoreGate.Proofs.Submitting
import ScoreGate.Proofs.Drawing
import ScoreGate.Proofs.Aggregating
import ScoreGate.Proofs.Reordering
import ScoreGate.Proofs.Grading
import ScoreGate.Proofs.Coherence
import ScoreGate.Proofs.Appending
import ScoreGate.Proofs.Respacing
import ScoreGate.Proofs.LineEnds
import ScoreGate.Proofs.Skipping
import ScoreGate.Proofs.Projects
import ScoreGate.Proofs.Patterns
import ScoreGate.Proofs.Walking
import ScoreGate.Proofs.Finding
import ScoreGate.Proofs.Excluding
import ScoreGate.Proofs.Naming
import ScoreGate.Proofs.Confinement
import ScoreGate.Proofs.Outages
import ScoreGate.Proofs.Courses
import ScoreGate.Proofs.Accounts
import ScoreGate.Proofs.Joining
import ScoreGate.Proofs.Surrounding
import ScoreGate.Proofs.Omitting
import ScoreGate.Proofs.Showing
import ScoreGate.Proofs.Timing
