import GuardedReach.Listing
import GuardedReach.Main
import GuardedReach.Proofs.Report.Verdict
import GuardedReach.Proofs.Search.Budget
import GuardedReach.Proofs.Search.Lexicographic
import GuardedReach.Proofs.Search.Refinement
import GuardedReach.Proofs.Search.Soundness
import GuardedReach.Proofs.Search.Termination
import GuardedReach.Proofs.Search.Answers
import GuardedReach.Proofs.Search.Driving
import GuardedReach.Proofs.Search.Accounting
import GuardedReach.Proofs.Search.Depths
import GuardedReach.Proofs.Search.Reconstruction
import GuardedReach.Proofs.Format.Puzzle
import GuardedReach.Proofs.Format.Report
import GuardedReach.Proofs.Puzzle.Jugs
import GuardedReach.Proofs.Puzzle.Levels
import GuardedReach.Proofs.Command.Status
import GuardedReach.Proofs.Command.Template
import GuardedReach.Proofs.Search.Reordering
import GuardedReach.Proofs.Search.Renaming
import GuardedReach.Proofs.Machine.Footprint
import GuardedReach.Proofs.Search.Conservation
import GuardedReach.Proofs.Search.Refusal
import GuardedReach.Proofs.Machine.Hashing
import GuardedReach.Proofs.Machine.Independence
import GuardedReach.Proofs.Search.Records
import GuardedReach.Proofs.Report.Lines
import GuardedReach.Proofs.Search.Frontier
import GuardedReach.Proofs.Search.QueueLevels
