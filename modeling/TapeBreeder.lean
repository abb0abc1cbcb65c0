import TapeBreeder.Random.ChaCha
import TapeBreeder.Search.Record
import TapeBreeder.Search.Supervisor
import TapeBreeder.Proofs.Brackets.Depth
import TapeBreeder.Proofs.Brackets.Partner
import TapeBreeder.Proofs.Structured.Syntax
import TapeBreeder.Proofs.Structured.Layout
import TapeBreeder.Proofs.Structured.Refinement
import TapeBreeder.Proofs.Brackets.Leftover
import TapeBreeder.Proofs.Brackets.Flat
import TapeBreeder.Proofs.Brackets.Jumps
import TapeBreeder.Proofs.Brackets.Agreement
import TapeBreeder.Proofs.Machine.Faults
import TapeBreeder.Proofs.Random.Draws
import TapeBreeder.Proofs.Brackets.Unpaired
import TapeBreeder.Proofs.Safety.Guarded
import TapeBreeder.Proofs.Safety.Breeding
import TapeBreeder.Proofs.Breeding.Generation
import TapeBreeder.Proofs.Breeding.Brackets
import TapeBreeder.Proofs.Breeding.Mutation
import TapeBreeder.Proofs.Breeding.Crossover
import TapeBreeder.Proofs.Search.Steps
import TapeBreeder.Proofs.Search.Trace
import TapeBreeder.Proofs.Population.Evaluation
import TapeBreeder.Proofs.Population.Phases
import TapeBreeder.Proofs.Population.Offspring
import TapeBreeder.Proofs.Cost.Miss
import TapeBreeder.Proofs.Cost.Sum
import TapeBreeder.Proofs.Cost.Solved
import TapeBreeder.Proofs.Cost.Exact
import TapeBreeder.Proofs.Cost.Budget
import TapeBreeder.Proofs.Search.FreeDraw
import TapeBreeder.Proofs.Search.Winner
import TapeBreeder.Proofs.Safety.Search
import TapeBreeder.Proofs.Search.Populations
import TapeBreeder.Proofs.Population.BaseCosts
import TapeBreeder.Proofs.Search.Snapshots
import TapeBreeder.Proofs.Search.Core
import TapeBreeder.Proofs.Search.Viability
import TapeBreeder.Proofs.Search.Stagnation
import TapeBreeder.Proofs.Search.Reports
import TapeBreeder.Proofs.Machine.Cells
import TapeBreeder.Proofs.Search.Runs
import TapeBreeder.Proofs.Search.Cancellation
import TapeBreeder.Proofs.Search.Unsolvable
import TapeBreeder.Proofs.Search.Attempts
import TapeBreeder.Proofs.Search.Limits
import TapeBreeder.Proofs.Population.Halving
import TapeBreeder.Proofs.Search.Flatness
import TapeBreeder.Proofs.Config.Edits
import TapeBreeder.Proofs.Config.RoundTrip
import TapeBreeder.Proofs.Population.Ranking
import TapeBreeder.Proofs.Search.Selection
import TapeBreeder.Proofs.Search.Observation
import TapeBreeder.Proofs.Search.Records
import TapeBreeder.Proofs.Cost.Overlap
import TapeBreeder.Proofs.Population.Collection
import TapeBreeder.Proofs.Population.Runtime
import TapeBreeder.Proofs.Breeding.Conservation
import TapeBreeder.Proofs.Breeding.Locality
import TapeBreeder.Proofs.Population.Refill
import TapeBreeder.Proofs.Population.Plateau
import TapeBreeder.Proofs.Population.Culling
import TapeBreeder.Proofs.Machine.Echo
import TapeBreeder.Proofs.Cost.Repairs
import TapeBreeder.Proofs.Cost.Silence
import TapeBreeder.Proofs.Population.Ratios
import TapeBreeder.Proofs.Program.Text
import TapeBreeder.Proofs.Machine.Printing
import TapeBreeder.Proofs.Brackets.Nesting
import TapeBreeder.Proofs.Machine.Course
import TapeBreeder.Proofs.Safety.Charges
