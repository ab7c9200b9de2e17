import EffectLoop.Command.Build
import EffectLoop.Command.Execute
import EffectLoop.Proofs.Command.Accounts
import EffectLoop.Proofs.Command.Agreement
import EffectLoop.Proofs.Command.Attested
import EffectLoop.Proofs.Command.Blocks
import EffectLoop.Proofs.Command.Calls
import EffectLoop.Proofs.Command.Completion
import EffectLoop.Proofs.Command.Conduct
import EffectLoop.Proofs.Command.Distribution
import EffectLoop.Proofs.Command.Editing
import EffectLoop.Proofs.Command.Flattening
import EffectLoop.Proofs.Command.Fusion
import EffectLoop.Proofs.Command.Hushed
import EffectLoop.Proofs.Command.Immediate
import EffectLoop.Proofs.Command.Ledger
import EffectLoop.Proofs.Command.Observers
import EffectLoop.Proofs.Command.Outcome
import EffectLoop.Proofs.Command.Phases
import EffectLoop.Proofs.Command.Readiness
import EffectLoop.Proofs.Command.Sequence
import EffectLoop.Proofs.Command.Siblings
import EffectLoop.Proofs.Command.Sites
import EffectLoop.Proofs.Command.Splicing
import EffectLoop.Proofs.Command.Verdicts
import EffectLoop.Proofs.Json.Handles
import EffectLoop.Proofs.Json.Ordered
import EffectLoop.Proofs.Program.Attestations
import EffectLoop.Proofs.Program.Dues
import EffectLoop.Proofs.Program.Editing
import EffectLoop.Proofs.Program.History
import EffectLoop.Proofs.Program.Hush
import EffectLoop.Proofs.Program.Rendering
import EffectLoop.Proofs.Program.Resolution
import EffectLoop.Proofs.Program.Retag
import EffectLoop.Proofs.Program.Rules
import EffectLoop.Proofs.Program.Straight
import EffectLoop.Proofs.Program.Terms
import EffectLoop.Proofs.Simulation.Blindness
import EffectLoop.Proofs.Simulation.Canonical
import EffectLoop.Proofs.Simulation.Grammar
import EffectLoop.Proofs.Simulation.Positions
import EffectLoop.Proofs.Store.BackToBack
import EffectLoop.Proofs.Store.Blame
import EffectLoop.Proofs.Store.Closing
import EffectLoop.Proofs.Store.Coverage
import EffectLoop.Proofs.Store.Failures
import EffectLoop.Proofs.Store.Finishing
import EffectLoop.Proofs.Store.Hushed
import EffectLoop.Proofs.Store.Progress
import EffectLoop.Proofs.Store.Replay
import EffectLoop.Proofs.Store.Staging
import EffectLoop.Proofs.Store.Synchronous
import EffectLoop.Proofs.Store.Thread
import EffectLoop.Proofs.Store.Transcript
import EffectLoop.Proofs.Store.Work
import EffectLoop.Proofs.Time.Agenda
import EffectLoop.Proofs.Time.Cadence
import EffectLoop.Proofs.Time.Chronicle
import EffectLoop.Proofs.Time.Course
import EffectLoop.Proofs.Time.Descent
import EffectLoop.Proofs.Time.Entries
import EffectLoop.Proofs.Time.Ledger
import EffectLoop.Proofs.Time.Legs
import EffectLoop.Proofs.Time.Motion
import EffectLoop.Proofs.Time.Punctuality
import EffectLoop.Proofs.Time.Roster
import EffectLoop.Proofs.Time.Strain
import EffectLoop.Proofs.Time.Tasks
import EffectLoop.Proofs.World.Adequacy
import EffectLoop.Proofs.World.Advancing
import EffectLoop.Proofs.World.Allowance
import EffectLoop.Proofs.World.Attendance
import EffectLoop.Proofs.World.Awaiting
import EffectLoop.Proofs.World.Beats
import EffectLoop.Proofs.World.Bookkeeping
import EffectLoop.Proofs.World.Cancellation
import EffectLoop.Proofs.World.Clearing
import EffectLoop.Proofs.World.Concord
import EffectLoop.Proofs.World.Conformity
import EffectLoop.Proofs.World.Detachment
import EffectLoop.Proofs.World.Driving
import EffectLoop.Proofs.World.Errands
import EffectLoop.Proofs.World.Hosting
import EffectLoop.Proofs.World.Hushing
import EffectLoop.Proofs.World.Instant
import EffectLoop.Proofs.World.Journeys
import EffectLoop.Proofs.World.Mirroring
import EffectLoop.Proofs.World.Passage
import EffectLoop.Proofs.World.Recounting
import EffectLoop.Proofs.World.Recurrence
import EffectLoop.Proofs.World.Regime
import EffectLoop.Proofs.World.Register
import EffectLoop.Proofs.World.Registration
import EffectLoop.Proofs.World.Rounds
import EffectLoop.Proofs.World.Service
import EffectLoop.Proofs.World.Silence
import EffectLoop.Proofs.World.Spawning
import EffectLoop.Proofs.World.Splitting
import EffectLoop.Proofs.World.Straining
import EffectLoop.Proofs.World.Termination
import EffectLoop.Proofs.World.Tickets
import EffectLoop.Proofs.World.Unaware
import EffectLoop.Proofs.World.Vigil
import EffectLoop.Script.Request
import EffectLoop.Simulation.Actions
import EffectLoop.World.Session
