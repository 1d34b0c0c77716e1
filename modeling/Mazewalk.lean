import Mazewalk.Json.Model
import Mazewalk.Main
import Mazewalk.Proofs.Run.Meaning
import Mazewalk.Proofs.Session.History
import Mazewalk.Proofs.Session.Pacing
import Mazewalk.Proofs.Grid.Lookup
import Mazewalk.Proofs.World.Actions
import Mazewalk.Proofs.World.Paths
import Mazewalk.Proofs.Run.Replay
import Mazewalk.Proofs.Level.Solvable
import Mazewalk.Proofs.Program.RoundTrip
import Mazewalk.Proofs.Run.Composition
import Mazewalk.Proofs.Run.Unrolling
import Mazewalk.Proofs.Run.Checks
import Mazewalk.Proofs.Run.Safety
import Mazewalk.Proofs.Grid.Rows
import Mazewalk.Proofs.Map.Reading
import Mazewalk.Proofs.Map.RoundTrip
import Mazewalk.Proofs.Level.RoundTrip
import Mazewalk.Proofs.Run.Items
import Mazewalk.Proofs.Run.Schedule
import Mazewalk.Proofs.Progress.Standings
import Mazewalk.Proofs.Session.Fairness
import Mazewalk.Proofs.Progress.History
import Mazewalk.Proofs.Program.Grammar
import Mazewalk.Proofs.Program.Rewording
import Mazewalk.Proofs.Map.Language
import Mazewalk.Proofs.Map.NormalForm
import Mazewalk.Proofs.World.Turning
import Mazewalk.Proofs.Run.Symmetry
import Mazewalk.Proofs.Level.Stars
import Mazewalk.Proofs.Level.Outcome
import Mazewalk.Proofs.Json.RoundTrip
import Mazewalk.Proofs.World.Roaming
import Mazewalk.Proofs.Level.LowerBound
import Mazewalk.Proofs.Catalog.Par
import Mazewalk.Proofs.Run.Loops
import Mazewalk.Proofs.World.Corridor
import Mazewalk.Proofs.Run.Corridor
import Mazewalk.Proofs.Run.Tally
import Mazewalk.Proofs.Grid.Access
import Mazewalk.Proofs.Json.Grids
import Mazewalk.Proofs.CommandLine.Request
import Mazewalk.Proofs.CommandLine.Options
import Mazewalk.Proofs.Documents
import Mazewalk.Proofs.CommandLine.Report
import Mazewalk.Proofs.CommandLine.Stages
import Mazewalk.Proofs.CommandLine.Headless
import Mazewalk.Proofs.Run.Places
import Mazewalk.Proofs.Run.Turns
import Mazewalk.Proofs.World.Sight
import Mazewalk.Proofs.Run.Record
import Mazewalk.Proofs.Run.Stuck
import Mazewalk.Proofs.Level.Goal
import Mazewalk.Proofs.Program.Faults
import Mazewalk.Proofs.Run.Touch
import Mazewalk.Proofs.Level.Validation
import Mazewalk.Proofs.Map.Defects
import Mazewalk.Proofs.Progress.Announcements
import Mazewalk.Proofs.Catalog.Merging
import Mazewalk.Proofs.Catalog.Directory
import Mazewalk.Proofs.CommandLine.Choice
import Mazewalk.Proofs.Screen.Maze
import Mazewalk.Proofs.Grid.Order
import Mazewalk.Proofs.Grid.Faithful
import Mazewalk.Proofs.World.Neighbours
