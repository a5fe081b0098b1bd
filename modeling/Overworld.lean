import Overworld.Text.Blank
import Overworld.Number.Power
import Overworld.Number.Decimal
import Overworld.Number.Shortest
import Overworld.Json.Basic
import Overworld.Json.Literal
import Overworld.Json.Token
import Overworld.Json.Document
import Overworld.Json.Reading
import Overworld.Value
import Overworld.Variables
import Overworld.Expression
import Overworld.Button
import Overworld.Keyboard
import Overworld.Direction
import Overworld.Map
import Overworld.Event
import Overworld.Scene
import Overworld.Graph
import Overworld.Graph.Faults
import Overworld.Graph.Builder
import Overworld.Format.Expression
import Overworld.Format.Event
import Overworld.Format.Graph
import Overworld.InputScript
import Overworld.Config
import Overworld.Host
import Overworld.Entity
import Overworld.Camera
import Overworld.Stage
import Overworld.Notice
import Overworld.Journal
import Overworld.Session
import Overworld.Play.Events
import Overworld.Play.Control
import Overworld.Play.Scenes
import Overworld.Demo
import Overworld.Launch.Settings
import Overworld.Launch.Wiring
import Overworld.Main
import Overworld.Proofs.Deeds
import Overworld.Proofs.Simulation
import Overworld.Proofs.Errands
import Overworld.Proofs.Routines
import Overworld.Proofs.Pairing
import Overworld.Proofs.Simulation.Events
import Overworld.Proofs.Simulation.Control
import Overworld.Proofs.Simulation.Scenes
import Overworld.Proofs.Calls
import Overworld.Proofs.Sprites
import Overworld.Proofs.Requests
import Overworld.Proofs.Budget
import Overworld.Proofs.Termination
import Overworld.Proofs.Nesting
import Overworld.Proofs.Words
import Overworld.Proofs.Starts
import Overworld.Proofs.Patience
import Overworld.Proofs.Steps
import Overworld.Proofs.Walking
import Overworld.Proofs.Drift
import Overworld.Proofs.Acts
import Overworld.Proofs.Acts.Events
import Overworld.Proofs.Acts.Control
import Overworld.Proofs.Acts.Scenes
import Overworld.Proofs.Framing
import Overworld.Proofs.Appearance
import Overworld.Proofs.Cleanup
import Overworld.Proofs.Upkeep
import Overworld.Proofs.Handlers
import Overworld.Proofs.Edges
import Overworld.Proofs.Presses
import Overworld.Proofs.Forgetting
import Overworld.Proofs.Validity
import Overworld.Proofs.Inlining
import Overworld.Proofs.Repertoire
import Overworld.Proofs.Heights
import Overworld.Proofs.Safety
import Overworld.Proofs.Readback
import Overworld.Proofs.RoundTrip
import Overworld.Proofs.Untouched
import Overworld.Proofs.Rewiring
import Overworld.Proofs.Parallel
import Overworld.Proofs.Handles
import Overworld.Proofs.Invariants
import Overworld.Proofs.Assignments
import Overworld.Proofs.Idling
import Overworld.Proofs.HostCalls
import Overworld.Proofs.Panning
import Overworld.Proofs.Drapes
import Overworld.Proofs.Veils
import Overworld.Proofs.Durations
import Overworld.Proofs.Awaiting
import Overworld.Proofs.Keys
import Overworld.Proofs.Distance
import Overworld.Proofs.Building
import Overworld.Proofs.Geometry
import Overworld.Proofs.Grammar
import Overworld.Proofs.Snapshots
import Overworld.Proofs.Spellings
import Overworld.Proofs.Readings
import Overworld.Proofs.WalkPictures
