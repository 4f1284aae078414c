import TileRoute.Main
import TileRoute.Proofs.Character.Approach
import TileRoute.Proofs.Character.Bounds
import TileRoute.Proofs.Character.Countdown
import TileRoute.Proofs.Character.Fading
import TileRoute.Proofs.Character.Forced
import TileRoute.Proofs.Character.Interlude
import TileRoute.Proofs.Character.Late
import TileRoute.Proofs.Character.Refusal
import TileRoute.Proofs.Character.Resumed
import TileRoute.Proofs.Character.Visit
import TileRoute.Proofs.Character.Waiting
import TileRoute.Proofs.CommandLine.Fallback
import TileRoute.Proofs.Grid.Chart
import TileRoute.Proofs.Grid.Guidance
import TileRoute.Proofs.Grid.Moments
import TileRoute.Proofs.Grid.Pursuit
import TileRoute.Proofs.Lexicon.Line
import TileRoute.Proofs.Motion.Swing
import TileRoute.Proofs.Route.Copies
import TileRoute.Proofs.Route.Delivery
import TileRoute.Proofs.Scenario.Judged
import TileRoute.Proofs.Stage.Cast
import TileRoute.Proofs.Stage.Idle
import TileRoute.Proofs.Stage.Movement
import TileRoute.Proofs.Stage.Tempo
