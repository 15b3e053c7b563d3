import BattleRoyale.Common
import BattleRoyale.Text
import BattleRoyale.Messages
import BattleRoyale.Protocol
import BattleRoyale.Transport
import BattleRoyale.Library.Recorded
import BattleRoyale.Library.Framing
import BattleRoyale.Game
import BattleRoyale.ChaseSimulation
import BattleRoyale.ServerState
import BattleRoyale.ServerCommands
import BattleRoyale.Server
import BattleRoyale.ClientMessages
import BattleRoyale.Actions
import BattleRoyale.ChaseEffects
import BattleRoyale.Library.Pursuit
import BattleRoyale.RealChase
import BattleRoyale.Invariants
import BattleRoyale.Broadcast
import BattleRoyale.Reevaluation
import BattleRoyale.Refinement
import BattleRoyale.StepRefinement
import BattleRoyale.BetweenSteps
import BattleRoyale.MatchLifecycle
import BattleRoyale.Elimination
import BattleRoyale.Verdicts
import BattleRoyale.PhaseProgress
import BattleRoyale.FreeSlots
import BattleRoyale.SpawnTiles
import BattleRoyale.LobbyCountdown
import BattleRoyale.PlayerFlags
import BattleRoyale.Termination
import BattleRoyale.Acknowledgements
import BattleRoyale.MatchEnd
import BattleRoyale.PairResolution
import BattleRoyale.Sessions
import BattleRoyale.ClientView
import BattleRoyale.SnapshotRoundTrip
import BattleRoyale.Composition
import BattleRoyale.BroadcastOrder
import BattleRoyale.Rematch
import BattleRoyale.NameHandshake
import BattleRoyale.Binary32
import BattleRoyale.SpawnNumbers
import BattleRoyale.SnapshotBlocks
import BattleRoyale.Library.Selection
import BattleRoyale.NearestPrey
import BattleRoyale.CommandWords
import BattleRoyale.Matching
import BattleRoyale.PairingOrder
import BattleRoyale.LineSources
import BattleRoyale.Refusals
import BattleRoyale.LineLengths
import BattleRoyale.RepickEnd
import BattleRoyale.Undisturbed
import BattleRoyale.RoundOutcome
import BattleRoyale.Library.Barrier
import BattleRoyale.RepickBarrier
import BattleRoyale.LobbyStatus
import BattleRoyale.InputOutput
import BattleRoyale.MainLoop
import BattleRoyale.ClientProgram
import BattleRoyale.Understanding
import BattleRoyale.AutomaticJoin
import BattleRoyale.Library.Delivery
import BattleRoyale.Network
import BattleRoyale.Authenticity
import BattleRoyale.ClientScreen
import BattleRoyale.ChaseMoves
import BattleRoyale.FairRounds
