import Zeitnot.Chess.Board
import Zeitnot.Chess.Ending
import Zeitnot.Chess.Fen
import Zeitnot.Chess.Game
import Zeitnot.Chess.Legal
import Zeitnot.Chess.Material
import Zeitnot.Chess.Move
import Zeitnot.Chess.Piece
import Zeitnot.Chess.Position
import Zeitnot.Chess.San
import Zeitnot.Chess.Square
import Zeitnot.Cli.Arguments
import Zeitnot.Cli.Converse
import Zeitnot.Cli.Simulate
import Zeitnot.Clock.Allocator
import Zeitnot.Clock.Constants
import Zeitnot.Clock.Horizon
import Zeitnot.Clock.Limits
import Zeitnot.Clock.NodeClock
import Zeitnot.Config.Calendar
import Zeitnot.Config.Json
import Zeitnot.Config.Load
import Zeitnot.Config.Value
import Zeitnot.Config.Yaml
import Zeitnot.Config.Yaml.Build
import Zeitnot.Config.Yaml.Cursor
import Zeitnot.Config.Yaml.Fault
import Zeitnot.Config.Yaml.Node
import Zeitnot.Config.Yaml.Scalar
import Zeitnot.Config.Yaml.Scanner
import Zeitnot.Config.Yaml.Schema
import Zeitnot.Config.Yaml.Token
import Zeitnot.Engine
import Zeitnot.Engine.Setup
import Zeitnot.Folder
import Zeitnot.Journal
import Zeitnot.JournalKeeper
import Zeitnot.Main
import Zeitnot.Number.Binary64
import Zeitnot.Number.Fault
import Zeitnot.Number.FixedText
import Zeitnot.Number.Rounding
import Zeitnot.Number.Scalar
import Zeitnot.Number.ShortestText
import Zeitnot.Options.Setting
import Zeitnot.Options.Table
import Zeitnot.Proofs.Chess.GameLength
import Zeitnot.Proofs.Chess.Reserve
import Zeitnot.Proofs.Chess.Squares
import Zeitnot.Proofs.Clock.Arming
import Zeitnot.Proofs.Engine.Answer
import Zeitnot.Proofs.Engine.Budget
import Zeitnot.Proofs.Engine.ChessRules
import Zeitnot.Proofs.Engine.Thinking
import Zeitnot.Proofs.Engine.TimeManagement
import Zeitnot.Proofs.Options.Table
import Zeitnot.Proofs.Search.Checkpoints
import Zeitnot.Proofs.Search.Deepening
import Zeitnot.Proofs.Search.Interruption
import Zeitnot.Proofs.Search.Root
import Zeitnot.Proofs.Search.Values
import Zeitnot.Proofs.Search.Window
import Zeitnot.Proofs.Session.Action
import Zeitnot.Proofs.Session.Bounds
import Zeitnot.Proofs.Stateful
import Zeitnot.Proofs.Text.Numeral
import Zeitnot.Search.AlphaBeta
import Zeitnot.Search.Deepening
import Zeitnot.Search.Rules
import Zeitnot.Session
import Zeitnot.Side
import Zeitnot.Simulation
import Zeitnot.Text.Blank
import Zeitnot.Text.DecimalDigit
import Zeitnot.Text.LowerCase
import Zeitnot.Text.Numeral
import Zeitnot.Text.Printable
import Zeitnot.Text.Quoted
import Zeitnot.Text.RealNumeral
import Zeitnot.Uci.Go
import Zeitnot.Uci.Log
import Zeitnot.Uci.Protocol
import Zeitnot.Proofs.Clock.Likeness
import Zeitnot.Proofs.Clock.Failure
import Zeitnot.Proofs.Session.Likeness
import Zeitnot.Proofs.Session.FailedStart
import Zeitnot.Proofs.Session.NewGame
import Zeitnot.Proofs.Clock.Adjustment
import Zeitnot.Proofs.Clock.Exact
import Zeitnot.Proofs.Session.Adjustment
import Zeitnot.Search.Walk
import Zeitnot.Proofs.Search.Walk
import Zeitnot.Proofs.Text.Words
import Zeitnot.Proofs.Chess.CastlingRights
import Zeitnot.Proofs.Uci.Commands
import Zeitnot.Proofs.Uci.Conversation
import Zeitnot.Proofs.Uci.CurrentGame
import Zeitnot.Proofs.Uci.BestMove
import Zeitnot.Proofs.Uci.BoundsLine
import Zeitnot.Proofs.Engine.Likeness
import Zeitnot.Proofs.Uci.Likeness
import Zeitnot.Proofs.Uci.Rejection
import Zeitnot.Proofs.Chess.Generation
import Zeitnot.Proofs.Options.History
import Zeitnot.Proofs.Simulation.Course
import Zeitnot.Proofs.Simulation.Spending
import Zeitnot.Proofs.Simulation.Solvency
import Zeitnot.Proofs.Config.Mappings
import Zeitnot.Proofs.Options.Loading
import Zeitnot.Proofs.Options.Transfer
import Zeitnot.Proofs.Uci.UnknownCommands
import Zeitnot.Proofs.Uci.OptionLines
import Zeitnot.Proofs.Number.Quotient
import Zeitnot.Proofs.Clock.Telling
import Zeitnot.Proofs.Session.Telling
import Zeitnot.Proofs.Engine.Telling
import Zeitnot.Proofs.Engine.Checkpoints
import Zeitnot.Proofs.Search.Levels
import Zeitnot.Proofs.Engine.Window
import Zeitnot.Proofs.Search.Mates
import Zeitnot.Proofs.Search.CarryingOn
import Zeitnot.Proofs.Engine.Mates
import Zeitnot.Proofs.Search.Stopping
import Zeitnot.Proofs.Engine.Stopping
import Zeitnot.Proofs.Uci.Segments
import Zeitnot.Proofs.Uci.GoLimits
import Zeitnot.Proofs.Clock.OwnClock
import Zeitnot.Proofs.Clock.UnitRate
import Zeitnot.Proofs.Session.UnitRate
import Zeitnot.Proofs.Options.Refusal
import Zeitnot.Proofs.Number.Positive
import Zeitnot.Proofs.Clock.Domains
import Zeitnot.Proofs.Clock.Division
import Zeitnot.Proofs.Clock.Horizon
import Zeitnot.Proofs.Chess.Distinct
import Zeitnot.Proofs.Chess.MoveOrder
import Zeitnot.Proofs.Search.RootMoves
import Zeitnot.Proofs.Engine.RootMoves
import Zeitnot.Proofs.Chess.Material
import Zeitnot.Proofs.Engine.Material
