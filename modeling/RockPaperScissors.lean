import RockPaperScissors.TransitionSystem
import RockPaperScissors.WriteLog
import RockPaperScissors.Models
import RockPaperScissors.GameStore
import RockPaperScissors.GameViewController
import RockPaperScissors.Session
import RockPaperScissors.Provenance
import RockPaperScissors.Writes
import RockPaperScissors.GameStates
import RockPaperScissors.LostMove
import RockPaperScissors.Commitment
import RockPaperScissors.Outcome
import RockPaperScissors.Winners
import RockPaperScissors.Creation
import RockPaperScissors.WinnerOnce
import RockPaperScissors.RightResult
import RockPaperScissors.Results
import RockPaperScissors.GameRequests
import RockPaperScissors.Lobby
import RockPaperScissors.RequestTrace
import RockPaperScissors.LobbySteps
import RockPaperScissors.RequestOnce
import RockPaperScissors.OneGame
import RockPaperScissors.Starting
import RockPaperScissors.RequestedGame
import RockPaperScissors.Endings
import RockPaperScissors.GameIdentity
import RockPaperScissors.BeforeStart
import RockPaperScissors.Presenting
import RockPaperScissors.Walkover
import RockPaperScissors.EndsOnce
import RockPaperScissors.PendingRequests
import RockPaperScissors.UsersTable
import RockPaperScissors.WrittenDecision
import RockPaperScissors.Users
import RockPaperScissors.Devices
import RockPaperScissors.Profile
import RockPaperScissors.Accounts
import RockPaperScissors.Usernames
import RockPaperScissors.LocalGames
import RockPaperScissors.ForcedUnwraps
import RockPaperScissors.FieldValue
import RockPaperScissors.GameDocuments
import RockPaperScissors.ReadBack
import RockPaperScissors.Listeners
import RockPaperScissors.LoadingViews
import RockPaperScissors.Completions
import RockPaperScissors.Simulation
import RockPaperScissors.Progress
import RockPaperScissors.Match
import RockPaperScissors.OrderlyRuns
import RockPaperScissors.MatchRefinement
import RockPaperScissors.Finishing
import RockPaperScissors.WatchedRequests
import RockPaperScissors.ResultScreens
import RockPaperScissors.Filters
import RockPaperScissors.Queries
import RockPaperScissors.Boards
import RockPaperScissors.ScreenFlow
import RockPaperScissors.Consent
