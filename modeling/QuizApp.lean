import QuizApp.Machine.Run
import QuizApp.Machine.Measure
import QuizApp.Machine.Refine
import QuizApp.Lists.Choice
import QuizApp.Lists.History
import QuizApp.Lists.Layers
import QuizApp.Lists.Positions
import QuizApp.Js.Text
import QuizApp.Js.Numeric
import QuizApp.Js.Number
import QuizApp.Js.Grammar
import QuizApp.Platform
import QuizApp.Quiz.Screen
import QuizApp.Quiz.Data
import QuizApp.Quiz.Grader
import QuizApp.Quiz.Attainable
import QuizApp.Quiz.Submission
import QuizApp.Quiz.Tally
import QuizApp.Quiz.Scores
import QuizApp.Quiz.BackHandler
import QuizApp.Home.Form
import QuizApp.Home.Screen
import QuizApp.Home.Load
import QuizApp.Home.Validate
import QuizApp.Home.Save
import QuizApp.Home.Progress
import QuizApp.Home.Failure
import QuizApp.Home.RoundTrip
import QuizApp.Home.Page
import QuizApp.Home.Pending
import QuizApp.Home.Renaming
import QuizApp.App.System
import QuizApp.App.Projection
import QuizApp.App.Sessions
import QuizApp.App.Strings
import QuizApp.App.Failure
import QuizApp.App.Score
import QuizApp.App.Scores
import QuizApp.App.Navigation
import QuizApp.App.Profile
import QuizApp.App.RoundTrip
import QuizApp.App.Quiescence
import QuizApp.App.Design
import QuizApp.App.Refinement
import QuizApp.App.Crash
import QuizApp.App.Durable
import QuizApp.App.Pending
import QuizApp.App.Sound
import QuizApp.App.Provenance
import QuizApp.App.Screens
import QuizApp.App.Balance
import QuizApp.App.Alerts
import QuizApp.App.Back
import QuizApp.App.Renaming
import QuizApp.App.Liveness
