import TradingHours.Main
import TradingHours.Proofs.Schedule.TokenMeaning
import TradingHours.Proofs.Schedule.Latch
import TradingHours.Proofs.Schedule.StayingOpen
import TradingHours.Proofs.Effect
import TradingHours.Proofs.Trail
import TradingHours.Proofs.Resolution.Threading
import TradingHours.Proofs.Output.MinuteStates
import TradingHours.Proofs.Table
import TradingHours.Proofs.Text.Lines
import TradingHours.Proofs.Text.Occurrence
import TradingHours.Proofs.StateFile.RoundTrip
import TradingHours.Proofs.Disk.Holds
import TradingHours.Proofs.World.Holds
import TradingHours.Proofs.StateFile.Load
import TradingHours.Proofs.StateFile.Save
import TradingHours.Proofs.Engine.Run
import TradingHours.Proofs.Market
import TradingHours.Proofs.Engine.Changes
import TradingHours.Proofs.Engine.Polling
import TradingHours.Proofs.Clock.Minute
import TradingHours.Proofs.Schedule.LatchRun
import TradingHours.Proofs.Schedule.DayVector
import TradingHours.Proofs.Schedule.Dilation
import TradingHours.Proofs.Schedule.Transitions
import TradingHours.Proofs.Disk.Write
import TradingHours.Proofs.Resolution.Live
import TradingHours.Proofs.Output.MinuteColumns
import TradingHours.Proofs.Output.Precomputed
import TradingHours.Proofs.StateFile.Reload
import TradingHours.Proofs.Output.SenderFields
import TradingHours.Proofs.Resolution.Quiet
import TradingHours.Proofs.Engine.Saving
import TradingHours.Proofs.Engine.Audit
import TradingHours.Proofs.Resolution.Dependence
import TradingHours.Proofs.StateFile.Untouched
import TradingHours.Proofs.Engine.Failing
import TradingHours.Proofs.Engine.Rerun
import TradingHours.Proofs.Engine.Isolation
import TradingHours.Proofs.Engine.Sharing
import TradingHours.Proofs.Schedule.Midnight
import TradingHours.Proofs.CommandLine.Ending
import TradingHours.Proofs.Resolution.Straying
import TradingHours.Proofs.Settings.Layers
import TradingHours.Proofs.Settings.Fields
import TradingHours.Proofs.Settings.Precedence
import TradingHours.Proofs.Yaml.Assembled
import TradingHours.Proofs.Yaml.Document
import TradingHours.Proofs.Settings.Loaded
import TradingHours.Proofs.Schedule.Extraction
import TradingHours.Proofs.Resolution.DecisionTable
import TradingHours.Proofs.Schedule.ShiftedToken
import TradingHours.Proofs.Source.FirstListing
import TradingHours.Proofs.Source.KeyForm
import TradingHours.Proofs.Disk.Reach
import TradingHours.Proofs.Output.GoldenTurns
import TradingHours.Proofs.Output.GoldenFiles
import TradingHours.Proofs.Schedule.SameMoment
import TradingHours.Proofs.Output.MinuteDecoding
import TradingHours.Proofs.Source.Candidates
import TradingHours.Proofs.Output.FileNames
import TradingHours.Proofs.Clock.Utc
import TradingHours.Proofs.Disk.Grown
import TradingHours.Proofs.Engine.MinuteTurns
