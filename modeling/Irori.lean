import Irori.Types
import Irori.Rules.Document
import Irori.Rules.Expr
import Irori.Rules.Eval
import Irori.Rules.Validate
import Irori.Flows.Document
import Irori.Flows.Trace
import Irori.Flows.Run
import Irori.Flows.Engine
import Irori.Flows.System
import Irori.Flows.Validate
import Irori.Sample
import Irori.Proofs.Tables
import Irori.Proofs.Conditions
import Irori.Proofs.Expressions
import Irori.Proofs.Checks
import Irori.Proofs.Reads
import Irori.Proofs.Moves
import Irori.Proofs.Paths
import Irori.Proofs.Steps
import Irori.Proofs.Turns
import Irori.Proofs.Lifting
import Irori.Proofs.Tidy
import Irori.Proofs.Ops
import Irori.Proofs.Records
import Irori.Proofs.Replacing
import Irori.Proofs.Firings
import Irori.Proofs.Prompting
import Irori.Proofs.Calm
import Irori.Proofs.Holding
import Irori.Proofs.JsonText
import Irori.Proofs.Versions
import Irori.Proofs.Waking
import Irori.Home.Sample
import Irori.Proofs.Integrity
import Irori.Proofs.Keys
import Irori.Proofs.Refusals
import Irori.Proofs.Isolation
import Irori.Proofs.Pending
import Irori.Proofs.Countdowns
import Irori.Proofs.Schedules
import Irori.Proofs.Times
import Irori.Proofs.Forgetting
import Irori.Proofs.Naming
import Irori.Lib.Timeline
import Irori.Lib.Stream
import Irori.Proofs.Sealing
import Irori.Proofs.Revoking
import Irori.Proofs.SigningOut
import Irori.Proofs.Locking
import Irori.Proofs.Writing
import Irori.Proofs.Promises
import Irori.Proofs.Reaching
import Irori.Proofs.Closing
import Irori.Proofs.Rows
import Irori.Proofs.Converting
import Irori.Config.Operations
import Irori.Proofs.Refusing
import Irori.Automations.Store
import Irori.Automations.Service
import Irori.Proofs.FlowFiles
import Irori.Proofs.Losing
import Irori.Automations.Shelf
import Irori.Proofs.OneThing
import Irori.Lib.Lines
import Irori.Process.Drive
import Irori.Proofs.WholeLines
import Irori.Process.Serve
import Irori.Proofs.Serving
import Irori.Process.Ring
import Irori.Proofs.Deadlock
import Irori.Home.Calls
import Irori.Proofs.Recalling
import Irori.Proofs.Confirming
import Irori.Proofs.TakingTurns
import Irori.Home.Seen
import Irori.Assistant.Chats
import Irori.Proofs.Trimming
import Irori.Proofs.Housing
import Irori.Proofs.Confining
import Irori.SwitchBot.Model
import Irori.SwitchBot.Entities
import Irori.SwitchBot.Advert
import Irori.SwitchBot.World
import Irori.Proofs.Advertising
import Irori.Proofs.Forging
import Irori.Esphome.Devices
import Irori.Proofs.Introducing
import Irori.Proofs.FreeIds
import Irori.Proofs.Uninstalling
import Irori.Home.Installs
import Irori.Proofs.Lining
import Irori.Server.Attempts
import Irori.Proofs.Waiting
import Irori.Server.Adding
import Irori.Proofs.SigningIn
import Irori.Backup.Unpack
import Irori.Proofs.Unpacking
import Irori.Backup.Retention
import Irori.Backup.Schedule
import Irori.Proofs.Retaining
import Irori.Proofs.Nightly
import Irori.Process.Supervise
import Irori.Proofs.Supervising
import Irori.Config.Toml
import Irori.Proofs.Splicing
import Irori.Proofs.Inside
import Irori.Proofs.Drawing
import Irori.Proofs.Ordering
import Irori.Proofs.Typing
import Irori.Proofs.Durations
import Irori.Proofs.Hours
import Irori.Rules.Cron
import Irori.Proofs.ComingRound
import Irori.Proofs.Working
import Irori.Cloud.Budget
import Irori.Proofs.Spending
import Irori.Cast.Proto
import Irori.Proofs.Framing
import Irori.Automations.Runs
import Irori.Proofs.Logging
import Irori.Cast.Session
import Irori.Zigbee.Index
import Irori.Zigbee.Scales
import Irori.Zigbee.Config
import Irori.Proofs.Casting
import Irori.Proofs.Indexing
import Irori.Proofs.Echoing
import Irori.Proofs.Matching
import Irori.Proofs.Carrying
import Irori.Proofs.Mistyping
import Irori.Proofs.Circling
import Irori.Proofs.Opening
import Irori.Proofs.Redacting
