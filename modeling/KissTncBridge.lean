import KissTncBridge.Bridge.Downlink
import KissTncBridge.Bridge.Links
import KissTncBridge.Bridge.Main
import KissTncBridge.Config.WriteAtomic
import KissTncBridge.Control.Commands
import KissTncBridge.Control.Events
import KissTncBridge.Control.Forward
import KissTncBridge.Control.Protocol
import KissTncBridge.Control.Server
import KissTncBridge.Control.Times
import KissTncBridge.Ctl.Changes
import KissTncBridge.Ctl.Client
import KissTncBridge.Ctl.Session
import KissTncBridge.Lib.Broadcast
import KissTncBridge.Lib.Chunks
import KissTncBridge.Lib.Codec
import KissTncBridge.Lib.Delimited
import KissTncBridge.Lib.Files
import KissTncBridge.Lib.Gregorian
import KissTncBridge.Lib.Indices
import KissTncBridge.Lib.Labelled
import KissTncBridge.Lib.Queues
import KissTncBridge.Lib.Registry
import KissTncBridge.Pairing
import KissTncBridge.Port.FakeRadio
import KissTncBridge.Port.TncInit
import KissTncBridge.Proofs.ActivityEvents
import KissTncBridge.Proofs.AdapterFollow
import KissTncBridge.Proofs.Announced
import KissTncBridge.Proofs.AnnouncerRefines
import KissTncBridge.Proofs.AppConvergence
import KissTncBridge.Proofs.AppStreams
import KissTncBridge.Proofs.Atomicity
import KissTncBridge.Proofs.Ax25Frames
import KissTncBridge.Proofs.BleAdverts
import KissTncBridge.Proofs.BluetoothJobs
import KissTncBridge.Proofs.Calls
import KissTncBridge.Proofs.CheckedPuts
import KissTncBridge.Proofs.ClientLimits
import KissTncBridge.Proofs.Codec
import KissTncBridge.Proofs.Coherence
import KissTncBridge.Proofs.Collisions
import KissTncBridge.Proofs.ConcurrentEdits
import KissTncBridge.Proofs.Conflicts
import KissTncBridge.Proofs.DataPath
import KissTncBridge.Proofs.Durations
import KissTncBridge.Proofs.Edits
import KissTncBridge.Proofs.EffectiveObjects
import KissTncBridge.Proofs.EntryGroups
import KissTncBridge.Proofs.EventDelivery
import KissTncBridge.Proofs.ExitKiss
import KissTncBridge.Proofs.FrameAccounts
import KissTncBridge.Proofs.FrameLimit
import KissTncBridge.Proofs.FreshStatus
import KissTncBridge.Proofs.HandOver
import KissTncBridge.Proofs.LinkPolicy
import KissTncBridge.Proofs.LiveParams
import KissTncBridge.Proofs.ManagerSurvives
import KissTncBridge.Proofs.NameAdjustments
import KissTncBridge.Proofs.NameProgress
import KissTncBridge.Proofs.NonDisruptive
import KissTncBridge.Proofs.NoopPlan
import KissTncBridge.Proofs.OutGrows
import KissTncBridge.Proofs.OwnAnswers
import KissTncBridge.Proofs.PairReplies
import KissTncBridge.Proofs.Persistence
import KissTncBridge.Proofs.PlanKicks
import KissTncBridge.Proofs.RadioModes
import KissTncBridge.Proofs.RadioQueue
import KissTncBridge.Proofs.RadioStreams
import KissTncBridge.Proofs.RenamedReferences
import KissTncBridge.Proofs.Scanner
import KissTncBridge.Proofs.SessionFates
import KissTncBridge.Proofs.SessionOrder
import KissTncBridge.Proofs.SetAside
import KissTncBridge.Proofs.StaleLinks
import KissTncBridge.Proofs.StaticConfig
import KissTncBridge.Proofs.StoredObjects
import KissTncBridge.Proofs.TalkSteps
import KissTncBridge.Proofs.Times
import KissTncBridge.Proofs.TncConvergence
import KissTncBridge.Proofs.WholeFiles
import KissTncBridge.Proofs.WireFormat
import KissTncBridge.Supervisor.Bluetooth
import KissTncBridge.Supervisor.Check
import KissTncBridge.Tui.App
import KissTncBridge.Tui.Loop
import KissTncBridge.Tui.World
