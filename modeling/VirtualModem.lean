import VirtualModem.Session
import VirtualModem.SharedCard
import VirtualModem.Info.PriId
import VirtualModem.Main
import VirtualModem.Proofs.Sim.Channels
import VirtualModem.Proofs.Sim.PinAttempts
import VirtualModem.Proofs.SharedCard.Publisher
import VirtualModem.Proofs.SharedCard.Delivery
import VirtualModem.Proofs.Config.Handles
import VirtualModem.Proofs.Config.Addresses
import VirtualModem.Proofs.Registry.History
import VirtualModem.Proofs.Registry.Calls
import VirtualModem.Proofs.Registry.Host
import VirtualModem.Proofs.Sim.Listeners
import VirtualModem.Proofs.Report.Concealment
import VirtualModem.Proofs.Json.Integers
import VirtualModem.Proofs.Json.ReadBack
import VirtualModem.Proofs.Config.PlainKeys
import VirtualModem.Proofs.Config.Pruning
import VirtualModem.Proofs.Config.Records
import VirtualModem.Proofs.Config.MemberOrder
import VirtualModem.Proofs.Config.IntegerLeaves
import VirtualModem.Proofs.Platform.Reachable
import VirtualModem.Proofs.Report.ReadBack
import VirtualModem.Proofs.Sim.Refusals
import VirtualModem.Proofs.Sim.StoredPin
import VirtualModem.Proofs.Sim.CodeSecrecy
import VirtualModem.Proofs.Session.Snapshot
import VirtualModem.Proofs.Sim.PukAttempts
import VirtualModem.Proofs.Sim.Parts
import VirtualModem.Proofs.Platform.SettingUp
import VirtualModem.Proofs.CommandLine.OneRun
import VirtualModem.Proofs.Report.Rendering
import VirtualModem.Proofs.Config.LeafText
import VirtualModem.Proofs.Sim.StateNames
import VirtualModem.Proofs.Info.Readings
import VirtualModem.Proofs.Gnss.History
import VirtualModem.Proofs.Json.ValueTypes
import VirtualModem.Proofs.SharedCard.Queue
