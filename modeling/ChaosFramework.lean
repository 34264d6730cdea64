import ChaosFramework.Batch.Custody
import ChaosFramework.Batch.SubmissionTable
import ChaosFramework.Batch.HandlerOwnership
import ChaosFramework.Batch.KillRequests
import ChaosFramework.Network.RetryBinding
import ChaosFramework.Monitor.SlotReferences
import ChaosFramework.DirectIO.PacketSafety
import ChaosFramework.DirectIO.MultiGet
import ChaosFramework.DirectIO.ClientConnection
import ChaosFramework.Event.EventDescriptor
import ChaosFramework.Flags.Levels
import ChaosFramework.Data.AttributeReads
import ChaosFramework.ControlUnit.UndoOrder
import ChaosFramework.ControlManager.Races
import ChaosFramework.ControlManager.Placement
import ChaosFramework.Dispatcher.Registrations
import ChaosFramework.Dispatcher.Answers
import ChaosFramework.Dispatcher.Locking
import ChaosFramework.Dispatcher.Races
import ChaosFramework.Driver.SharedInstances
import ChaosFramework.Driver.DriverAccessor
import ChaosFramework.Message.ServedRequests
import ChaosFramework.AsyncCentral.TimerHandler
import ChaosFramework.Rpc.ZMQServer
import ChaosFramework.Rpc.ZMQClient
import ChaosFramework.Rpc.SocketPool
import ChaosFramework.ExternalUnit.ConnectionMetadata
import ChaosFramework.ExternalUnit.EndpointLifetime
import ChaosFramework.Agent.AgentRegister
import ChaosFramework.Batch.Statistics
import ChaosFramework.ObjectStorage.PushBatches
import ChaosFramework.Monitor.ScanThread
import ChaosFramework.ObjectStorage.QueryIndexCursor
import ChaosFramework.Flags.CatalogSDWrapper
import ChaosFramework.Agent.RestartNode
import ChaosFramework.Batch.Executor
import ChaosFramework.ControlUnit.StateVariables
import ChaosFramework.Data.ChangedBitmap
import ChaosFramework.DataManager.StorageBursts
import ChaosFramework.DirectIO.EndpointSlots
import ChaosFramework.Flags.RawLevels
import ChaosFramework.Network.FeederConsistency
import ChaosFramework.Utility.ProcessingPriorityQueue
import ChaosFramework.Utility.ResourcePool
