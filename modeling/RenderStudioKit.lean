import RenderStudioKit.Lib.Runs
import RenderStudioKit.Lib.AssocList
import RenderStudioKit.Lib.Codec
import RenderStudioKit.Lib.SharedLog
import RenderStudioKit.Proofs.RemoteOrder
import RenderStudioKit.Proofs.PathState
import RenderStudioKit.Model.Api
import RenderStudioKit.Proofs.ValueCodec
import RenderStudioKit.Model.Server
import RenderStudioKit.Proofs.EventCodec
import RenderStudioKit.Proofs.Relay
import RenderStudioKit.Proofs.ServerNumbering
import RenderStudioKit.Proofs.PendingEdits
import RenderStudioKit.Proofs.WritePump
import RenderStudioKit.Model.Session
import RenderStudioKit.Proofs.LayerUpdates
import RenderStudioKit.Proofs.PathLog
import RenderStudioKit.Proofs.SessionLog
import RenderStudioKit.Proofs.Convergence
import RenderStudioKit.Proofs.Children
import RenderStudioKit.Proofs.ReloadEpochs
import RenderStudioKit.Proofs.SessionProtocol
import RenderStudioKit.Proofs.ServerChannels
import RenderStudioKit.Proofs.NonInterference
import RenderStudioKit.Proofs.Membership
import RenderStudioKit.Proofs.OutgoingDeltas
import RenderStudioKit.Proofs.DeltaLog
import RenderStudioKit.Proofs.ClientTexts
import RenderStudioKit.Proofs.LayerNews
import RenderStudioKit.Proofs.LayerQueue
import RenderStudioKit.Proofs.Participant
import RenderStudioKit.Proofs.CatchUp
import RenderStudioKit.Proofs.LateLayers
import RenderStudioKit.Proofs.UnlockedPaths
import RenderStudioKit.Proofs.LockedPath
import RenderStudioKit.Proofs.TransformLocks
import RenderStudioKit.Proofs.PathReplay
import RenderStudioKit.Proofs.ReloadedClient
import RenderStudioKit.Proofs.ReloadReplay
import RenderStudioKit.Proofs.RemoteRemoval
import RenderStudioKit.Proofs.Notices
import RenderStudioKit.Proofs.TimeSamples
import RenderStudioKit.Proofs.MatrixCodec
import RenderStudioKit.Proofs.ListOpCodec
import RenderStudioKit.Proofs.FailedFlush
import RenderStudioKit.Proofs.LiveCalls
import RenderStudioKit.Proofs.SessionAddress
import RenderStudioKit.Proofs.SyncthingUpdates
import RenderStudioKit.Proofs.WorkspaceLifetime
import RenderStudioKit.Proofs.ChildrenMerge
import RenderStudioKit.Proofs.SpecStore
import RenderStudioKit.Proofs.SyncthingRestarts
import RenderStudioKit.Proofs.WorkspacePaths
import RenderStudioKit.Proofs.StudioPaths
import RenderStudioKit.Proofs.CachedAssets
import RenderStudioKit.Proofs.ConnectionNotices
import RenderStudioKit.Proofs.ClientFutures
import RenderStudioKit.Proofs.SilentClients
import RenderStudioKit.Proofs.SocketLink
import RenderStudioKit.Proofs.ServerSessions
import RenderStudioKit.Proofs.BackgroundTasks
import RenderStudioKit.Proofs.PolledEvents
import RenderStudioKit.Proofs.PollBroadcasts
import RenderStudioKit.Proofs.NetworkedSession
import RenderStudioKit.Proofs.SampleQueries
import RenderStudioKit.Proofs.LayerMap
import RenderStudioKit.Proofs.NetworkedConvergence
import RenderStudioKit.Proofs.AssetReferences
import RenderStudioKit.Proofs.WorkspaceNotices
import RenderStudioKit.Proofs.WorkspaceCalls
