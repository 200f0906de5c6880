import ClawMux.Lib.Transition
import ClawMux.Lib.FifoLock
import ClawMux.Lib.LockSlot
import ClawMux.Lib.Path
import ClawMux.Lib.Scan
import ClawMux.Lib.VersionedCache
import ClawMux.Services.MappingCoherence
import ClawMux.Services.WsLocking
import ClawMux.Services.WsRouting
import ClawMux.Services.WsCleanup
import ClawMux.Services.WsShutdown
import ClawMux.Router.ChannelRuns
import ClawMux.Router.Proactive
import ClawMux.Router.StreamUpdater
import ClawMux.Router.Reply
import ClawMux.Router.Cluster
import ClawMux.Services.RequestInvariant
import ClawMux.Services.Correlation
import ClawMux.Services.Delivery
import ClawMux.Services.Finals
import ClawMux.Utils.AggregatorTasks
import ClawMux.Services.PathMapping
import ClawMux.Services.WorkspaceDirs
import ClawMux.Services.FileNames
import ClawMux.Services.MediaPaths
import ClawMux.Services.AgentTexts
import ClawMux.Services.MixedFrames
import ClawMux.Services.MappingRoundTrip
import ClawMux.Services.MappingReload
import ClawMux.Services.MappingVersions
import ClawMux.Services.DifyClient
import ClawMux.Router.Answered
import ClawMux.Router.AttachmentIsolation
import ClawMux.Router.ReplyFiles
import ClawMux.Router.FileAnswers
import ClawMux.Router.Provisioning
import ClawMux.Services.MappingLookups
import ClawMux.Scripts.EncryptExistingCredentials
import ClawMux.Scripts.OnboardUser
import ClawMux.Scripts.SyncWorkspaceTemplates
import ClawMux.Services.DifyStream
import ClawMux.Services.PollDelivery
import ClawMux.Services.SlackEvents
import ClawMux.Services.RememberChannel
import ClawMux.Services.ConcurrentDownloads
import ClawMux.Router.Throttle
import ClawMux.Services.UuidNames
import ClawMux.Api.BitrixForms
import ClawMux.Services.SecretLogs
import ClawMux.Services.WsGuarded
import ClawMux.Services.FailedConnects
import ClawMux.Api.Teams
import ClawMux.Services.SignedConnects
import ClawMux.Services.ConnectBackoff
import ClawMux.Services.Mattermost
import ClawMux.Services.MappingDirectory
import ClawMux.Api.ControlReplies
import ClawMux.Router.EventPool
import ClawMux.Scripts.SyncAllWorkspaces
