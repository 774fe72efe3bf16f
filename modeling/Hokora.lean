import Hokora.ActiveSessions
import Hokora.BannedContent
import Hokora.BatchedEvents
import Hokora.ChallengeUse
import Hokora.ChannelLinks
import Hokora.ClientPackets
import Hokora.ClientSealedKeys
import Hokora.CommittedEvents
import Hokora.CursorSafety
import Hokora.DeferredOrder
import Hokora.DeletionFinality
import Hokora.EntryIndependence
import Hokora.EpochHandshakeChannel
import Hokora.EpochMonotonicity
import Hokora.EpochNonces
import Hokora.EpochNumbers
import Hokora.EpochRecovery
import Hokora.EpochTransition
import Hokora.FederationTrigger
import Hokora.FrameDemux
import Hokora.HistoryOnWire
import Hokora.HistoryPermission
import Hokora.InitiatorAuthentication
import Hokora.InviteCodes
import Hokora.InviteLimits
import Hokora.InviteUses
import Hokora.KeyPinning
import Hokora.KeyReload
import Hokora.KeyRetention
import Hokora.LikeSearch
import Hokora.LiveCapability
import Hokora.LxmfInbound
import Hokora.MemberKeys
import Hokora.MessageIdentity
import Hokora.MirrorConnection
import Hokora.MirrorCursor
import Hokora.MirrorRestart
import Hokora.PermissionFormula
import Hokora.PullAgreement
import Hokora.RateBounds
import Hokora.ReadsAfterBan
import Hokora.ReceivePaths
import Hokora.ReconnectLoop
import Hokora.RelayedMessages
import Hokora.ResumeDelivery
import Hokora.RotationAnnounces
import Hokora.SealedPurge
import Hokora.SearchIndex
import Hokora.SessionPrivacy
import Hokora.ThreadReplies
import Hokora.UploadedMedia
import Hokora.VerifiedMarks
import Hokora.ZombieBuffer
