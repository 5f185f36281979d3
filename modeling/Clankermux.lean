import Clankermux.NativeVariants
import Clankermux.OpenAIAgreement
import Clankermux.OverloadSingleFlight
import Clankermux.OverloadFamily
import Clankermux.AsyncDbWriter
import Clankermux.PayloadUnwedged
import Clankermux.PayloadRetention
import Clankermux.RotationKept
import Clankermux.ConversationKept
import Clankermux.WeeklySlot
import Clankermux.RequestRecorded
import Clankermux.RoutingAttempt
import Clankermux.ModelPermissionsSeparated
import Clankermux.AliasDiscipline
import Clankermux.DevinFaithful
import Clankermux.RejectionCharged
import Clankermux.RoutingDispatched
import Clankermux.SessionProjectHistory
import Clankermux.FefoRotation
import Clankermux.PeekRanked
import Clankermux.OpenAIPackets
import Clankermux.CodexConsent
import Clankermux.ProjectExtraction
import Clankermux.AutoRefreshCycles
import Clankermux.CacheBodies
import Clankermux.NativeMemory
import Clankermux.PayloadWriteExact
import Clankermux.PayloadFrame
import Clankermux.SessionCacheBounds
import Clankermux.ResumePointExact
import Clankermux.ToolIdentities
import Clankermux.ChatConversation
import Clankermux.ReleasedParksClosed
import Clankermux.SessionFollowed
import Clankermux.UsageHeadersMerged
import Clankermux.CacheTtl
import Clankermux.UsageReadsSpaced
import Clankermux.IdleTrust
import Clankermux.ReadsSpaced
import Clankermux.ProbeReservations
import Clankermux.BurstHoldGentle
import Clankermux.CodexPackets
import Clankermux.BlocksNumbered
import Clankermux.LockLifted
import Clankermux.PromotionLatch
import Clankermux.IntervalsIsolated
import Clankermux.StreamAnalytics
import Clankermux.PayloadCleanup
import Clankermux.RunwayAgreement
import Clankermux.ProjectRules
import Clankermux.NonCodexHold
