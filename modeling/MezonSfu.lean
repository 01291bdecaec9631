import MezonSfu.AfXdpFrame
import MezonSfu.BandwidthCanonical
import MezonSfu.ConnectionsCoherent
import MezonSfu.DispatchOwner
import MezonSfu.EgressFresh
import MezonSfu.EpochReclaimer
import MezonSfu.EstimatorBounds
import MezonSfu.FeedbackOnce
import MezonSfu.KeyframeRequest
import MezonSfu.MembershipQueue
import MezonSfu.MemoryPoolSafe
import MezonSfu.NackParser
import MezonSfu.OfferInstalls
import MezonSfu.OfferRevisions
import MezonSfu.PacedLedger
import MezonSfu.PacedTimes
import MezonSfu.PacerPolling
import MezonSfu.ProbeAccounts
import MezonSfu.PublisherRemb
import MezonSfu.ReferenceTime
import MezonSfu.RembSeqlock
import MezonSfu.RenegotiationRefs
import MezonSfu.RenegotiationWake
import MezonSfu.RestartQueues
import MezonSfu.RoomAlone
import MezonSfu.RoomAnswers
import MezonSfu.RoomMessage
import MezonSfu.Router
import MezonSfu.RoutingPublished
import MezonSfu.RtcpRemb
import MezonSfu.RtxBudget
import MezonSfu.SchedulerLoss
import MezonSfu.SeqCounters
import MezonSfu.SessionRefines
import MezonSfu.SpscRing
import MezonSfu.StunCovered
import MezonSfu.StunRoutes
import MezonSfu.TokenIdentity
import MezonSfu.TwccBuilder
import MezonSfu.TwccStale
import MezonSfu.WsReassembly
