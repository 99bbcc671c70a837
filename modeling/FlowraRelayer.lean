import FlowraRelayer.Foundation.Run
import FlowraRelayer.Foundation.Base58
import FlowraRelayer.Foundation.Chunks
import FlowraRelayer.Solana.Transaction
import FlowraRelayer.Protos.Packet
import FlowraRelayer.Core.Ofac
import FlowraRelayer.Relayer.EventLoop
import FlowraRelayer.Relayer.Offers
import FlowraRelayer.Relayer.PacketStream
import FlowraRelayer.Relayer.StreamExactness
import FlowraRelayer.Relayer.HealthManager
import FlowraRelayer.Rpc.LoadBalancer
import FlowraRelayer.Relayer.SlotPipeline
import FlowraRelayer.TransactionRelayer.Forwarder
import FlowraRelayer.TransactionRelayer.DelayQueue
import FlowraRelayer.TransactionRelayer.BlockEngineWiring
import FlowraRelayer.BlockEngine.Interest
import FlowraRelayer.BlockEngine.InterestSpec
import FlowraRelayer.TransactionRelayer.LookupTables
import FlowraRelayer.TransactionRelayer.OfacPolicy
import FlowraRelayer.Foundation.Checks
import FlowraRelayer.Foundation.Log
import FlowraRelayer.Foundation.Split
import FlowraRelayer.Relayer.AuthInterceptor
import FlowraRelayer.Relayer.AuthChallenges
import FlowraRelayer.Relayer.AuthService
import FlowraRelayer.Relayer.AuthSystem
import FlowraRelayer.Relayer.AuthRecord
import FlowraRelayer.Relayer.AuthSoundness
import FlowraRelayer.Relayer.AuthSingleUse
import FlowraRelayer.Relayer.AuthLifetimes
import FlowraRelayer.Relayer.ChallengeStore
import FlowraRelayer.Relayer.ChallengeOwner
import FlowraRelayer.Relayer.Subscriptions
import FlowraRelayer.Relayer.ScheduleCache
import FlowraRelayer.BlockEngine.AuthClient
import FlowraRelayer.BlockEngine.Handler
import FlowraRelayer.Relayer.HealthGate
import FlowraRelayer.Core.StakedNodes
import FlowraRelayer.Rpc.SlotFanIn
import FlowraRelayer.Relayer.ScheduleMap
import FlowraRelayer.Relayer.AuthBinding
import FlowraRelayer.Relayer.ConnectionCounters
import FlowraRelayer.Relayer.AuthIssuance
import FlowraRelayer.Foundation.Tally
import FlowraRelayer.Relayer.ChallengeBound
import FlowraRelayer.TransactionRelayer.BlockEngineStream
import FlowraRelayer.Solana.Wire
import FlowraRelayer.Relayer.Handshake
import FlowraRelayer.Core.FetchStage
import FlowraRelayer.Relayer.HeartbeatCounts
import FlowraRelayer.Relayer.TpuConfigs
import FlowraRelayer.TransactionRelayer.Startup
import FlowraRelayer.Foundation.Simulation
import FlowraRelayer.Relayer.MessageOrigin
import FlowraRelayer.TransactionRelayer.HeadStart
import FlowraRelayer.Foundation.Mailbox
import FlowraRelayer.Relayer.SubscriberChannels
import FlowraRelayer.TransactionRelayer.Pipeline
import FlowraRelayer.Foundation.Scan
import FlowraRelayer.Rpc.ServerChoice
import FlowraRelayer.TransactionRelayer.Admission
import FlowraRelayer.Relayer.FeedWatch
import FlowraRelayer.Relayer.Login
import FlowraRelayer.TransactionRelayer.LinkWatch
import FlowraRelayer.Web.Endpoints
import FlowraRelayer.Relayer.ChallengeLifetime
import FlowraRelayer.Foundation.Polling
import FlowraRelayer.TransactionRelayer.Refresher
import FlowraRelayer.Relayer.ScheduleRefresh
import FlowraRelayer.Foundation.Rank
import FlowraRelayer.Relayer.Shutdown
import FlowraRelayer.Core.StakeRefresh
import FlowraRelayer.Core.Tpu
import FlowraRelayer.Relayer.LeaderStream
