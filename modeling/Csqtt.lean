import Csqtt.TransitionRun
import Csqtt.Rebind
import Csqtt.Idle
import Csqtt.IdleParking
import Csqtt.Announce
import Csqtt.Generation
import Csqtt.Containers
import Csqtt.SerialNumber
import Csqtt.ByteOrder
import Csqtt.PacketBuf
import Csqtt.FlowFrame
import Csqtt.FlowReorder
import Csqtt.FlowSequence
import Csqtt.RingWindow
import Csqtt.ReplayWindow
import Csqtt.ReplayOnce
import Csqtt.ReplayExact
import Csqtt.StunCodec
import Csqtt.StunBuilder
import Csqtt.TurnInner
import Csqtt.TurnCore
import Csqtt.TurnInvariant
import Csqtt.TurnMaintenance
import Csqtt.TurnSigned
import Csqtt.TurnTimer
import Csqtt.TurnDriver
import Csqtt.Obfs
import Csqtt.ObfsNonce
import Csqtt.PacketQueue
import Csqtt.EngineProcess
import Csqtt.EngineStop
import Csqtt.EnginePaths
import Csqtt.EngineTail
import Csqtt.ThreadPool
import Csqtt.DataPath
import Csqtt.DataPathRecycle
import Csqtt.DataPathPause
import Csqtt.DataPathHeal
import Csqtt.DataPathEvidence
import Csqtt.StripedScheduler
import Csqtt.ChannelData
import Csqtt.TurnIngress
import Csqtt.UplinkRoom
import Csqtt.ObfsUnwrap
import Csqtt.StreamFraming
import Csqtt.TurnStream
import Csqtt.TurnExhaustion
import Csqtt.TurnShutdown
import Csqtt.Blocks
import Csqtt.FastPath
import Csqtt.Dispatch
import Csqtt.SessionTeardown
import Csqtt.Text
import Csqtt.Credentials
import Csqtt.CredentialPool
import Csqtt.CredentialFetch
import Csqtt.Demux
import Csqtt.UplinkBridge
import Csqtt.UplinkOrder
import Csqtt.CredentialShare
import Csqtt.DnsResolver
import Csqtt.UdpAssociate
import Csqtt.AutoCalls
import Csqtt.AutoCallsRun
import Csqtt.AutoCallsKept
import Csqtt.TurnRejected
import Csqtt.TurnCleanup
import Csqtt.TurnListening
import Csqtt.TurnSettling
import Csqtt.FlowEmission
import Csqtt.ReplayReference
import Csqtt.StunRoundTrip
import Csqtt.FlowGap
import Csqtt.TurnReceive
import Csqtt.TurnWake
import Csqtt.TurnSuspend
import Csqtt.IdleFlap
import Csqtt.TurnMismatch
import Csqtt.TurnMirror
import Csqtt.SelectiveFec
import Csqtt.FecBudget
import Csqtt.Repair
import Csqtt.CredentialLeases
import Csqtt.RoundRobin
import Csqtt.WorkerTable
import Csqtt.ConfigFlight
import Csqtt.QueueEpoch
import Csqtt.JoinedEpoch
import Csqtt.TurnRequestSize
import Csqtt.FastPathStripes
import Csqtt.FirstFew
import Csqtt.QuicSpare
import Csqtt.PacketStorage
import Csqtt.PacketPool
import Csqtt.SocksHandshake
import Csqtt.SocksDatagram
import Csqtt.TextPieces
import Csqtt.GoText
import Csqtt.VkHash
import Csqtt.VkHashAgree
import Csqtt.VkSeeds
import Csqtt.CsqttLink
import Csqtt.DnsSingleFlight
import Csqtt.DataPathJudge
import Csqtt.ShutdownCoordinator
import Csqtt.StopSignal
import Csqtt.StopReaches
import Csqtt.IdleWindow
import Csqtt.FlowQuiet
import Csqtt.Registration
import Csqtt.Checked
import Csqtt.ObfsMemory
import Csqtt.SliderSeams
import Csqtt.DnsResponse
import Csqtt.UdpBatch
import Csqtt.TurnStreamWriter
import Csqtt.WorkerRecovery
import Csqtt.SharedLedger
import Csqtt.Logging
import Csqtt.LoggingKept
import Csqtt.LoggingOutput
import Csqtt.LoggingFlush
import Csqtt.LoggingProgress
import Csqtt.LoggingLine
