import RemotePlay.AI.Congestion
import RemotePlay.AI.Cooldown
import RemotePlay.AI.InputPredictor
import RemotePlay.AI.IntelligentRouter
import RemotePlay.AI.LatencyPredictor
import RemotePlay.AI.StreamEngine
import RemotePlay.Client.ActiveInput
import RemotePlay.Client.AudioPlayback
import RemotePlay.Client.ClientLoop
import RemotePlay.Client.ControlLoop
import RemotePlay.Client.CursorPrediction
import RemotePlay.Client.DecoderHW
import RemotePlay.Client.DecoderStates
import RemotePlay.Client.Delivered
import RemotePlay.Client.DeliveryOrder
import RemotePlay.Client.Fec
import RemotePlay.Client.FecSlots
import RemotePlay.Client.FrameBuffers
import RemotePlay.Client.FrameOwnership
import RemotePlay.Client.GamepadPolling
import RemotePlay.Client.GroupRecovery
import RemotePlay.Client.HandshakeLoop
import RemotePlay.Client.InnerPacket
import RemotePlay.Client.InputCapture
import RemotePlay.Client.JitterRange
import RemotePlay.Client.JitterSlots
import RemotePlay.Client.KeyframeRecovery
import RemotePlay.Client.LossRepair
import RemotePlay.Client.Malformed
import RemotePlay.Client.MouseCapture
import RemotePlay.Client.NackOrder
import RemotePlay.Client.NetThread
import RemotePlay.Client.PathSwitch
import RemotePlay.Client.Reassembly
import RemotePlay.Client.Rebuild
import RemotePlay.Client.Receiver
import RemotePlay.Client.ReceiverFrames
import RemotePlay.Client.Recovery
import RemotePlay.Client.RendererD3D11
import RemotePlay.Client.RendererLifetime
import RemotePlay.Client.SessionIntegrity
import RemotePlay.Client.SessionReplay
import RemotePlay.Client.SlotCollision
import RemotePlay.Client.StallReport
import RemotePlay.Client.StreamDelivery
import RemotePlay.Common.ClockSync
import RemotePlay.Common.Config
import RemotePlay.Common.LockFreeQueue
import RemotePlay.Common.LogQueue
import RemotePlay.Common.Logger
import RemotePlay.Common.Profiler
import RemotePlay.Common.PublicEndpoint
import RemotePlay.Common.SafeQueue
import RemotePlay.Common.Sanitize
import RemotePlay.Common.Stun
import RemotePlay.Common.SupportPackage
import RemotePlay.Dashboard.SystemService
import RemotePlay.Host.Adaptation
import RemotePlay.Host.AudioEncoder
import RemotePlay.Host.Candidates
import RemotePlay.Host.DeviceRefs
import RemotePlay.Host.Dispatch
import RemotePlay.Host.EncodeBuffers
import RemotePlay.Host.Encoder
import RemotePlay.Host.EncoderManager
import RemotePlay.Host.Fragment
import RemotePlay.Host.FrameIds
import RemotePlay.Host.HostContext
import RemotePlay.Host.InputInjector
import RemotePlay.Host.KeyframeRequests
import RemotePlay.Host.ManagerMoves
import RemotePlay.Host.ManagerState
import RemotePlay.Host.Opening
import RemotePlay.Host.Packetizer
import RemotePlay.Host.Parity
import RemotePlay.Host.QualityTiers
import RemotePlay.Host.ReceiverThread
import RemotePlay.Host.Replay
import RemotePlay.Host.RetransmitCache
import RemotePlay.Host.Roaming
import RemotePlay.Host.SendQueue
import RemotePlay.Host.SessionLock
import RemotePlay.Host.StreamParameters
import RemotePlay.Host.Streaming
import RemotePlay.Host.Timeout
import RemotePlay.Host.UdpPool
import RemotePlay.Lib.CondVar
import RemotePlay.Lib.Grouping
import RemotePlay.Lib.Isolation
import RemotePlay.Lib.Loop
import RemotePlay.Lib.Owners
import RemotePlay.Lib.RefCount
import RemotePlay.Lib.Run
import RemotePlay.Lib.Samples
import RemotePlay.Lib.Tally
import RemotePlay.Lib.Tickets
import RemotePlay.Session.Admission
import RemotePlay.Session.ConnectionLimit
import RemotePlay.Session.DatagramLoop
import RemotePlay.Session.Datagrams
import RemotePlay.Session.Envelope
import RemotePlay.Session.ErrorReport
import RemotePlay.Session.Handshake
import RemotePlay.Session.HostStartup
import RemotePlay.Session.InitThreads
import RemotePlay.Session.KeyAgreement
import RemotePlay.Session.Leftovers
import RemotePlay.Session.Nonces
import RemotePlay.Session.SendOrder
import RemotePlay.Session.SessionManager
import RemotePlay.Session.SessionRestart
