import StpPlatform.LabelledRun
import StpPlatform.StreamDecoder
import StpPlatform.SysVShm
import StpPlatform.StpIdxMgr
import StpPlatform.StpCryptoDetail
import StpPlatform.StpCryptoNegotiate
import StpPlatform.NegotiateInvariant
import StpPlatform.NegotiateContracts
import StpPlatform.RestartRecovery
import StpPlatform.Rpc
import StpPlatform.StpServer
import StpPlatform.SlotExclusivity
import StpPlatform.ByteOrder
import StpPlatform.Connection
import StpPlatform.Framing
import StpPlatform.StpClient
import StpPlatform.KeyAgreement
import StpPlatform.NegotiateGuarantees
import StpPlatform.KeyFreshness
import StpPlatform.ResourceTrace
import StpPlatform.StpDao
import StpPlatform.EventClient
import StpPlatform.ByteMemory
import StpPlatform.ClientKeyStore
import StpPlatform.ProtoWire
import StpPlatform.RpcWire
import StpPlatform.MsgDispatcher
import StpPlatform.ServerReply
import StpPlatform.Base64
import StpPlatform.StpCrypto
import StpPlatform.IdxRange
import StpPlatform.FrameHeader
import StpPlatform.SendFrames
import StpPlatform.DecryptSafety
import StpPlatform.EncryptLengths
import StpPlatform.CryptoApi
import StpPlatform.ShmAttach
import StpPlatform.Base64Laws
import StpPlatform.IdxLedger
import StpPlatform.ParseDispatch
import StpPlatform.SharedCell
import StpPlatform.AtomicCounter
import StpPlatform.Thread
import StpPlatform.ThreadLifecycle
import StpPlatform.EventOwnership
import StpPlatform.SubstitutionNetwork
import StpPlatform.ByteField
import StpPlatform.Rijndael
import StpPlatform.AesTables
import StpPlatform.AesCore
import StpPlatform.AesRounds
import StpPlatform.AesSchedule
import StpPlatform.AesCorrect
import StpPlatform.CryptoAes
import StpPlatform.CipherSplicing
import StpPlatform.Simulation
import StpPlatform.Session
import StpPlatform.SessionRefinement
import StpPlatform.Serving
import StpPlatform.Composition
import StpPlatform.Survival
import StpPlatform.Fleet
import StpPlatform.BlockHash
import StpPlatform.SineTable
import StpPlatform.Md5
import StpPlatform.Md5Digest
import StpPlatform.Md5Rounds
import StpPlatform.Md5Stream
import StpPlatform.Md5Correct
import StpPlatform.Backlog
import StpPlatform.DispatchLaw
import StpPlatform.ResourceLedger
import StpPlatform.EventServer
