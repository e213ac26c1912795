import WolfSsh.NegotiateAgreement
import WolfSsh.Mpint
import WolfSsh.KexHash
import WolfSsh.KexHashAgreement
import WolfSsh.Lib.Runs
import WolfSsh.Window
import WolfSsh.WindowConservation
import WolfSsh.Packet
import WolfSsh.PacketRoundTrip
import WolfSsh.KexSession
import WolfSsh.Lockstep
import WolfSsh.StrictKex
import WolfSsh.KexOrder
import WolfSsh.ExtInfo
import WolfSsh.KexAnswer
import WolfSsh.ChannelIntegrity
import WolfSsh.UserAuth
import WolfSsh.UserAuthVerdict
import WolfSsh.UserAuthCap
import WolfSsh.UserAuthRounds
import WolfSsh.UserAuthSignature
import WolfSsh.OutputOrder
import WolfSsh.FwdRemote
import WolfSsh.FwdPairing
import WolfSsh.Lib.Calls
import WolfSsh.Lib.Paths
import WolfSsh.RealPath
import WolfSsh.SftpSession
import WolfSsh.SftpServer
import WolfSsh.SftpConfine
import WolfSsh.Lib.Ledger
import WolfSsh.SftpHandles
import WolfSsh.ScpMessage
import WolfSsh.ScpRecv
import WolfSsh.ScpRecvPath
import WolfSsh.ScpRecvDirs
import WolfSsh.ScpConfine
import WolfSsh.ScpStrict
import WolfSsh.ScpSegmentation
import WolfSsh.ChannelOpen
import WolfSsh.ChannelOpenKept
import WolfSsh.SessionRequest
import WolfSsh.SessionGrant
import WolfSsh.SftpRead
import WolfSsh.SftpReplies
import WolfSsh.NegotiateLists
import WolfSsh.KeyDerivation
import WolfSsh.DerivedKeys
import WolfSsh.Highwater
import WolfSsh.SendAccounting
import WolfSsh.AgentIdentity
import WolfSsh.AgentStore
import WolfSsh.OsshCert
import WolfSsh.OsshCertTiles
import WolfSsh.OsshCertAuth
import WolfSsh.SftpNames
import WolfSsh.SftpListing
import WolfSsh.SftpChannel
import WolfSsh.SftpServed
import WolfSsh.SftpListed
import WolfSsh.SftpClient
import WolfSsh.SftpComplete
import WolfSsh.SftpDirectory
import WolfSsh.SshdConfig
import WolfSsh.SshdConfigLoad
import WolfSsh.Lib.Words
import WolfSsh.SshdMatchLine
import WolfSsh.SshdExpansion
import WolfSsh.SshdMatch
import WolfSsh.Lib.Word32
import WolfSsh.WireWords
import WolfSsh.WireGetters
import WolfSsh.Lib.BitStrings
import WolfSsh.OsshSourceAddr
import WolfSsh.AuthorizedKeys
import WolfSsh.OsshCertTrusted
import WolfSsh.CertChain
import WolfSsh.Lib.CStrings
import WolfSsh.RealPathBuffer
import WolfSsh.CleanPath
import WolfSsh.CleanPathLoops
import WolfSsh.CleanPathNormal
import WolfSsh.WordBuffer
import WolfSsh.WordBufferKept
import WolfSsh.VersionExchange
import WolfSsh.VersionStream
import WolfSsh.VersionAnnounced
import WolfSsh.Lib.Cells
import WolfSsh.SftpWrite
import WolfSsh.Lib.Templates
import WolfSsh.SshdAuthKeys
import WolfSsh.SshdAuthKeysPaths
import WolfSsh.SftpInTurn
import WolfSsh.SftpAnswered
