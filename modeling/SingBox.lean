import SingBox.Xhttp.XmuxTeardown
import SingBox.Xhttp.XmuxLimits
import SingBox.Xhttp.XmuxRetire
import SingBox.Xhttp.Deadline
import SingBox.Xhttp.PacketLimits
import SingBox.Xhttp.EndOnce
import SingBox.Xhttp.BreakerConns
import SingBox.Xhttp.Reassembly
import SingBox.Xhttp.SessionId
import SingBox.Xhttp.UplinkChunks
import SingBox.Xhttp.Metadata
import SingBox.Awg.Cps
import SingBox.Awg.Prepared
import SingBox.Awg.Handshake
import SingBox.Awg.Replay
import SingBox.Awg.MagicSpec
import SingBox.Awg.QuicDecoy
import SingBox.Route.Documented
import SingBox.Route.PreMatch
import SingBox.Dns.Reload
import SingBox.Dns.Bindings
import SingBox.Dns.Barrier
import SingBox.Dns.CacheKeys
import SingBox.Dns.Lifetime
import SingBox.Dns.ClientSubnet
import SingBox.Dns.Framing
import SingBox.Dns.Multiplexer
import SingBox.Dns.PoolOwnership
import SingBox.Adapter.StartErrors
import SingBox.CacheFile.WriteBehind
import SingBox.Routing.Flow
import SingBox.Sniff.Quic
import SingBox.TlsFragment.Conn
import SingBox.Transport.GunConn
import SingBox.Transport.HttpConn
import SingBox.HttpClient.ManagedTransport
import SingBox.HttpClient.Http3Bodies
import SingBox.Hysteria2.RealmRuns
import SingBox.Hysteria2.Attempts
import SingBox.SsmApi.Users
import SingBox.FakeIp.Bijection
import SingBox.Group.UrlTest
