import Blasthttp.Lib.Bits
import Blasthttp.Lib.CodeTrie
import Blasthttp.H2.Huffman
import Blasthttp.H2.HuffmanRoundTrip
import Blasthttp.H2.HpackDecode
import Blasthttp.H2.HpackRoundTrip
import Blasthttp.H2.HpackTable
import Blasthttp.Client.CallerCookies
import Blasthttp.H2.HpackHistory
import Blasthttp.H2.HpackUpdates
import Blasthttp.H2.HpackAppend
import Blasthttp.H2.HpackBloat
import Blasthttp.H2.Probe
import Blasthttp.Batch.SharedLimit
import Blasthttp.Batch.Progress
import Blasthttp.Client.CertSlot
import Blasthttp.Client.ProxyUrl
import Blasthttp.Client.RedirectRfc
import Blasthttp.Client.Body
import Blasthttp.Client.Socks5
import Blasthttp.Cookies.Registrable
import Blasthttp.Cookies.Frame
import Blasthttp.Client.Backoff
import Blasthttp.Client.Sanitize
import Blasthttp.Client.Send
import Blasthttp.Cookies.Deletion
import Blasthttp.Cookies.Address
import Blasthttp.Client.MergeCookies
import Blasthttp.Cookies.Creation
import Blasthttp.Cookies.Expiry
import Blasthttp.Cookies.HttpDate
import Blasthttp.Cookies.NoPanic
import Blasthttp.Client.ReadBody
import Blasthttp.Client.ProxyText
import Blasthttp.Client.Socks5Dest
import Blasthttp.Client.TlsIdentity
import Blasthttp.NoProxy
import Blasthttp.Client.Decompress
import Blasthttp.Client.DeflateFlavor
import Blasthttp.Multipart
import Blasthttp.Client.TlsRetry
import Blasthttp.H2.HpackAccount
import Blasthttp.Headers
import Blasthttp.Mock.Batch
import Blasthttp.Client.Raw
import Blasthttp.H2.FrameTypes
import Blasthttp.H2.Conversation
import Blasthttp.H2.HpackAmplify
import Blasthttp.Batch.Iterator
import Blasthttp.Cookies.Jar
import Blasthttp.Client.Deadline
import Blasthttp.Mock.Iterator
import Blasthttp.Lib.Separated
import Blasthttp.PyResponse
