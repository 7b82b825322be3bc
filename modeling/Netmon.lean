import Netmon.RateHold
import Netmon.AddressIndex
import Netmon.DeviceStreams
import Netmon.SyslogReception
import Netmon.DevicePersistence
import Netmon.DeviceWriteBack
import Netmon.EventIds
import Netmon.EventRetention
import Netmon.TrafficReport
import Netmon.DashboardToken
import Netmon.ClientDescriptors
import Netmon.OfflineNotices
import Netmon.TrafficPoints
import Netmon.AgeOut
import Netmon.MessageAccounting
import Netmon.WifiDisconnect
import Netmon.DeviceTable
import Netmon.ConfigRoundTrip
import Netmon.DuplicateDelivery
import Netmon.RateAccounting
import Netmon.StoragePreprocessing
import Netmon.ClockArithmetic
import Netmon.MalformedCounters
import Netmon.TrafficTotals
import Netmon.TrafficHistory
import Netmon.Base64RoundTrip
import Netmon.WebSocketStream
import Netmon.RecentHistory
import Netmon.JsonOutput
import Netmon.MetricsLines
import Netmon.RequestRoundTrip
import Netmon.KeyValueFields
import Netmon.CollectorLines
import Netmon.DhcpLines
import Netmon.TrafficRows
import Netmon.SplitJoin
import Netmon.Sha1Standard
import Netmon.Sha1Padding
import Netmon.Sha1Digest
import Netmon.ThreadPool
import Netmon.Threads
import Netmon.ThreadCounters
import Netmon.ThreadEvents
import Netmon.ThreadRows
import Netmon.ThreadStore
import Netmon.DecimalText
import Netmon.JsonValue
import Netmon.NumberText
import Netmon.HttpReader
import Netmon.HttpReplies
import Netmon.JsonBodies
import Netmon.RequestReception
import Netmon.SyslogService
import Netmon.DebouncedWindow
import Netmon.Dashboard
import Netmon.ExpositionReader
import Netmon.MetricsDocument
import Netmon.LiveViews
import Netmon.SizeLimit
