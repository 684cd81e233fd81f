import PosFirmware.Flash.HashCopies
import PosFirmware.Flash.BlockMapInjective
import PosFirmware.Flash.MapPersistence
import PosFirmware.Flash.MapSelection
import PosFirmware.Flash.MonitorRoundTrip
import PosFirmware.Flash.EraseRange
import PosFirmware.Flash.OtherLogReplay
import PosFirmware.Icc.AtrBounds
import PosFirmware.Icc.T0Bounds
import PosFirmware.Icc.T1Progress
import PosFirmware.Icc.T1Delivery
import PosFirmware.Decompress.DecoderArithmetic
import PosFirmware.File.EnvIsolation
import PosFirmware.IpStack.Arp
import PosFirmware.IpStack.Checksum
import PosFirmware.IpStack.TcpConnection
import PosFirmware.IpStack.TcpCongestion
import PosFirmware.IpStack.DhcpRetry
import PosFirmware.IpStack.DnsName
import PosFirmware.IpStack.ListenerAccounting
import PosFirmware.Fat.MountGeometry
import PosFirmware.Contactless.ExchangeEnds
import PosFirmware.Contactless.ExchangeEffects
import PosFirmware.Bluetooth.FrameReceive
import PosFirmware.Bluetooth.H5Delivery
import PosFirmware.Bluetooth.SlipRoundTrip
import PosFirmware.Bluetooth.UserPortSafety
import PosFirmware.Bluetooth.UserPortSend
import PosFirmware.Comm.PortMap
import PosFirmware.Comm.TransmitStream
import PosFirmware.Ppp.Queues
import PosFirmware.Ppp.RoundTrip
import PosFirmware.Ppp.ControlSafety
import PosFirmware.Ppp.PppoeSafety
import PosFirmware.Config.ReadBack
import PosFirmware.Multitask.Scheduling
import PosFirmware.Modem.V80RoundTrip
import PosFirmware.Puk.SignedContent
import PosFirmware.Usb.BulkDelivery
import PosFirmware.FileCore.LogRuns
import PosFirmware.IpStack.SkBuffRuns
import PosFirmware.IpStack.IpInput
import PosFirmware.Multitask.HeapRuns
import PosFirmware.Contactless.TypeAActivation
import PosFirmware.Ppp.ComRegistryRuns
import PosFirmware.MagCard.MagRead
import PosFirmware.MagCard.Direction
import PosFirmware.CfgManage.SettingsRuns
import PosFirmware.CfgManage.ConfigAccepts
import PosFirmware.Bluetooth.QueueFifo
import PosFirmware.Bluetooth.Advertising
import PosFirmware.Modem.CallerIdReports
import PosFirmware.MagCard.HeadCipher
import PosFirmware.Encrypt.DesStandard
import PosFirmware.Encrypt.AesBlocks
