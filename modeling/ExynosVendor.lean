import ExynosVendor.Camera.Bayer
import ExynosVendor.Camera.BufferSupplier
import ExynosVendor.Camera.CameraList
import ExynosVendor.Camera.FrameCompletion
import ExynosVendor.Camera.PlaneLayout
import ExynosVendor.Camera.PlanePacked
import ExynosVendor.Camera.ResourceOwners
import ExynosVendor.Camera.StreamRegistry
import ExynosVendor.Camera.SyncPairs
import ExynosVendor.Eden.Histories
import ExynosVendor.Eden.LayoutRoundTrip
import ExynosVendor.Eden.Outputs
import ExynosVendor.Eden.ValueRewriteLaw
import ExynosVendor.EdenRuntime.Bookkeeping
import ExynosVendor.Nfc.ConfigValues
import ExynosVendor.Nfc.HalFlow
import ExynosVendor.Nfc.HalMatching
import ExynosVendor.Nfc.HalOpen
import ExynosVendor.Nfc.HalPayload
import ExynosVendor.Nfc.OsiLocks
import ExynosVendor.Nfc.RfFile
import ExynosVendor.Nfc.TimerRuns
import ExynosVendor.Ril.Core.AsyncOnce
import ExynosVendor.Ril.Core.TimerList
import ExynosVendor.Ril.Core.Transaction
import ExynosVendor.Ril.Core.WakeUp
import ExynosVendor.Ril.External.RoundTrip
import ExynosVendor.Ril.External.SessionLaw
import ExynosVendor.Ril.External.TransactionLaw
import ExynosVendor.Ril.Fw.CdmaSmsBounds
import ExynosVendor.Ril.SimRecord.Eons
import ExynosVendor.Ril.Stk.NetworkAccessName
import ExynosVendor.Ril.Stk.RawImage
import ExynosVendor.Ril.Stk.TlvBounds
import ExynosVendor.Ril.Stk.TlvSetter
import ExynosVendor.Ril.Stk.TransmitBuffer
import ExynosVendor.Ril.Util.Base64
import ExynosVendor.Ril.Util.GsmText
import ExynosVendor.Ril.Util.HexString
import ExynosVendor.Ril.Util.NetworkName
import ExynosVendor.Ril.Util.Smsc
import ExynosVendor.Telephony.AtInput
import ExynosVendor.Telephony.BootImages
import ExynosVendor.Telephony.Download
import ExynosVendor.Telephony.FileManager
import ExynosVendor.Telephony.NvAtomic
import ExynosVendor.Telephony.Rfs.Checksum
import ExynosVendor.Telephony.Rfs.CsumBounds
import ExynosVendor.Telephony.Rfs.NvBounds
import ExynosVendor.Telephony.Rfs.PacketBounds
import ExynosVendor.Telephony.Rfs.Protection
import ExynosVendor.Telephony.Rfs.Touch
import ExynosVendor.Telephony.Rfs.WriteTransfer
import ExynosVendor.Telephony.SilentLog
import ExynosVendor.Telephony.VcdRouting
import ExynosVendor.Tether.Agreement
