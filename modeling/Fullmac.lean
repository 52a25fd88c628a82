import Fullmac.Lib.Machine
import Fullmac.Lib.RingWindow
import Fullmac.Lib.Loops
import Fullmac.Lib.Slots
import Fullmac.Lib.Queues
import Fullmac.Lib.Bytes
import Fullmac.Lib.Reads
import Fullmac.Lib.Tlv
import Fullmac.Lib.Writer
import Fullmac.Lib.Runs
import Fullmac.Rx.SeqNum
import Fullmac.Rx.Reorder
import Fullmac.Rx.ReorderOwnership
import Fullmac.Rx.ReorderTable
import Fullmac.Rx.ReorderOrder
import Fullmac.Rx.ReorderSizes
import Fullmac.Rx.ReorderReads
import Fullmac.Rx.ReorderFlush
import Fullmac.Rx.ReorderConfig
import Fullmac.Rx.ReorderEnds
import Fullmac.Rx.Filters
import Fullmac.Timer.Model
import Fullmac.Timer.Slots
import Fullmac.Timer.Protocol
import Fullmac.Timer.Firing
import Fullmac.Tx.Model
import Fullmac.Tx.Accounting
import Fullmac.Tx.Drain
import Fullmac.Tx.Stop
import Fullmac.Cmd.Model
import Fullmac.Cmd.Order
import Fullmac.Cmd.Ownership
import Fullmac.Cmd.Gate
import Fullmac.Hci.TxAggr
import Fullmac.Hci.TxAggrTask
import Fullmac.Hci.TxAggrBounds
import Fullmac.Hci.RxAggr
import Fullmac.Hci.RxAggrReads
import Fullmac.Desc.TxReq
import Fullmac.Desc.TxReqWord
import Fullmac.Desc.TxPadding
import Fullmac.Desc.PsFrame
import Fullmac.Desc.RxPkt
import Fullmac.Desc.TxConvert
import Fullmac.SmartLink.Model
import Fullmac.SmartLink.Decode
import Fullmac.SmartLink.Safety
import Fullmac.SmartLink.Independence
import Fullmac.Lib.Table
import Fullmac.Ap.Model
import Fullmac.Ap.Mlme
import Fullmac.Ap.Frame
import Fullmac.Ap.Handlers
import Fullmac.Ap.Counters
import Fullmac.Ap.Ledger
import Fullmac.Ap.PowerSave
import Fullmac.Ap.Delivery
import Fullmac.Ap.Driver
import Fullmac.Ap.Lattice
import Fullmac.Ap.Port
import Fullmac.Ap.Relay
import Fullmac.Ap.Host
import Fullmac.Ap.Wsid
import Fullmac.Ap.Sessions
import Fullmac.Ap.Tim
import Fullmac.Ap.TimFrames
import Fullmac.Ap.TimEvents
import Fullmac.Ap.Elements
import Fullmac.Ap.WpaIe
import Fullmac.Ap.Raw
import Fullmac.Ap.RawInside
import Fullmac.Ap.RawEvents
import Fullmac.Host.Api
import Fullmac.Host.Callbacks
import Fullmac.Host.Interfaces
import Fullmac.Host.InterfaceCount
import Fullmac.Host.FwEvents
import Fullmac.Host.Join
import Fullmac.Host.JoinConfig
import Fullmac.Host.Recovery
import Fullmac.Mlme.Model
import Fullmac.Mlme.ApList
import Fullmac.Mlme.Smoothing
import Fullmac.Mlme.Expiry
import Fullmac.Mlme.Paging
import Fullmac.Mlme.Aging
import Fullmac.Lib.Masks
import Fullmac.Lib.RoundRobin
import Fullmac.Reg.Channels
import Fullmac.Reg.Availability
import Fullmac.Reg.Hopping
import Fullmac.Lib.Extremum
import Fullmac.Reg.AutoChannel
import Fullmac.Reg.Ht40
import Fullmac.Lib.Deltas
import Fullmac.Timer.DeltaList
import Fullmac.Timer.Deadlines
import Fullmac.Timer.Expiry
import Fullmac.Lib.Threads
import Fullmac.Timer.SlotLists
import Fullmac.Msg.Model
import Fullmac.Msg.Conservation
import Fullmac.Ap.Neighbor
import Fullmac.Ap.NeighborTable
import Fullmac.Ap.Overlap
import Fullmac.Ap.Capabilities
import Fullmac.Ap.AssocReply
import Fullmac.Ap.BeaconTim
import Fullmac.Ap.BeaconRates
import Fullmac.Ap.BeaconCountry
import Fullmac.Ap.Beacon
import Fullmac.Ap.Status
import Fullmac.Ap.Protection
import Fullmac.Ap.HtProtection
import Fullmac.Ap.ErpProtection
import Fullmac.Drv.TxResource
import Fullmac.Drv.Registry
import Fullmac.Lib.Nibbles
import Fullmac.Hal.Efuse
import Fullmac.Hal.EfuseReads
import Fullmac.Lib.Numerals
import Fullmac.Text.Atoi
import Fullmac.Text.CommandLine
import Fullmac.Lib.Rings
import Fullmac.Lists.Sequences
import Fullmac.Lists.ListQ
import Fullmac.Lists.Llist
import Fullmac.Lists.Refinement
import Fullmac.Pbuf.Model
import Fullmac.Pbuf.Ownership
import Fullmac.Pbuf.Pool
import Fullmac.Lib.IteratedCipher
import Fullmac.Lib.Registers
import Fullmac.Lib.Blocks
import Fullmac.Crypto.AesTables
import Fullmac.Crypto.Aes
import Fullmac.Crypto.AesInverse
import Fullmac.Crypto.KeyWrap
import Fullmac.Crypto.Sha1
import Fullmac.Crypto.Sha1Spec
import Fullmac.Crypto.Hmac
import Fullmac.Crypto.Rc4
import Fullmac.Wpa.Eapol
import Fullmac.Wpa.Model
import Fullmac.Wpa.Step
import Fullmac.Wpa.Handshake
import Fullmac.Wpa.Safety
import Fullmac.Wpa.Replay
import Fullmac.Wpa.Timeout
import Fullmac.Dhcp.Options
import Fullmac.Dhcp.Reply
import Fullmac.Dhcp.Grant
import Fullmac.Dhcp.Leases
import Fullmac.Dhcp.FreeNip
