import MediaFramework.Rbi.ByteRange
import MediaFramework.Rbi.Receivers
import MediaFramework.Rbi.SectionBytes
import MediaFramework.Rbi.OrderlyInsertions
import MediaFramework.Rbi.BackToBackAudio
import MediaFramework.Rbi.ContinuityCounters
import MediaFramework.Oob.CrcSections
import MediaFramework.Oob.RevisionSections
import MediaFramework.Osal.QueueOrder
import MediaFramework.Osal.EventUsers
import MediaFramework.Inb.SectionPlaces
import MediaFramework.Pod.Transport
import MediaFramework.Pod.FlowManager
import MediaFramework.Dsg.IpReassembly
import MediaFramework.Pod.PodTimers
import MediaFramework.Osal.EventRoutes
import MediaFramework.Pod.DecryptCounters
import MediaFramework.Inb.PatCountdown
import MediaFramework.Inb.PmtCalls
import MediaFramework.Trh.Framing
import MediaFramework.Trh.Reservations
import MediaFramework.Pod.SessionTable
import MediaFramework.Rbi.PacketSync
import MediaFramework.Oob.SnsSubtable
import MediaFramework.Oob.VirtualChannels
import MediaFramework.Inb.ComponentNames
import MediaFramework.Cdl.CvtCorrect
import MediaFramework.Snmp.Tlv217
import MediaFramework.Rbi.CopiedRuns
import MediaFramework.Rbi.SpliceWindows
import MediaFramework.Rbi.UpidBounds
import MediaFramework.Rbi.PrivateData
import MediaFramework.Rbi.PmtBounds
import MediaFramework.Rbi.ParameterSetEscapes
import MediaFramework.Rbi.PidMapSound
import MediaFramework.Rbi.Ac3Frames
import MediaFramework.Inb.QueueOverflow
import MediaFramework.Oob.AcquisitionTimeouts
import MediaFramework.Oob.PurgedSections
import MediaFramework.Pod.SessionPdu
import MediaFramework.Pod.StreamRuns
import MediaFramework.Dsg.DcdInterpretation
import MediaFramework.Osal.VlMap
import MediaFramework.Pod.CmHashRoundTrip
import MediaFramework.Osal.VlVector
import MediaFramework.Pod.CaEnables
import MediaFramework.Pod.LinkedTables
import MediaFramework.Pod.StaticMemoryPool
import MediaFramework.Oob.FrequencyRange
import MediaFramework.Oob.SiCacheFiles
import MediaFramework.Osal.IpcCalls
import MediaFramework.Pod.HexStrings
import MediaFramework.Pod.LinkList
import MediaFramework.Pod.PmtRoundTrip
import MediaFramework.Rbi.Base64
