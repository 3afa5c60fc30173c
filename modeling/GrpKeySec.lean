import GrpKeySec.Dict
import GrpKeySec.Handler
import GrpKeySec.ServiceNet
import GrpKeySec.ServiceWork
import GrpKeySec.ServiceHistory
import GrpKeySec.Separator
import GrpKeySec.KeyDerivation
import GrpKeySec.CoreServices
import GrpKeySec.CoreNet
import GrpKeySec.CoreRules
import GrpKeySec.Authentication
import GrpKeySec.KeyAgreement
import GrpKeySec.SecurityMode
import GrpKeySec.Runs
import GrpKeySec.UserPlane
import GrpKeySec.UpfRetry
import GrpKeySec.FailedHandlers
import GrpKeySec.CoreWork
import GrpKeySec.UpfOnce
import GrpKeySec.CoreHistory
import GrpKeySec.CoreStores
import GrpKeySec.CoreReplies
import GrpKeySec.CoreReplay
import GrpKeySec.Multicast
import GrpKeySec.MulticastGroup
import GrpKeySec.MulticastInvariant
import GrpKeySec.MulticastDelivery
import GrpKeySec.MulticastRefusal
import GrpKeySec.MulticastService
import GrpKeySec.UdpNet
import GrpKeySec.UdpProgress
import GrpKeySec.Attach
import GrpKeySec.AttachRace
import GrpKeySec.AttachOutcome
import GrpKeySec.MbmsLeo
import GrpKeySec.MatlabArray
import GrpKeySec.Tally
import GrpKeySec.DashStream
import GrpKeySec.DashAccounting
import GrpKeySec.DashPlayback
import GrpKeySec.Greedy
import GrpKeySec.PhysicalLayer
import GrpKeySec.UeGroups
import GrpKeySec.GroupAssignment
import GrpKeySec.ResourceBlocks
import GrpKeySec.MulticastGain
import GrpKeySec.TableSearch
import GrpKeySec.FillLoop
import GrpKeySec.UniMulBro
import GrpKeySec.UniMulBroPython
import GrpKeySec.UniMulBroMatlab
import GrpKeySec.CellSimulation
import GrpKeySec.CellReport
import GrpKeySec.UniMulBroCell
import GrpKeySec.MbmsDoppler
