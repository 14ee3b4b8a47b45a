import Dreamboat.ApiFork
import Dreamboat.AuctioneerNewMax
import Dreamboat.BeaconSafety
import Dreamboat.CheckRegistration
import Dreamboat.ConfigProgram
import Dreamboat.Deployment
import Dreamboat.EvidenceRows
import Dreamboat.ForkSchedule
import Dreamboat.GethWsOwnership
import Dreamboat.LatestDelivered
import Dreamboat.Publication
import Dreamboat.PublishBlock
import Dreamboat.PublishedBlock
import Dreamboat.RegisterValidator
import Dreamboat.RoundRobin
import Dreamboat.RpcDecoder
import Dreamboat.SharedStore
import Dreamboat.SlotClock
import Dreamboat.StoreFaults
import Dreamboat.StoreRespRun
import Dreamboat.SyncStatus
import Dreamboat.TimeoutWaitGroup
import Dreamboat.Warehouse
