import Ticketing.BackOffice.FileContents
import Ticketing.BackOffice.LostTickets
import Ticketing.BackOffice.Refinement
import Ticketing.BackOffice.Serial
import Ticketing.BackOffice.Server
import Ticketing.BackOffice.WriteFailures
import Ticketing.Gate.OfflineVerdict
import Ticketing.Gate.RetryBounds
import Ticketing.Gate.RetryRemovals
import Ticketing.Mqtt.Recovery
import Ticketing.Network.DataVolume
import Ticketing.Network.Recovery
import Ticketing.Network.System
