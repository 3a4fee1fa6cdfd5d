import Kalandra.Server.Sync
import Kalandra.Server.Isolation
import Kalandra.Server.Broadcast
import Kalandra.Client.Generations
import Kalandra.Client.Outcomes
import Kalandra.Client.Isolation
import Kalandra.Harness.RealWorld
import Kalandra.System.EndToEnd
import Kalandra.System.Agreement
