import RelayClient.Protocol
import RelayClient.Noise
import RelayClient.Channel
import RelayClient.Client
import RelayClient.EventLoop
import RelayClient.Run
import RelayClient.Dispatch
import RelayClient.Delivery
import RelayClient.Scheduler
import RelayClient.InFlight
import RelayClient.Link
import RelayClient.LinkSafety
import RelayClient.Driver
