import Fpp.ChannelOutput.ArtNet.Packet
import Fpp.ChannelOutput.ArtNet.PrepareData
import Fpp.ChannelOutput.ArtNet.Run
import Fpp.ChannelOutput.ArtNet.Batch
import Fpp.ChannelOutput.ArtNet.Datagram
import Fpp.NetworkMonitor.Registry
import Fpp.NetworkMonitor.Netlink
import Fpp.NetworkMonitor.Dispatch
import Fpp.ChannelOutput.Spixels.Output
import Fpp.ChannelOutput.Spixels.Properties
import Fpp.ChannelOutput.FBMatrix.Basic
import Fpp.ChannelOutput.FBMatrix.PrepData
import Fpp.ChannelOutput.FBMatrix.Bounds
import Fpp.ChannelOutput.FBMatrix.Render
import Fpp.ChannelOutput.FBMatrix.Scaling
import Fpp.ChannelOutput.FBMatrix.Device
import Fpp.ChannelOutput.FBMatrix.Send
import Fpp.ChannelOutput.FBMatrix.Image
import Fpp.ChannelOutput.FBMatrix.Footprint
