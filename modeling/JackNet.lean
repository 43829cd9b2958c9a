import JackNet.Wire.Encoding
import JackNet.Wire.HostNetwork
import JackNet.Session
import JackNet.PortList.Memory
import JackNet.PortList.Basic
import JackNet.PortList.Sizing
import JackNet.PortList.Fixed
import JackNet.PortList.FixedCycle
import JackNet.PortList.Optimized
import JackNet.PortList.OptimizedTransfer
import JackNet.PortList.OptimizedCycle
import JackNet.PortList.ActivePorts
import JackNet.PortList.LossDetection
import JackNet.PortList.LayoutAgreement
import JackNet.PortList.SendPayload
import JackNet.PortList.Buffers
