import AirDap.Ownership.Generations
import AirDap.Mode.Preemption
import AirDap.Mode.Rollback
import AirDap.Mode.Route
import AirDap.Dap.Isolation
import AirDap.Service.Delivery
import AirDap.Ota.Clients
import AirDap.Auth.LogicalOwner
import AirDap.Auth.Rotation
import AirDap.Uart.Transmit
import AirDap.Uart.FanOut
import AirDap.Host.Client
import AirDap.UsbIp.Delivery
import AirDap.Host.Bridge
import AirDap.Provisioning.Pairing
import AirDap.Dap.Bystander
import AirDap.Network.Gate
import AirDap.Dap.Stream
import AirDap.Dap.Invalid
import AirDap.Network.Exchange
import AirDap.Swd.Discipline
import AirDap.Swd.Device
import AirDap.Wifi.Credentials
import AirDap.Host.SessionCipher
