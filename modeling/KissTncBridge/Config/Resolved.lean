import KissTncBridge.Net

namespace KissTncBridge.Conf

/-- Milliseconds: the finest unit a config file can write. -/
abbrev Duration := Nat

/-- Where an object was defined. -/
inductive Source where
  | static (path : String)
  | dynamic
deriving DecidableEq, Repr

def Source.isStatic : Source → Bool
  | .static _ => true
  | .dynamic => false

/-- One error or warning, tied to the object and file it concerns. -/
structure Problem where
  source : Option Source
  object : String
  message : String
deriving DecidableEq, Repr

inductive AppParams where
  | pass
  | drop
deriving DecidableEq, Repr

inductive Role where
  | tnc
  | app
deriving DecidableEq, Repr

inductive ConnectPolicy where
  | onDemand
  | always
deriving DecidableEq, Repr

/-- Which adapter a Bluetooth port uses, after ids are resolved. -/
inductive AdapterSel where
  | default
  | mac (m : Mac)
  | hci (name : String)
deriving DecidableEq, Repr

/-- A `tcp-server` binding. -/
inductive Listen where
  | addr (a : SocketAddr)
  | interface (name : String) (port : UInt16)
deriving DecidableEq, Repr

namespace Listen

def port : Listen → UInt16
  | addr a => a.port
  | interface _ p => p

def isLoopback : Listen → Bool
  | addr a => a.ip.isLoopback
  | interface .. => false

def isUnspecified : Listen → Bool
  | addr a => a.ip.isUnspecified
  | interface .. => false

/-- Whether two enabled listeners would fight over a socket. Interface
bindings are compared by name only. -/
def conflictsWith (a b : Listen) : Bool :=
  if a.port ≠ b.port then false
  else match a, b with
    | addr x, addr y => x.ip == y.ip || x.ip.isUnspecified || y.ip.isUnspecified
    | interface x _, interface y _ => x == y
    | interface .., addr y => y.ip.isUnspecified
    | addr x, interface .. => x.ip.isUnspecified

end Listen

inductive TncModel where
  | generic
  | thD7x
  | tdH9
deriving DecidableEq, Repr

/-- How to reach a TNC over Bluetooth Classic SPP. -/
structure Spp where
  address : Mac
  adapter : AdapterSel
  channel : Option UInt8
deriving DecidableEq, Repr

/-- How to reach a TNC over Bluetooth Low Energy. -/
structure Ble where
  address : Mac
  adapter : AdapterSel
deriving DecidableEq, Repr

structure SerialDevice where
  path : String
  baud : UInt32
deriving DecidableEq, Repr

structure Adapter where
  id : String
  mac : Mac
  source : Source
deriving DecidableEq, Repr

/-- A hardware KISS TNC. -/
structure Tnc where
  id : String
  name : String
  model : TncModel
  spp : Option Spp
  ble : Option Ble
  serial : Option SerialDevice
  source : Source
deriving DecidableEq, Repr

/-- A TNC's settings are copied in, so a change to the `[[tnc]]` is a change
to every port that uses it. -/
inductive PortKind where
  | tcpClient (host : String) (port : UInt16) (connect : ConnectPolicy) (idleTimeout : Duration)
  | tcpServer (listen : Listen) (maxClients : Option UInt32) (allow : List IpNet) (announce : Bool)
  | bleServer (adapter : AdapterSel) (maxClients : UInt32)
  | sppClient (tnc : String) (model : TncModel) (spp : Spp) (connect : ConnectPolicy)
      (idleTimeout : Duration) (exitKissOnDisconnect : Bool)
  | bleClient (tnc : String) (model : TncModel) (ble : Ble) (connect : ConnectPolicy)
      (idleTimeout : Duration) (exitKissOnDisconnect : Bool)
  | serial (tnc : String) (model : TncModel) (serial : SerialDevice) (connect : ConnectPolicy)
      (idleTimeout : Duration) (exitKissOnDisconnect : Bool)
deriving DecidableEq, Repr

structure Port where
  id : String
  role : Role
  kind : PortKind
deriving DecidableEq, Repr

namespace Port

def typeName (p : Port) : String :=
  match p.kind with
  | .tcpClient .. => "tcp-client"
  | .tcpServer .. => "tcp-server"
  | .bleServer .. => "ble-server"
  | .sppClient .. => "spp-client"
  | .bleClient .. => "ble-client"
  | .serial .. => "serial"

/-- The `[[tnc]]` this port uses, if any. -/
def tncId (p : Port) : Option String :=
  match p.kind with
  | .sppClient tnc .. | .bleClient tnc .. | .serial tnc .. => some tnc
  | _ => none

/-- `connect` and `idle_timeout`, for the port types that have them. -/
def connectPolicy (p : Port) : Option (ConnectPolicy × Duration) :=
  match p.kind with
  | .tcpClient _ _ c i | .sppClient _ _ _ c i _ | .bleClient _ _ _ c i _ | .serial _ _ _ c i _ =>
    some (c, i)
  | .tcpServer .. | .bleServer .. => none

end Port

structure Bridge where
  id : String
  name : String
  publicName : String
  enabled : Bool
  enabledOverride : Option Bool
  appParams : AppParams
  ports : List Port
  source : Source
deriving DecidableEq, Repr

namespace Bridge

def tncPorts (b : Bridge) : List Port := b.ports.filter (fun p => p.role == .tnc)

def appPorts (b : Bridge) : List Port := b.ports.filter (fun p => p.role == .app)

end Bridge

structure Global where
  logLevel : String
  adapter : AdapterSel
deriving DecidableEq, Repr

structure Control where
  group : String
deriving DecidableEq, Repr

/-- The effective configuration: files merged, defaults filled in, values
parsed, references resolved. -/
structure Config where
  global : Global
  control : Control
  adapters : List Adapter
  tncs : List Tnc
  bridges : List Bridge
deriving DecidableEq, Repr

end KissTncBridge.Conf
