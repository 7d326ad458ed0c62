import KissTncBridge.Config.Resolved

namespace KissTncBridge.Conf

structure GlobalSection where
  logLevel : Option String
  adapter : Option String
deriving DecidableEq, Repr

structure ControlSection where
  group : Option String
deriving DecidableEq, Repr

structure AdapterDef where
  id : String
  mac : String
deriving DecidableEq, Repr

structure SppDef where
  address : String
  adapter : Option String
  channel : Option UInt8
deriving DecidableEq, Repr

structure BleDef where
  address : String
  adapter : Option String
deriving DecidableEq, Repr

structure SerialDef where
  path : String
  baud : Option UInt32
deriving DecidableEq, Repr

structure TncDef where
  id : String
  name : Option String
  model : Option String
  spp : Option SppDef
  ble : Option BleDef
  serial : Option SerialDef
deriving DecidableEq, Repr

/-- What sets a port type apart in a file. -/
inductive PortDefKind where
  | tcpClient (address : String) (connect : Option ConnectPolicy) (idleTimeout : Option String)
  | tcpServer (listen : String) (maxClients : Option UInt32) (allow : Option (List String))
      (announce : Option Bool)
  | bleServer (adapter : Option String) (maxClients : Option UInt32)
  | sppClient (tnc : String) (connect : Option ConnectPolicy) (idleTimeout : Option String)
      (exitKissOnDisconnect : Option Bool)
  | bleClient (tnc : String) (connect : Option ConnectPolicy) (idleTimeout : Option String)
      (exitKissOnDisconnect : Option Bool)
  | serial (tnc : String) (connect : Option ConnectPolicy) (idleTimeout : Option String)
      (exitKissOnDisconnect : Option Bool)
deriving DecidableEq, Repr

/-- `[[bridge.port]]`: every type has an id and a role besides its own
settings. -/
structure PortDef where
  id : Option String
  role : Option Role
  kind : PortDefKind
deriving DecidableEq, Repr

namespace PortDef

def typeName (p : PortDef) : String :=
  match p.kind with
  | .tcpClient .. => "tcp-client"
  | .tcpServer .. => "tcp-server"
  | .bleServer .. => "ble-server"
  | .sppClient .. => "spp-client"
  | .bleClient .. => "ble-client"
  | .serial .. => "serial"

/-- The role a port type has unless `role` overrides it. -/
def defaultRole (p : PortDef) : Role :=
  match p.kind with
  | .tcpClient .. | .sppClient .. | .bleClient .. | .serial .. => .tnc
  | .tcpServer .. | .bleServer .. => .app

end PortDef

structure BridgeDef where
  id : Option String
  name : String
  enabled : Option Bool
  publicName : Option String
  appParams : Option AppParams
  ports : List PortDef
deriving DecidableEq, Repr

/-- One TOML file: the main file, one from `conf.d` or `dynamic.toml`. -/
structure ConfigFile where
  global : Option GlobalSection := none
  control : Option ControlSection := none
  adapter : List AdapterDef := []
  tnc : List TncDef := []
  bridge : List BridgeDef := []
deriving DecidableEq, Repr

end KissTncBridge.Conf
