import NovaNet.FrrConfig
import NovaNet.NetAddr

/-! The FRR client (internal/routing/frr). A call checks its parameters and pipes one batch
of commands to vtysh. An invocation of vtysh may fail for reasons of its own, without effect. -/

namespace NovaNet

inductive FrrCause where
  | invalidVtyParam (r : Char) (offset : Nat)
  | invalidIpAddress (addr : String)
  | bgpNotConfigured
  | unrecognizedAfi (afi : String)
  | vtyshConfigError

structure FrrError where
  context : String
  cause : FrrCause

def isControl (r : Char) : Bool := r.val ≤ 0x1f || (0x7f ≤ r.val && r.val ≤ 0x9f)

def sanitizeFrom : Nat → List Char → Except FrrCause Unit
  | _, [] => .ok ()
  | offset, r :: rs =>
    if isControl r then .error (.invalidVtyParam r offset)
    else sanitizeFrom (offset + r.utf8Size) rs

def sanitizeVtyParam (s : String) : Except FrrCause Unit := sanitizeFrom 0 s.toList

def validateIpAddress (addr : String) : Except FrrCause Unit :=
  if (Net.parseIp addr).isSome then .ok () else .error (.invalidIpAddress addr)

def afiOf (afi : String) : Option Afi :=
  if afi = "ipv4-unicast" ∨ afi = "ipv4" then some .ipv4Unicast
  else if afi = "ipv6-unicast" ∨ afi = "ipv6" then some .ipv6Unicast
  else none

def afiName (afi : String) : String := ((afiOf afi).map Afi.name).getD ""

def resolveAfiCli (afi : String) : Except FrrCause Unit :=
  if (afiOf afi).isSome then .ok () else .error (.unrecognizedAfi afi)

def ifGiven (s : String) (r : Except FrrCause Unit) : Except FrrCause Unit :=
  if s = "" then .ok () else r

def onlyIf {α : Type*} (p : Prop) [Decidable p] (a : α) : List α := if p then [a] else []

structure FrrRequest where
  checks : Nat → List (String × Except FrrCause Unit)
  context : String
  commands : Nat → List VtyCommand

def firstError : List (String × Except FrrCause Unit) → Option FrrError
  | [] => none
  | (context, r) :: rest =>
    match r with
    | .ok _ => firstError rest
    | .error e => some ⟨context, e⟩

def bgpGracefulRestartCommands : List VtyCommand :=
  [.set (.bgp .gracefulRestart) [], .set (.bgp .restartTime) ["120"],
    .set (.bgp .stalepathTime) ["360"]]

def bgpGlobalCommands (localAs : Nat) (routerId : String) : List VtyCommand :=
  .routerBgp localAs :: .set (.bgp .routerId) [routerId] ::
    .set (.bgp .noEbgpRequiresPolicy) [] :: bgpGracefulRestartCommands

structure NeighborConfig where
  sourceAddress : String
  ebgpMultihop : Nat
  password : String
  description : String

def addNeighbor (addr : String) (remoteAs keepalive holdTime : Nat) (cfg : NeighborConfig) :
    FrrRequest where
  checks localAs :=
    [("frr: add neighbor", validateIpAddress addr),
      ("frr: add neighbor " ++ addr ++ ": description",
        ifGiven cfg.description (sanitizeVtyParam cfg.description)),
      ("frr: add neighbor " ++ addr ++ ": password",
        ifGiven cfg.password (sanitizeVtyParam cfg.password)),
      ("frr: add neighbor " ++ addr ++ ": source-address",
        ifGiven cfg.sourceAddress (validateIpAddress cfg.sourceAddress)),
      ("frr: cannot add neighbor " ++ addr,
        if localAs = 0 then .error .bgpNotConfigured else .ok ())]
  context := "frr: add BGP neighbor " ++ addr ++ " (AS=" ++ toString remoteAs ++ ")"
  commands localAs := .routerBgp localAs :: List.flatten
    [[.set (.neighbor addr .remoteAs) [toString remoteAs]],
      onlyIf (0 < keepalive ∧ 0 < holdTime)
        (.set (.neighbor addr .timers) [toString keepalive, toString holdTime]),
      onlyIf (cfg.description ≠ "") (.set (.neighbor addr .description) [cfg.description]),
      onlyIf (cfg.sourceAddress ≠ "") (.set (.neighbor addr .updateSource) [cfg.sourceAddress]),
      onlyIf (0 < cfg.ebgpMultihop) (.set (.neighbor addr .ebgpMultihop) [toString cfg.ebgpMultihop]),
      onlyIf (cfg.password ≠ "") (.set (.neighbor addr .password) [cfg.password])]

def removeNeighbor (addr : String) : FrrRequest where
  checks _ := [("frr: remove neighbor", validateIpAddress addr)]
  context := "frr: remove BGP neighbor " ++ addr
  commands localAs := [.routerBgp localAs, .noNeighbor addr]

def inAddressFamily (afi : String) (commands : List VtyCommand) (localAs : Nat) :
    List VtyCommand :=
  match afiOf afi with
  | some af => .routerBgp localAs :: .addressFamily af :: (commands ++ [.exitAddressFamily])
  | none => []

def activateNeighborAfi (addr afi : String) : FrrRequest where
  checks _ :=
    [("frr: activate neighbor AFI", validateIpAddress addr),
      ("frr: activate neighbor AFI: afi", resolveAfiCli afi)]
  context := "frr: activate AFI " ++ afiName afi ++ " for neighbor " ++ addr
  commands := inAddressFamily afi
    [.set (.neighborAf addr .activate) [], .set (.neighborAf addr .softReconfiguration) ["inbound"]]

def setNeighborMaxPrefix (addr : String) (maxPrefixes : Nat) (warningOnly : Bool) (afi : String) :
    FrrRequest where
  checks _ :=
    [("frr: set neighbor max-prefix", validateIpAddress addr),
      ("frr: set neighbor max-prefix: afi", resolveAfiCli afi)]
  context := "frr: set max-prefix " ++ toString maxPrefixes ++ " for neighbor " ++ addr
  commands := inAddressFamily afi
    [.set (.neighborAf addr .maximumPrefix)
      (toString maxPrefixes :: onlyIf (warningOnly = true) "warning-only")]

def setNeighborBfd (addr : String) (enabled : Bool) : FrrRequest where
  checks _ := [("frr: set neighbor BFD", validateIpAddress addr)]
  context := "frr: set neighbor " ++ addr ++ " bfd=" ++ toString enabled
  commands localAs :=
    [.routerBgp localAs,
      if enabled then .set (.neighbor addr .bfd) [] else .unset (.neighbor addr .bfd) []]

def advertiseNetwork (net afi : String) : FrrRequest where
  checks _ :=
    [("frr: advertise network: prefix", sanitizeVtyParam net),
      ("frr: advertise network: afi", resolveAfiCli afi)]
  context := "frr: advertise network " ++ net ++ " (afi=" ++ afiName afi ++ ")"
  commands := inAddressFamily afi [.set (.network net) []]

def advertiseNetworkWithRouteMap (net afi routeMap : String) : FrrRequest where
  checks _ :=
    [("frr: advertise network with route-map: prefix", sanitizeVtyParam net),
      ("frr: advertise network with route-map: route-map name", sanitizeVtyParam routeMap),
      ("frr: advertise network with route-map: afi", resolveAfiCli afi)]
  context := "frr: advertise network " ++ net ++ " with route-map " ++ routeMap
  commands := inAddressFamily afi [.set (.network net) ["route-map", routeMap]]

def withdrawNetwork (net afi : String) : FrrRequest where
  checks _ :=
    [("frr: withdraw network: prefix", sanitizeVtyParam net),
      ("frr: withdraw network: afi", resolveAfiCli afi)]
  context := "frr: withdraw network " ++ net ++ " (afi=" ++ afiName afi ++ ")"
  commands := inAddressFamily afi [.unset (.network net) []]

def configureRouteMap (name : String) (setCmds : List String) : FrrRequest where
  checks _ :=
    ("frr: configure route-map: name", sanitizeVtyParam name) ::
      setCmds.mapIdx fun i cmd =>
        ("frr: configure route-map " ++ name ++ ": set command " ++ toString i, sanitizeVtyParam cmd)
  context := "frr: configure route-map " ++ name
  -- the old route-map goes first
  commands _ := .noRouteMap name :: .routeMap name ::
    (setCmds.map (fun cmd => .set (.routeMap cmd) []) ++ [.exit])

def removeRouteMap (name : String) : FrrRequest where
  checks _ := [("frr: remove route-map: name", sanitizeVtyParam name)]
  context := "frr: remove route-map " ++ name
  commands _ := [.noRouteMap name]

/-- Zero stands for FRR's default and is not sent. -/
def addBfdPeer (peerAddr : String) (minRx minTx detectMult : Nat) (iface : String) : FrrRequest where
  checks _ :=
    [("frr: add BFD peer", validateIpAddress peerAddr),
      ("frr: add BFD peer: interface", ifGiven iface (sanitizeVtyParam iface))]
  context := "frr: add BFD peer " ++ peerAddr
  commands _ := .bfd :: .peer peerAddr iface :: (List.flatten
    [onlyIf (0 < minRx) (.set (.bfd .receiveInterval) [toString minRx]),
      onlyIf (0 < minTx) (.set (.bfd .transmitInterval) [toString minTx]),
      onlyIf (0 < detectMult) (.set (.bfd .detectMultiplier) [toString detectMult])] ++
    [.exit, .exit])

def removeBfdPeer (peerAddr iface : String) : FrrRequest where
  checks _ :=
    [("frr: remove BFD peer", validateIpAddress peerAddr),
      ("frr: remove BFD peer: interface", ifGiven iface (sanitizeVtyParam iface))]
  context := "frr: remove BFD peer " ++ peerAddr
  commands _ := [.bfd, .noPeer peerAddr iface, .exit]

def ospfRequest (call : String) (v6 : Bool) (ifaceName areaId : String) (passive : Bool)
    (onInterface : List VtyCommand) (onRouter : VtyCommand) : FrrRequest where
  checks _ :=
    [("frr: " ++ call ++ ": interface name", sanitizeVtyParam ifaceName),
      ("frr: " ++ call ++ ": area ID", sanitizeVtyParam areaId)]
  context := "frr: " ++ call ++ " on " ++ ifaceName ++ " (area=" ++ areaId ++ ")"
  commands _ := .interface ifaceName :: (onInterface ++ .exit ::
    if passive then [.routerOspf v6, onRouter] else [])

def enableOspfInterface (ifaceName areaId : String) (passive : Bool) (cost hello dead : Nat) :
    FrrRequest :=
  ospfRequest "enable OSPF" false ifaceName areaId passive
    (List.flatten
      [[.set (.ospf false .area) [areaId]],
        onlyIf (0 < cost) (.set (.ospf false .cost) [toString cost]),
        onlyIf (0 < hello) (.set (.ospf false .helloInterval) [toString hello]),
        onlyIf (0 < dead) (.set (.ospf false .deadInterval) [toString dead])])
    (.set (.passiveInterface ifaceName) [])

def enableOspfv3Interface (ifaceName areaId : String) (passive : Bool) (cost : Nat) :
    FrrRequest :=
  ospfRequest "enable OSPFv3" true ifaceName areaId passive
    (List.flatten
      [[.set (.ospf true .area) [areaId]], onlyIf (0 < cost) (.set (.ospf true .cost) [toString cost])])
    (.set (.passiveInterface ifaceName) [])

def disableOspfInterface (ifaceName areaId : String) (passive : Bool) : FrrRequest :=
  ospfRequest "disable OSPF" false ifaceName areaId passive
    [.unset (.ospf false .area) [areaId]] (.unset (.passiveInterface ifaceName) [])

def disableOspfv3Interface (ifaceName areaId : String) (passive : Bool) : FrrRequest :=
  ospfRequest "disable OSPFv3" true ifaceName areaId passive
    [.unset (.ospf true .area) [areaId]] (.unset (.passiveInterface ifaceName) [])

def configureBgpGlobalRequest (localAs : Nat) (routerId : String) : FrrRequest where
  checks _ := [("frr: configure BGP global: router-id", sanitizeVtyParam routerId)]
  context :=
    "frr: configure BGP global (AS=" ++ toString localAs ++ ", router_id=" ++ routerId ++ ")"
  commands _ := bgpGlobalCommands localAs routerId

abbrev VtyBatches := List (List VtyCommand)

abbrev VtyFaults := Nat → List VtyCommand → Bool

/-- The client's cached local AS, with the FRR behind its socket: its configuration, the
batches given to vtysh so far and which of them fail. -/
structure FrrClient where
  localAs : Nat
  running : FrrConfig
  sent : List (List VtyCommand)
  fails : VtyFaults

def newFrrClient : FrrClient := ⟨0, fun _ => none, [], fun _ _ => false⟩

abbrev FrrCall := EStateM FrrError FrrClient Unit

namespace FrrClient

variable (names : FrrNames)

def runConfig (context : String) (commands : List VtyCommand) : FrrCall := fun f =>
  if f.fails f.sent.length commands then
    .error ⟨context, .vtyshConfigError⟩ { f with sent := f.sent ++ [commands] }
  else
    match runCommands names commands .config f.running with
    | some c => .ok () { f with running := c, sent := f.sent ++ [commands] }
    | none => .error ⟨context, .vtyshConfigError⟩ { f with sent := f.sent ++ [commands] }

def checked (checks : List (String × Except FrrCause Unit)) (x : FrrCall) : FrrCall := fun f =>
  match firstError checks with
  | some e => .error e f
  | none => x f

def send (q : FrrRequest) : FrrCall := fun f =>
  checked (q.checks f.localAs) (runConfig names q.context (q.commands f.localAs)) f

def configureBgpGlobal (localAs : Nat) (routerId : String) : FrrCall := do
  send names (configureBgpGlobalRequest localAs routerId)
  modify fun f => { f with localAs := localAs }

def removeOldInstance (oldAs : Nat) : FrrCall :=
  if oldAs = 0 then pure ()
  else
    runConfig names ("frr: remove old BGP instance (AS=" ++ toString oldAs ++ ")") [.noRouterBgp oldAs]

def reconfigureBgpGlobal (oldAs newAs : Nat) (routerId : String) : FrrCall :=
  checked [("frr: reconfigure BGP global: router-id", sanitizeVtyParam routerId)]
    (if oldAs = newAs then
      runConfig names ("frr: update router-id (AS=" ++ toString newAs ++ ")")
        (bgpGlobalCommands newAs routerId)
    else do
      removeOldInstance names oldAs
      configureBgpGlobal names newAs routerId)

end FrrClient

end NovaNet
