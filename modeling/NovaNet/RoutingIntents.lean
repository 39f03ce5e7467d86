import Mathlib.Data.Prod.Lex
import Mathlib.Data.String.Basic
import NovaNet.IterOrder
import NovaNet.LastWrite
import NovaNet.NetAddr

/-! Routing intents and the store that keeps them by owner (internal/routing/intent). The
owner and the times of an intent, which no comparison reads, are left out. -/

namespace NovaNet

inductive PeerType where
  | unspecified
  | external
  | internal
  deriving DecidableEq

inductive AddressFamily where
  | unspecified
  | ipv4Unicast
  | ipv6Unicast
  deriving DecidableEq

inductive RouteProtocol where
  | unspecified
  | bgp
  | ospf
  deriving DecidableEq

structure PeerIntent where
  neighborAddress : String
  remoteAs : Nat
  peerType : PeerType
  keepalive : Nat
  holdTime : Nat
  bfdEnabled : Bool
  bfdMinRxMs : Nat
  bfdMinTxMs : Nat
  bfdDetectMultiplier : Nat
  description : String
  addressFamilies : List AddressFamily
  sourceAddress : String
  ebgpMultihop : Nat
  password : String
  maxPrefixes : Nat
  deriving DecidableEq

structure PrefixIntent where
  pfx : String
  protocol : RouteProtocol
  localPreference : Nat
  communities : List String
  med : Nat
  nextHop : String
  deriving DecidableEq

structure BfdIntent where
  peerAddress : String
  minRxMs : Nat
  minTxMs : Nat
  detectMultiplier : Nat
  interfaceName : String
  deriving DecidableEq

structure OspfIntent where
  interfaceName : String
  areaId : String
  passive : Bool
  cost : Nat
  helloInterval : Nat
  deadInterval : Nat
  ipv6 : Bool
  deriving DecidableEq

/-- The keys are texts in the source, `prefix:<protocol>:<prefix>` for a prefix. -/
abbrev PrefixKey := RouteProtocol × String

def PrefixIntent.key (p : PrefixIntent) : PrefixKey := (p.protocol, p.pfx)

abbrev PeerMap := Finmap fun _ : String => PeerIntent

abbrev PrefixMap := Finmap fun _ : PrefixKey => PrefixIntent

abbrev BfdMap := Finmap fun _ : String => BfdIntent

abbrev OspfMap := Finmap fun _ : String => OspfIntent

structure OwnerIntents where
  peers : PeerMap
  prefixes : PrefixMap
  bfd : BfdMap
  ospf : OspfMap

def newOwnerIntents : OwnerIntents := ⟨∅, ∅, ∅, ∅⟩

abbrev IntentStore := Finmap fun _ : String => OwnerIntents

inductive IntentError where
  | ownerEmpty
  | neighborAddrEmpty
  | prefixEmpty
  | peerAddrEmpty
  | ifaceNameEmpty
  | areaIdEmpty
  | areaIdInvalid (area : String)
  | areaIdIpv6 (area : String)
  | noIntents (owner : String)
  | intentNotFound (owner : String)
  deriving DecidableEq

namespace IntentStore

def notEmpty (s : String) (e : IntentError) : Except IntentError Unit :=
  if s = "" then .error e else .ok ()

def setIntent (owner : String) (validate : Except IntentError Unit)
    (execute : OwnerIntents → OwnerIntents) (s : IntentStore) : Except IntentError IntentStore := do
  notEmpty owner .ownerEmpty
  validate
  return s.insert owner (execute ((s.lookup owner).getD newOwnerIntents))

def deleteFound (owner : String) (present : OwnerIntents → Bool)
    (delete : OwnerIntents → OwnerIntents) (s : IntentStore) : Except IntentError IntentStore :=
  match s.lookup owner with
  | none => .error (.noIntents owner)
  | some oi =>
    if present oi then .ok (s.insert owner (delete oi)) else .error (.intentNotFound owner)

def removeIntent (owner : String) (validate : Except IntentError Unit)
    (present : OwnerIntents → Bool) (delete : OwnerIntents → OwnerIntents) (s : IntentStore) :
    Except IntentError IntentStore := do
  notEmpty owner .ownerEmpty
  validate
  deleteFound owner present delete s

def setPeerIntent (owner : String) (p : PeerIntent) : IntentStore → Except IntentError IntentStore :=
  setIntent owner (notEmpty p.neighborAddress .neighborAddrEmpty)
    fun oi => { oi with peers := oi.peers.insert p.neighborAddress p }

def removePeerIntent (owner neighborAddr : String) : IntentStore → Except IntentError IntentStore :=
  removeIntent owner (notEmpty neighborAddr .neighborAddrEmpty) (neighborAddr ∈ ·.peers)
    fun oi => { oi with peers := oi.peers.erase neighborAddr }

def setPrefixIntent (owner : String) (p : PrefixIntent) :
    IntentStore → Except IntentError IntentStore :=
  setIntent owner (notEmpty p.pfx .prefixEmpty)
    fun oi => { oi with prefixes := oi.prefixes.insert p.key p }

def removePrefixIntent (owner pfx : String) (protocol : RouteProtocol) :
    IntentStore → Except IntentError IntentStore :=
  removeIntent owner (notEmpty pfx .prefixEmpty) ((protocol, pfx) ∈ ·.prefixes)
    fun oi => { oi with prefixes := oi.prefixes.erase (protocol, pfx) }

def setBfdIntent (owner : String) (b : BfdIntent) : IntentStore → Except IntentError IntentStore :=
  setIntent owner (notEmpty b.peerAddress .peerAddrEmpty)
    fun oi => { oi with bfd := oi.bfd.insert b.peerAddress b }

def removeBfdIntent (owner peerAddr : String) : IntentStore → Except IntentError IntentStore :=
  removeIntent owner (notEmpty peerAddr .peerAddrEmpty) (peerAddr ∈ ·.bfd)
    fun oi => { oi with bfd := oi.bfd.erase peerAddr }

/-- An area is a dotted IPv4 address or a plain number. -/
def validateAreaId (area : String) : Except IntentError Unit :=
  match Net.parseIp area with
  | some ip => if ip.to4.isSome then .ok () else .error (.areaIdIpv6 area)
  | none => if area.toList.all Char.isDigit then .ok () else .error (.areaIdInvalid area)

def validateOspf (o : OspfIntent) : Except IntentError Unit := do
  notEmpty o.interfaceName .ifaceNameEmpty
  notEmpty o.areaId .areaIdEmpty
  validateAreaId o.areaId

def setOspfIntent (owner : String) (o : OspfIntent) : IntentStore → Except IntentError IntentStore :=
  setIntent owner (validateOspf o) fun oi => { oi with ospf := oi.ospf.insert o.interfaceName o }

def removeOspfIntent (owner ifaceName : String) : IntentStore → Except IntentError IntentStore :=
  removeIntent owner (notEmpty ifaceName .ifaceNameEmpty) (ifaceName ∈ ·.ospf)
    fun oi => { oi with ospf := oi.ospf.erase ifaceName }

def collect {κ α : Type} [DecidableEq κ] (owners : IterOrder String) (keys : IterOrder κ)
    (family : OwnerIntents → Finmap fun _ : κ => α) (s : IntentStore) : List α :=
  (owners.enum [] s.keys).flatMap fun owner =>
    (s.lookup owner).toList.flatMap fun oi =>
      (keys.enum [] (family oi).keys).filterMap (family oi).lookup

end IntentStore

structure RoutingOrders where
  texts : IterOrder String
  prefixes : IterOrder PrefixKey

def RouteProtocol.toNat : RouteProtocol → Nat
  | .unspecified => 0
  | .bgp => 1
  | .ospf => 2

theorem RouteProtocol.toNat_injective : Function.Injective toNat := by
  intro p q h
  cases p <;> cases q <;> first | rfl | cases h

def sortedOrders : RoutingOrders where
  texts := .sorted
  prefixes := .sortedBy (fun k => toLex (k.1.toNat, k.2)) fun k k' h => by
    obtain ⟨hproto, hpfx⟩ := Prod.ext_iff.mp (toLex.injective h)
    exact Prod.ext (RouteProtocol.toNat_injective hproto) hpfx

namespace IntentStore

def getPeerIntents (o : RoutingOrders) : IntentStore → List PeerIntent :=
  collect o.texts o.texts (·.peers)

def getPrefixIntents (o : RoutingOrders) : IntentStore → List PrefixIntent :=
  collect o.texts o.prefixes (·.prefixes)

def getBfdIntents (o : RoutingOrders) : IntentStore → List BfdIntent :=
  collect o.texts o.texts (·.bfd)

def getOspfIntents (o : RoutingOrders) : IntentStore → List OspfIntent :=
  collect o.texts o.texts (·.ospf)

end IntentStore

end NovaNet
