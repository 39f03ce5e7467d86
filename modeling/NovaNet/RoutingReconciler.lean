import NovaNet.ErrorState
import NovaNet.FrrClient
import NovaNet.RoutingIntents

/-! The reconciler that brings the FRR configuration to the intents (internal/routing/reconciler)
and the manager in front of it (internal/routing/manager.go). Events, metrics and the state
monitor are left out. -/

namespace NovaNet

open ErrorState IntentStore
open FrrClient (send)

structure BgpGlobalConfig where
  localAs : Nat
  routerId : String

/-- The reconciler with its FRR client, which is nil as long as `hasFrr` is false. The applied
maps hold what it believes FRR has. -/
structure Reconciler where
  hasFrr : Bool
  frr : FrrClient
  bgpGlobal : Option BgpGlobalConfig
  bgpConfigured : Bool
  appliedPeers : PeerMap
  appliedPrefixes : PrefixMap
  appliedBfd : BfdMap
  appliedOspf : OspfMap
  peerManagedBfd : Finset String

def newReconciler (frr : FrrClient) (bgpGlobal : Option BgpGlobalConfig) : Reconciler :=
  ⟨true, frr, bgpGlobal, false, ∅, ∅, ∅, ∅, ∅⟩

/-- The applied state goes, since FRR may have been restarted. -/
def setFrrClient (frr : FrrClient) (r : Reconciler) : Reconciler :=
  { r with
    hasFrr := true
    frr := frr
    appliedPeers := ∅
    appliedPrefixes := ∅
    appliedBfd := ∅
    appliedOspf := ∅
    peerManagedBfd := ∅ }

/-- The next reconciliation configures BGP again. -/
def updateBgpGlobal (localAs : Nat) (routerId : String) (r : Reconciler) : Reconciler :=
  { r with bgpGlobal := some ⟨localAs, routerId⟩, bgpConfigured := false }

inductive RoutingError where
  | bgpGlobalNotSet
  | unspecifiedProtocol
  | frr (cause : FrrError)
  | wrap (context : String) (cause : RoutingError)
  | collected (context : String) (count : Nat) (first : RoutingError)

abbrev RoutingCall := EStateM RoutingError Reconciler Unit

def callFrr (context : String) (x : FrrCall) : RoutingCall := fun r =>
  match x r.frr with
  | .ok _ f => .ok () { r with frr := f }
  | .error e f => .error (.wrap context (.frr e)) { r with frr := f }

def tryFrr (x : FrrCall) : RoutingCall := fun r =>
  match x r.frr with
  | .ok _ f => .ok () { r with frr := f }
  | .error _ f => .ok () { r with frr := f }

def wrapError (context : String) (x : RoutingCall) : RoutingCall := fun r =>
  match x r with
  | .ok _ r' => .ok () r'
  | .error e r' => .error (.wrap context e) r'

def collectErrors (context : String) (out : List RoutingError × Reconciler) :
    EStateM.Result RoutingError Reconciler Unit :=
  match out with
  | ([], r) => .ok () r
  | (e :: es, r) => .error (.collected context (es.length + 1) e) r

section Calls

variable (names : FrrNames)

/-- A change of the AS tears the old instance down with its neighbors and networks. -/
def forgetInstance (oldAs newAs : Nat) (r : Reconciler) : Reconciler :=
  if oldAs ≠ 0 ∧ oldAs ≠ newAs then { r with appliedPeers := ∅, appliedPrefixes := ∅ } else r

def ensureBgpGlobal : RoutingCall := fun r =>
  if r.bgpConfigured then .ok () r
  else
    match r.bgpGlobal with
    | none => .error .bgpGlobalNotSet r
    | some g =>
      if g.localAs = 0 then .error .bgpGlobalNotSet r
      else
        (do
          callFrr "configure BGP global"
            (FrrClient.reconfigureBgpGlobal names r.frr.localAs g.localAs g.routerId)
          modify fun r' : Reconciler =>
            { forgetInstance r.frr.localAs g.localAs r' with bgpConfigured := true } :
          RoutingCall) r

def resolveAddressFamily : AddressFamily → String
  | .unspecified => ""
  | .ipv4Unicast => "ipv4-unicast"
  | .ipv6Unicast => "ipv6-unicast"

/-- The families of a peer; a family without a name is passed over. -/
def PeerIntent.afiNames (p : PeerIntent) : List String :=
  (p.addressFamilies.map resolveAddressFamily).filter (· ≠ "")

def PeerIntent.neighborConfig (p : PeerIntent) : NeighborConfig :=
  ⟨p.sourceAddress, p.ebgpMultihop, p.password, p.description⟩

def PeerIntent.session (p : PeerIntent) : BfdIntent :=
  ⟨p.neighborAddress, p.bfdMinRxMs, p.bfdMinTxMs, p.bfdDetectMultiplier, ""⟩

/-- FRR warns above this number of prefixes; 1000 unless the intent gives one. -/
def PeerIntent.maxPfx (p : PeerIntent) : Nat := if p.maxPrefixes = 0 then 1000 else p.maxPrefixes

def linkPeerBfd (p : PeerIntent) : RoutingCall := do
  callFrr ("add BFD peer for neighbor " ++ p.neighborAddress)
    (send names (addBfdPeer p.neighborAddress p.bfdMinRxMs p.bfdMinTxMs p.bfdDetectMultiplier ""))
  modify fun r => { r with
    peerManagedBfd := insert p.neighborAddress r.peerManagedBfd
    appliedBfd := r.appliedBfd.insert p.neighborAddress p.session }
  callFrr ("enable BFD for neighbor " ++ p.neighborAddress)
    (send names (setNeighborBfd p.neighborAddress true))

def forgetPeerBfd (addr : String) (r : Reconciler) : Reconciler :=
  { r with peerManagedBfd := r.peerManagedBfd.erase addr, appliedBfd := r.appliedBfd.erase addr }

def unlinkPeerBfd (p : PeerIntent) : RoutingCall := do
  callFrr ("disable BFD for neighbor " ++ p.neighborAddress)
    (send names (setNeighborBfd p.neighborAddress false))
  if p.neighborAddress ∈ (← get).peerManagedBfd then
    callFrr ("remove BFD peer for neighbor " ++ p.neighborAddress)
      (send names (removeBfdPeer p.neighborAddress ""))
    modify (forgetPeerBfd p.neighborAddress)

def applyPeerIntent (p : PeerIntent) : RoutingCall := do
  callFrr ("add neighbor " ++ p.neighborAddress)
    (send names (addNeighbor p.neighborAddress p.remoteAs p.keepalive p.holdTime p.neighborConfig))
  forM p.afiNames fun afi =>
    callFrr ("activate AFI " ++ afi ++ " for neighbor " ++ p.neighborAddress)
      (send names (activateNeighborAfi p.neighborAddress afi))
  forM p.afiNames fun afi =>
    callFrr ("set max-prefix for neighbor " ++ p.neighborAddress ++ " (afi=" ++ afi ++ ")")
      (send names (setNeighborMaxPrefix p.neighborAddress p.maxPfx true afi))
  if p.bfdEnabled then linkPeerBfd names p else unlinkPeerBfd names p

def removePeer (p : PeerIntent) : RoutingCall := do
  if p.neighborAddress ∈ (← get).peerManagedBfd then
    tryFrr (send names (setNeighborBfd p.neighborAddress false))
    tryFrr (send names (removeBfdPeer p.neighborAddress ""))
    modify (forgetPeerBfd p.neighborAddress)
  callFrr ("remove neighbor " ++ p.neighborAddress) (send names (removeNeighbor p.neighborAddress))

def detectAfi (pfx : String) : String :=
  if ':' ∈ pfx.toList then "ipv6-unicast" else "ipv4-unicast"

def PrefixIntent.HasAttributes (p : PrefixIntent) : Prop :=
  0 < p.localPreference ∨ p.communities ≠ [] ∨ 0 < p.med ∨ p.nextHop ≠ ""

instance (p : PrefixIntent) : Decidable p.HasAttributes :=
  inferInstanceAs (Decidable (_ ∨ _ ∨ _ ∨ _))

def routeMapName (pfx : String) : String :=
  "NR-PFX-" ++ String.ofList (pfx.toList.map fun r => if r = '/' ∨ r = ':' then '-' else r)

def PrefixIntent.setCmds (p : PrefixIntent) : List String :=
  List.flatten
    [onlyIf (0 < p.localPreference) ("set local-preference " ++ toString p.localPreference),
      onlyIf (p.communities ≠ []) ("set community " ++ joinWith " " p.communities),
      onlyIf (0 < p.med) ("set metric " ++ toString p.med),
      onlyIf (p.nextHop ≠ "") ("set ip next-hop " ++ p.nextHop)]

def advertisePrefixIntent (p : PrefixIntent) : RoutingCall :=
  if p.HasAttributes then do
    callFrr ("configure route-map for prefix " ++ p.pfx)
      (send names (configureRouteMap (routeMapName p.pfx) p.setCmds))
    callFrr ("advertise network " ++ p.pfx ++ " with route-map")
      (send names (advertiseNetworkWithRouteMap p.pfx (detectAfi p.pfx) (routeMapName p.pfx)))
  else
    callFrr ("advertise network " ++ p.pfx) (send names (advertiseNetwork p.pfx (detectAfi p.pfx)))

/-- An OSPF prefix needs no call of its own: the interface intent covers it. -/
def applyPrefixIntent (p : PrefixIntent) : RoutingCall :=
  match p.protocol with
  | .bgp => advertisePrefixIntent names p
  | .ospf => pure ()
  | .unspecified => throw (.wrap ("prefix " ++ p.pfx) .unspecifiedProtocol)

/-- A failure to take the route-map away is only logged. -/
def dropRouteMap (p : PrefixIntent) : RoutingCall :=
  if p.HasAttributes then tryFrr (send names (removeRouteMap (routeMapName p.pfx))) else pure ()

/-- The route-map of the old intent goes before the new intent is applied. -/
def replacePrefixIntent (existing : Option PrefixIntent) (p : PrefixIntent) : RoutingCall := do
  forM existing.toList fun old =>
    if old.protocol = .bgp then dropRouteMap names old else pure ()
  applyPrefixIntent names p

def withdrawPrefixIntent (p : PrefixIntent) : RoutingCall := do
  callFrr ("withdraw network " ++ p.pfx) (send names (withdrawNetwork p.pfx (detectAfi p.pfx)))
  dropRouteMap names p

def removePrefixFromFrr (p : PrefixIntent) : RoutingCall :=
  match p.protocol with
  | .bgp => withdrawPrefixIntent names p
  | .ospf => pure ()
  | .unspecified => throw (.wrap ("prefix removal " ++ p.pfx) .unspecifiedProtocol)

def applyBfdIntent (b : BfdIntent) : RoutingCall :=
  callFrr ("add BFD peer " ++ b.peerAddress)
    (send names (addBfdPeer b.peerAddress b.minRxMs b.minTxMs b.detectMultiplier b.interfaceName))

def removeBfdFromFrr (b : BfdIntent) : RoutingCall :=
  callFrr ("remove BFD peer " ++ b.peerAddress)
    (send names (removeBfdPeer b.peerAddress b.interfaceName))

def OspfIntent.enableRequest (o : OspfIntent) : FrrRequest :=
  if o.ipv6 then enableOspfv3Interface o.interfaceName o.areaId o.passive o.cost
  else
    enableOspfInterface o.interfaceName o.areaId o.passive o.cost o.helloInterval o.deadInterval

def OspfIntent.disableRequest (o : OspfIntent) : FrrRequest :=
  if o.ipv6 then disableOspfv3Interface o.interfaceName o.areaId o.passive
  else disableOspfInterface o.interfaceName o.areaId o.passive

def applyOspfIntent (o : OspfIntent) : RoutingCall :=
  callFrr ("enable OSPF on " ++ o.interfaceName) (send names o.enableRequest)

def removeOspfFromFrr (o : OspfIntent) : RoutingCall :=
  callFrr ("disable OSPF on " ++ o.interfaceName) (send names o.disableRequest)

end Calls

/-- What tells the four reconciliations apart. `kept` marks what a removal passes over. -/
structure Family (κ α : Type) where
  what : String
  key : α → κ
  text : α → String
  equal : α → α → Bool
  equal_iff : ∀ {a b}, equal a b = true ↔ a = b
  applied : Reconciler → Finmap fun _ : κ => α
  setApplied : (Finmap fun _ : κ => α) → Reconciler → Reconciler
  apply : Option α → α → RoutingCall
  remove : α → RoutingCall
  kept : Reconciler → κ → Bool

namespace Family

variable {κ α : Type} [DecidableEq κ] (F : Family κ α)

def desiredMap (desired : List α) : Finmap fun _ : κ => α :=
  LastWrite.assign ∅ (desired.map fun a => (F.key a, a))

def applyKey (desired : Finmap fun _ : κ => α) (k : κ) : RoutingCall := fun r =>
  match desired.lookup k with
  | none => .ok () r
  | some a =>
    if ((F.applied r).lookup k).any (F.equal · a) then .ok () r
    else
      (do
        wrapError ("apply " ++ F.what ++ " " ++ F.text a) (F.apply ((F.applied r).lookup k) a)
        modify fun r' => F.setApplied ((F.applied r').insert k a) r') r

def removeKey (desired : Finmap fun _ : κ => α) (k : κ) : RoutingCall := fun r =>
  match (F.applied r).lookup k with
  | none => .ok () r
  | some a =>
    if k ∈ desired ∨ F.kept r k = true then .ok () r
    else
      (do
        wrapError ("remove " ++ F.what ++ " " ++ F.text a) (F.remove a)
        modify fun r' => F.setApplied ((F.applied r').erase k) r') r

def reconcile (o : IterOrder κ) (desired : List α) : RoutingCall := fun r =>
  let m := F.desiredMap desired
  let added := forEachKey (F.applyKey m) (o.enum [0] m.keys) r
  let removed := forEachKey (F.removeKey m) (o.enum [1] (F.applied added.2).keys) added.2
  collectErrors (F.what ++ " reconciliation") (added.1 ++ removed.1, removed.2)

end Family

-- the intents have no fields but those that the source compares
def peerEqual (a b : PeerIntent) : Bool := a = b

def prefixEqual (a b : PrefixIntent) : Bool := a = b

def bfdEqual (a b : BfdIntent) : Bool := a = b

def ospfEqual (a b : OspfIntent) : Bool := a = b

section Reconcile

variable (names : FrrNames)

def peerFamily : Family String PeerIntent where
  what := "peer"
  key := PeerIntent.neighborAddress
  text := PeerIntent.neighborAddress
  equal := peerEqual
  equal_iff := decide_eq_true_iff
  applied := Reconciler.appliedPeers
  setApplied m r := { r with appliedPeers := m }
  apply _ p := applyPeerIntent names p
  remove := removePeer names
  kept _ _ := false

def prefixFamily : Family PrefixKey PrefixIntent where
  what := "prefix"
  key := PrefixIntent.key
  text := PrefixIntent.pfx
  equal := prefixEqual
  equal_iff := decide_eq_true_iff
  applied := Reconciler.appliedPrefixes
  setApplied m r := { r with appliedPrefixes := m }
  apply := replacePrefixIntent names
  remove := removePrefixFromFrr names
  kept _ _ := false

/-- A session that came with a peer is left to the peers' reconciliation. -/
def bfdFamily : Family String BfdIntent where
  what := "BFD"
  key := BfdIntent.peerAddress
  text := BfdIntent.peerAddress
  equal := bfdEqual
  equal_iff := decide_eq_true_iff
  applied := Reconciler.appliedBfd
  setApplied m r := { r with appliedBfd := m }
  apply _ b := applyBfdIntent names b
  remove := removeBfdFromFrr names
  kept r k := k ∈ r.peerManagedBfd

def ospfFamily : Family String OspfIntent where
  what := "OSPF"
  key := OspfIntent.interfaceName
  text := OspfIntent.interfaceName
  equal := ospfEqual
  equal_iff := decide_eq_true_iff
  applied := Reconciler.appliedOspf
  setApplied m r := { r with appliedOspf := m }
  apply _ o := applyOspfIntent names o
  remove := removeOspfFromFrr names
  kept _ _ := false

def reconcilePeers (o : RoutingOrders) (desired : List PeerIntent) : RoutingCall :=
  (peerFamily names).reconcile o.texts desired

def reconcilePrefixes (o : RoutingOrders) (desired : List PrefixIntent) : RoutingCall :=
  (prefixFamily names).reconcile o.prefixes desired

def reconcileBfd (o : RoutingOrders) (desired : List BfdIntent) : RoutingCall :=
  (bfdFamily names).reconcile o.texts desired

def reconcileOspf (o : RoutingOrders) (desired : List OspfIntent) : RoutingCall :=
  (ospfFamily names).reconcile o.texts desired

/-- An error of one family does not keep the others from their turn. -/
def reconcileFamilies (o : RoutingOrders) (store : IntentStore) : RoutingCall := fun r =>
  collectErrors "reconciliation" (forEachKey id
    [wrapError "reconcile peers" (reconcilePeers names o (store.getPeerIntents o)),
      wrapError "reconcile prefixes" (reconcilePrefixes names o (store.getPrefixIntents o)),
      wrapError "reconcile BFD" (reconcileBfd names o (store.getBfdIntents o)),
      wrapError "reconcile OSPF" (reconcileOspf names o (store.getOspfIntents o))] r)

def reconcile (o : RoutingOrders) (store : IntentStore) : RoutingCall := fun r =>
  if r.hasFrr then
    (do
      wrapError "ensure BGP global" (ensureBgpGlobal names)
      reconcileFamilies names o store : RoutingCall) r
  else .ok () r

end Reconcile

structure BfdOptions where
  enabled : Bool
  minRxMs : Nat
  minTxMs : Nat
  detectMultiplier : Nat

structure RoutingManager where
  owner : String
  store : IntentStore
  reconciler : Reconciler

/-- The manager over an FRR without configuration. The source starts without a BGP
configuration, which is set before the first intent. -/
def newRoutingManager (owner : String) (bgpGlobal : Option BgpGlobalConfig) : RoutingManager :=
  ⟨owner, ∅, newReconciler newFrrClient bgpGlobal⟩

namespace RoutingManager

def update (m : RoutingManager) (context : String)
    (call : IntentStore → Except IntentError IntentStore) :
    Except (String × IntentError) RoutingManager :=
  match call m.store with
  | .ok s => .ok { m with store := s }
  | .error e => .error (context, e)

/-- A removal that finds nothing is not an error. -/
def updateIfFound (m : RoutingManager) (call : IntentStore → Except IntentError IntentStore) :
    RoutingManager :=
  match call m.store with
  | .ok s => { m with store := s }
  | .error _ => m

/-- The BFD options count only when they are enabled. -/
def peerOf (neighborAddr : String) (remoteAs : Nat) (bfd : Option BfdOptions) : PeerIntent :=
  let b := (bfd.filter (·.enabled)).getD ⟨false, 0, 0, 0⟩
  ⟨neighborAddr, remoteAs, .external, 0, 0, b.enabled, b.minRxMs, b.minTxMs, b.detectMultiplier,
    "", [.ipv4Unicast], "", 0, "", 0⟩

def applyPeer (m : RoutingManager) (neighborAddr : String) (remoteAs : Nat)
    (bfd : Option BfdOptions) : Except (String × IntentError) RoutingManager :=
  m.update ("setting peer intent for " ++ neighborAddr)
    (setPeerIntent m.owner (peerOf neighborAddr remoteAs bfd))

def removePeer (m : RoutingManager) (neighborAddr : String) :
    Except (String × IntentError) RoutingManager :=
  m.update ("removing peer intent for " ++ neighborAddr) (removePeerIntent m.owner neighborAddr)

def advertisePrefix (m : RoutingManager) (pfx : String) :
    Except (String × IntentError) RoutingManager :=
  m.update ("setting prefix intent for " ++ pfx) (setPrefixIntent m.owner ⟨pfx, .bgp, 0, [], 0, ""⟩)

def withdrawPrefix (m : RoutingManager) (pfx : String) : RoutingManager :=
  m.updateIfFound (removePrefixIntent m.owner pfx .bgp)

def enableBfd (m : RoutingManager) (peerAddr : String) (minRxMs minTxMs detectMult : Nat)
    (iface : String) : Except (String × IntentError) RoutingManager :=
  m.update ("setting BFD intent for " ++ peerAddr)
    (setBfdIntent m.owner ⟨peerAddr, minRxMs, minTxMs, detectMult, iface⟩)

def disableBfd (m : RoutingManager) (peerAddr : String) : RoutingManager :=
  m.updateIfFound (removeBfdIntent m.owner peerAddr)

def enableOspf (m : RoutingManager) (ifaceName areaId : String) (passive : Bool)
    (cost hello dead : Nat) (ipv6 : Bool) : Except (String × IntentError) RoutingManager :=
  m.update ("setting OSPF intent for " ++ ifaceName)
    (setOspfIntent m.owner ⟨ifaceName, areaId, passive, cost, hello, dead, ipv6⟩)

def disableOspf (m : RoutingManager) (ifaceName : String) : RoutingManager :=
  m.updateIfFound (removeOspfIntent m.owner ifaceName)

end RoutingManager

end NovaNet
