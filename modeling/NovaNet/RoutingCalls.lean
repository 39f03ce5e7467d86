import NovaNet.RoutingEvents

/-! The calls of the reconciler beside its cycle: one intent applied or removed, everything
withdrawn, another AS (internal/routing/reconciler). They work on the same records. -/

namespace NovaNet

open ErrorState
open FrrClient (send)

inductive IntentValue where
  | peer (p : PeerIntent)
  | pfx (p : PrefixIntent)
  | bfd (b : BfdIntent)
  | ospf (o : OspfIntent)
  | other

inductive IntentCallError where
  | unexpectedIntentType
  | unknownIntentType (intentType : String)
  | intentNotFound (what key : String)
  | failed (cause : RoutingError)

abbrev IntentCall := EStateM IntentCallError Reconciler Unit

def recorded (x : RoutingCall) (record : Reconciler → Reconciler) : IntentCall := fun r =>
  match x r with
  | .ok _ r' => .ok () (record r')
  | .error e r' => .error (.failed e) r'

section Calls

variable (names : FrrNames)

def applyIntent (intentType : String) (value : IntentValue) : IntentCall :=
  if intentType = "peer" then
    match value with
    | .peer p => recorded (applyPeerIntent names p) fun r =>
        { r with appliedPeers := r.appliedPeers.insert p.neighborAddress p }
    | _ => throw .unexpectedIntentType
  else if intentType = "prefix" then
    match value with
    | .pfx p => recorded (applyPrefixIntent names p) fun r =>
        { r with appliedPrefixes := r.appliedPrefixes.insert p.key p }
    | _ => throw .unexpectedIntentType
  else if intentType = "bfd" then
    match value with
    | .bfd b => recorded (applyBfdIntent names b) fun r =>
        { r with appliedBfd := r.appliedBfd.insert b.peerAddress b }
    | _ => throw .unexpectedIntentType
  else if intentType = "ospf" then
    match value with
    | .ospf o => recorded (applyOspfIntent names o) fun r =>
        { r with appliedOspf := r.appliedOspf.insert o.interfaceName o }
    | _ => throw .unexpectedIntentType
  else throw (.unknownIntentType intentType)

def protocolString : RouteProtocol → String
  | .unspecified => "unknown"
  | .bgp => "bgp"
  | .ospf => "ospf"

def prefixKeyOf (key : String) : Option PrefixKey :=
  [RouteProtocol.bgp, .ospf, .unspecified].findSome? fun protocol =>
    let head := (protocolString protocol ++ ":").toList
    if head <+: key.toList then some (protocol, String.ofList (key.toList.drop head.length))
    else none

def removeFound {α : Type} (what key : String) (found : Option α) (call : α → RoutingCall)
    (record : Reconciler → Reconciler) : IntentCall :=
  match found with
  | none => throw (.intentNotFound what key)
  | some a => recorded (call a) record

/-- Unlike the removal in a cycle, this one does not look at the session of the peer. -/
def removePeerIntent (key : String) : IntentCall := fun r =>
  removeFound "peer" key (r.appliedPeers.lookup key)
    (fun ap => callFrr ("remove neighbor " ++ ap.neighborAddress)
      (send names (removeNeighbor ap.neighborAddress)))
    (fun r' => { r' with appliedPeers := r'.appliedPeers.erase key }) r

def removePrefixIntent (key : String) : IntentCall := fun r =>
  removeFound "prefix" key ((prefixKeyOf key).bind r.appliedPrefixes.lookup)
    (removePrefixFromFrr names)
    (fun r' => { r' with
      appliedPrefixes := (prefixKeyOf key).elim r'.appliedPrefixes r'.appliedPrefixes.erase }) r

def removeBfdIntent (key : String) : IntentCall := fun r =>
  removeFound "BFD" key (r.appliedBfd.lookup key)
    (fun ab => callFrr ("remove BFD peer " ++ key) (send names (removeBfdPeer key ab.interfaceName)))
    (fun r' => { r' with appliedBfd := r'.appliedBfd.erase key }) r

def removeOspfIntent (key : String) : IntentCall := fun r =>
  removeFound "OSPF" key (r.appliedOspf.lookup key) (removeOspfFromFrr names)
    (fun r' => { r' with appliedOspf := r'.appliedOspf.erase key }) r

def removeIntent (intentType key : String) : IntentCall :=
  if intentType = "peer" then removePeerIntent names key
  else if intentType = "prefix" then removePrefixIntent names key
  else if intentType = "bfd" then removeBfdIntent names key
  else if intentType = "ospf" then removeOspfIntent names key
  else throw (.unknownIntentType intentType)

section Withdraw

def withdrawKey {κ α : Type} (applied : Reconciler → Finmap fun _ : κ => α) [DecidableEq κ]
    (call : α → RoutingCall) (forget : κ → Reconciler → Reconciler) (k : κ) : RoutingCall :=
  fun r =>
    match (applied r).lookup k with
    | none => .ok () r
    | some a => (do call a; modify (forget k) : RoutingCall) r

def forgetPrefix (k : PrefixKey) (r : Reconciler) : Reconciler :=
  { r with appliedPrefixes := r.appliedPrefixes.erase k }

/-- A route-map that stays is an error, but the record of the prefix goes with the network. -/
def withdrawPrefixKey (k : PrefixKey) : RoutingCall := fun r =>
  match r.appliedPrefixes.lookup k with
  | none => .ok () r
  | some p =>
    if p.protocol = .bgp then
      (do
        callFrr ("withdraw prefix " ++ p.pfx) (send names (withdrawNetwork p.pfx (detectAfi p.pfx)))
        modify (forgetPrefix k)
        if p.HasAttributes then
          callFrr ("remove route-map " ++ routeMapName p.pfx)
            (send names (removeRouteMap (routeMapName p.pfx))) : RoutingCall) r
    else .ok () (forgetPrefix k r)

def withdrawBfdKey (k : String) : RoutingCall :=
  withdrawKey Reconciler.appliedBfd
    (fun b => callFrr ("remove BFD peer " ++ b.peerAddress)
      (send names (removeBfdPeer b.peerAddress b.interfaceName)))
    (fun k r => { r with appliedBfd := r.appliedBfd.erase k }) k

def withdrawOspfKey (k : String) : RoutingCall :=
  withdrawKey Reconciler.appliedOspf
    (fun o => callFrr ("disable OSPF " ++ o.interfaceName ++ " (area " ++ o.areaId ++ ")")
      (send names o.disableRequest))
    (fun k r => { r with appliedOspf := r.appliedOspf.erase k }) k

def withdrawPeerKey (k : String) : RoutingCall :=
  withdrawKey Reconciler.appliedPeers
    (fun p => callFrr ("remove peer " ++ p.neighborAddress)
      (send names (removeNeighbor p.neighborAddress)))
    (fun k r => { r with appliedPeers := r.appliedPeers.erase k }) k

def withdrawAll (o : RoutingOrders) (r : Reconciler) : List RoutingError × Reconciler :=
  if r.hasFrr then
    let prefixes := forEachKey (withdrawPrefixKey names) (o.prefixes.enum [0] r.appliedPrefixes.keys) r
    let bfd := forEachKey (withdrawBfdKey names)
      (o.texts.enum [1] prefixes.2.appliedBfd.keys) prefixes.2
    let ospf := forEachKey (withdrawOspfKey names) (o.texts.enum [2] bfd.2.appliedOspf.keys) bfd.2
    let peers := forEachKey (withdrawPeerKey names) (o.texts.enum [3] ospf.2.appliedPeers.keys) ospf.2
    (prefixes.1 ++ bfd.1 ++ ospf.1 ++ peers.1, peers.2)
  else ([], r)

end Withdraw

end Calls

/-- A call of the reconciler, with the failures of vtysh that it meets. The intents are those
that the store holds then. -/
inductive ReconcilerCall where
  | reconcile (o : RoutingOrders) (store : IntentStore) (fails : VtyFaults)
  | applyIntent (intentType : String) (value : IntentValue) (fails : VtyFaults)
  | removeIntent (intentType key : String) (fails : VtyFaults)
  | withdrawAll (o : RoutingOrders) (fails : VtyFaults)
  | updateBgpGlobal (localAs : Nat) (routerId : String)

def intentStateAfter (x : IntentCall) (r : Reconciler) : Reconciler :=
  match x r with
  | .ok _ r' => r'
  | .error _ r' => r'

namespace Reconciler

variable (names : FrrNames)

def call (r : Reconciler) : ReconcilerCall → Reconciler
  | .reconcile o store fails => stateAfter (NovaNet.reconcile names o store) (r.begin fails)
  | .applyIntent intentType value fails =>
    intentStateAfter (NovaNet.applyIntent names intentType value) (r.begin fails)
  | .removeIntent intentType key fails =>
    intentStateAfter (NovaNet.removeIntent names intentType key) (r.begin fails)
  | .withdrawAll o fails => (NovaNet.withdrawAll names o (r.begin fails)).2
  | .updateBgpGlobal localAs routerId => NovaNet.updateBgpGlobal localAs routerId r

def calls (r : Reconciler) (cs : List ReconcilerCall) : Reconciler := cs.foldl (call names) r

end Reconciler

end NovaNet
