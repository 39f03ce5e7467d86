import NovaNet.RoutingReconciler

/-! Runs of the routing manager: changes of its intents and reconciliations, and what the
intents of its one owner come to. -/

namespace NovaNet

open KeyedConfig LastWrite IntentStore

/-- A change of the intents through the manager. `setPeer` and `setPrefix` are the calls on its
store, which take every attribute. -/
inductive IntentChange where
  | applyPeer (neighborAddr : String) (remoteAs : Nat) (bfd : Option BfdOptions)
  | setPeer (p : PeerIntent)
  | removePeer (neighborAddr : String)
  | advertisePrefix (pfx : String)
  | setPrefix (p : PrefixIntent)
  | withdrawPrefix (pfx : String)
  | enableBfd (peerAddr : String) (minRxMs minTxMs detectMult : Nat) (iface : String)
  | disableBfd (peerAddr : String)
  | enableOspf (ifaceName areaId : String) (passive : Bool) (cost hello dead : Nat) (ipv6 : Bool)
  | disableOspf (ifaceName : String)

inductive RoutingEvent where
  | change (c : IntentChange)
  | reconcile (o : RoutingOrders) (fails : VtyFaults)

def neverFails : VtyFaults := fun _ _ => false

def stateAfter (x : RoutingCall) (r : Reconciler) : Reconciler :=
  match x r with
  | .ok _ r' => r'
  | .error _ r' => r'

def Reconciler.begin (fails : VtyFaults) (r : Reconciler) : Reconciler :=
  { r with frr := { r.frr with sent := [], fails := fails } }

namespace RoutingManager

/-- A call that fails leaves the manager as it was. -/
def orSame (m : RoutingManager) (x : Except (String × IntentError) RoutingManager) :
    RoutingManager :=
  match x with
  | .ok m' => m'
  | .error _ => m

def change (m : RoutingManager) : IntentChange → RoutingManager
  | .applyPeer neighborAddr remoteAs bfd => m.orSame (m.applyPeer neighborAddr remoteAs bfd)
  | .setPeer p => m.updateIfFound (setPeerIntent m.owner p)
  | .removePeer neighborAddr => m.orSame (m.removePeer neighborAddr)
  | .advertisePrefix pfx => m.orSame (m.advertisePrefix pfx)
  | .setPrefix p => m.updateIfFound (setPrefixIntent m.owner p)
  | .withdrawPrefix pfx => m.withdrawPrefix pfx
  | .enableBfd peerAddr minRxMs minTxMs detectMult iface =>
    m.orSame (m.enableBfd peerAddr minRxMs minTxMs detectMult iface)
  | .disableBfd peerAddr => m.disableBfd peerAddr
  | .enableOspf ifaceName areaId passive cost hello dead ipv6 =>
    m.orSame (m.enableOspf ifaceName areaId passive cost hello dead ipv6)
  | .disableOspf ifaceName => m.disableOspf ifaceName

variable (names : FrrNames)

def step (m : RoutingManager) : RoutingEvent → RoutingManager
  | .change c => m.change c
  | .reconcile o fails =>
    { m with
      reconciler := stateAfter (NovaNet.reconcile names o m.store) (m.reconciler.begin fails) }

def run (m : RoutingManager) (events : List RoutingEvent) : RoutingManager :=
  events.foldl (step names) m

def desired (m : RoutingManager) : OwnerIntents := (m.store.lookup m.owner).getD newOwnerIntents

def peersInUse (m : RoutingManager) : Set String :=
  {k | k ∈ m.desired.peers ∨ k ∈ m.reconciler.appliedPeers}

def addrsInUse (m : RoutingManager) : Set String :=
  {k | k ∈ m.peersInUse ∨ k ∈ m.desired.bfd ∨ k ∈ m.reconciler.appliedBfd}

def networksInUse (m : RoutingManager) : Set String :=
  {pfx | (RouteProtocol.bgp, pfx) ∈ m.desired.prefixes ∨
    (RouteProtocol.bgp, pfx) ∈ m.reconciler.appliedPrefixes}

end RoutingManager

section OneOwner

structure OwnerIntents.WellKeyed (d : OwnerIntents) : Prop where
  peers : Keyed PeerIntent.neighborAddress (fun _ => True) d.peers
  prefixes : Keyed PrefixIntent.key (fun _ => True) d.prefixes
  bfd : Keyed BfdIntent.peerAddress (fun _ => True) d.bfd
  ospf : Keyed OspfIntent.interfaceName (fun _ => True) d.ospf

theorem wellKeyed_new : newOwnerIntents.WellKeyed :=
  ⟨Keyed.empty, Keyed.empty, Keyed.empty, Keyed.empty⟩

structure IntentStore.OneOwner (owner : String) (s : IntentStore) : Prop where
  only : ∀ w ∈ s, w = owner
  keyed : ((s.lookup owner).getD newOwnerIntents).WellKeyed

variable {owner : String} {s s' : IntentStore}

theorem IntentStore.OneOwner.empty (owner : String) : OneOwner owner ∅ :=
  ⟨fun _ h => absurd h Finmap.notMem_empty, by simpa using wellKeyed_new⟩

theorem IntentStore.OneOwner.insert (h : OneOwner owner s) {d : OwnerIntents}
    (hd : d.WellKeyed) : OneOwner owner (s.insert owner d) where
  only := forall_mem_insert rfl h.only
  keyed := by simpa using hd

theorem notEmpty_bind_eq_ok {β : Type} {t : String} {e : IntentError}
    {f : Unit → Except IntentError β} {b : β} (h : (notEmpty t e >>= f) = .ok b) :
    f () = .ok b := by
  unfold notEmpty at h
  split at h
  · cases h
  · exact h

theorem setIntent_oneOwner {validate : Except IntentError Unit}
    {execute : OwnerIntents → OwnerIntents}
    (hexec : ∀ d, d.WellKeyed → (execute d).WellKeyed) (hs : s.OneOwner owner)
    (h : setIntent owner validate execute s = .ok s') : s'.OneOwner owner := by
  have h := notEmpty_bind_eq_ok h
  cases hv : validate with
  | error e => rw [hv] at h; cases h
  | ok u =>
    rw [hv] at h
    cases h
    exact hs.insert (hexec _ hs.keyed)

theorem removeIntent_oneOwner {validate : Except IntentError Unit} {present : OwnerIntents → Bool}
    {delete : OwnerIntents → OwnerIntents}
    (hdel : ∀ d, d.WellKeyed → (delete d).WellKeyed) (hs : s.OneOwner owner)
    (h : removeIntent owner validate present delete s = .ok s') :
    s'.OneOwner owner := by
  have h := notEmpty_bind_eq_ok h
  cases hv : validate with
  | error e => rw [hv] at h; cases h
  | ok u =>
    rw [hv] at h
    replace h : deleteFound owner present delete s = .ok s' := h
    unfold deleteFound at h
    cases hd : s.lookup owner with
    | none => rw [hd] at h; cases h
    | some d =>
      have hkeyed := hs.keyed
      rw [hd] at h hkeyed
      dsimp only at h
      split at h
      · cases h
        exact hs.insert (hdel d hkeyed)
      · cases h

/-- A call that keeps the intents under their keys keeps the store so. -/
def KeepsOwner (owner : String) (call : IntentStore → Except IntentError IntentStore) : Prop :=
  ∀ s s', s.OneOwner owner → call s = .ok s' → s'.OneOwner owner

theorem setPeerIntent_keeps (p : PeerIntent) : KeepsOwner owner (setPeerIntent owner p) := fun _ _ =>
  setIntent_oneOwner fun _ hd => { hd with peers := hd.peers.insert trivial }

theorem removePeerIntent_keeps (addr : String) :
    KeepsOwner owner (removePeerIntent owner addr) := fun _ _ =>
  removeIntent_oneOwner fun _ hd => { hd with peers := hd.peers.erase addr }

theorem setPrefixIntent_keeps (p : PrefixIntent) :
    KeepsOwner owner (setPrefixIntent owner p) := fun _ _ =>
  setIntent_oneOwner fun _ hd => { hd with prefixes := hd.prefixes.insert trivial }

theorem removePrefixIntent_keeps (pfx : String) (protocol : RouteProtocol) :
    KeepsOwner owner (removePrefixIntent owner pfx protocol) := fun _ _ =>
  removeIntent_oneOwner fun _ hd => { hd with prefixes := hd.prefixes.erase (protocol, pfx) }

theorem setBfdIntent_keeps (b : BfdIntent) : KeepsOwner owner (setBfdIntent owner b) := fun _ _ =>
  setIntent_oneOwner fun _ hd => { hd with bfd := hd.bfd.insert trivial }

theorem removeBfdIntent_keeps (addr : String) :
    KeepsOwner owner (removeBfdIntent owner addr) := fun _ _ =>
  removeIntent_oneOwner fun _ hd => { hd with bfd := hd.bfd.erase addr }

theorem setOspfIntent_keeps (o : OspfIntent) : KeepsOwner owner (setOspfIntent owner o) := fun _ _ =>
  setIntent_oneOwner fun _ hd => { hd with ospf := hd.ospf.insert trivial }

theorem removeOspfIntent_keeps (iface : String) :
    KeepsOwner owner (removeOspfIntent owner iface) := fun _ _ =>
  removeIntent_oneOwner fun _ hd => { hd with ospf := hd.ospf.erase iface }

end OneOwner

namespace RoutingManager

variable {m : RoutingManager}

structure ChangedStore (m m' : RoutingManager) : Prop where
  owner : m'.owner = m.owner
  reconciler : m'.reconciler = m.reconciler
  store : m.store.OneOwner m.owner → m'.store.OneOwner m'.owner

theorem ChangedStore.refl (m : RoutingManager) : ChangedStore m m := ⟨rfl, rfl, id⟩

theorem updateIfFound_changed {call : IntentStore → Except IntentError IntentStore}
    (h : KeepsOwner m.owner call) : ChangedStore m (m.updateIfFound call) := by
  unfold updateIfFound
  cases hcall : call m.store with
  | ok s => exact ⟨rfl, rfl, fun hs => h _ _ hs hcall⟩
  | error e => exact ChangedStore.refl m

theorem update_changed {call : IntentStore → Except IntentError IntentStore} {context : String}
    (h : KeepsOwner m.owner call) : ChangedStore m (m.orSame (m.update context call)) := by
  unfold update
  cases hcall : call m.store with
  | ok s => exact ⟨rfl, rfl, fun hs => h _ _ hs hcall⟩
  | error e => exact ChangedStore.refl m

theorem change_changed (m : RoutingManager) (c : IntentChange) : ChangedStore m (m.change c) := by
  cases c with
  | applyPeer neighborAddr remoteAs bfd => exact update_changed (setPeerIntent_keeps _)
  | setPeer p => exact updateIfFound_changed (setPeerIntent_keeps _)
  | removePeer neighborAddr => exact update_changed (removePeerIntent_keeps _)
  | advertisePrefix pfx => exact update_changed (setPrefixIntent_keeps _)
  | setPrefix p => exact updateIfFound_changed (setPrefixIntent_keeps _)
  | withdrawPrefix pfx => exact updateIfFound_changed (removePrefixIntent_keeps _ _)
  | enableBfd peerAddr minRxMs minTxMs detectMult iface =>
    exact update_changed (setBfdIntent_keeps _)
  | disableBfd peerAddr => exact updateIfFound_changed (removeBfdIntent_keeps _)
  | enableOspf ifaceName areaId passive cost hello dead ipv6 =>
    exact update_changed (setOspfIntent_keeps _)
  | disableOspf ifaceName => exact updateIfFound_changed (removeOspfIntent_keeps _)

theorem step_oneOwner (names : FrrNames) (h : m.store.OneOwner m.owner) (e : RoutingEvent) :
    (m.step names e).store.OneOwner (m.step names e).owner := by
  cases e with
  | change c => exact (change_changed m c).store h
  | reconcile o fails => exact h

theorem run_oneOwner (names : FrrNames) (h : m.store.OneOwner m.owner)
    (events : List RoutingEvent) :
    (m.run names events).store.OneOwner (m.run names events).owner := by
  induction events generalizing m with
  | nil => exact h
  | cons e events ih => exact ih (step_oneOwner names h e)

end RoutingManager

section Desired

variable {κ α : Type} [DecidableEq κ] {F : Family κ α} {owner : String} {s : IntentStore}

theorem mem_collect (hs : s.OneOwner owner) (owners : IterOrder String) (keys : IterOrder κ)
    (family : OwnerIntents → Finmap fun _ : κ => α) (hnew : family newOwnerIntents = ∅) {a : α} :
    a ∈ s.collect owners keys family ↔
      ∃ k, (family ((s.lookup owner).getD newOwnerIntents)).lookup k = some a := by
  simp only [collect, List.mem_flatMap, IterOrder.mem_enum, Finmap.mem_keys,
    List.mem_filterMap, Option.mem_toList]
  constructor
  · rintro ⟨w, hw, d, hd, k, -, ha⟩
    rw [hs.only w hw] at hd
    rw [hd]
    exact ⟨k, ha⟩
  · rintro ⟨k, ha⟩
    cases hd : s.lookup owner with
    | none =>
      rw [hd, Option.getD_none, hnew] at ha
      simp at ha
    | some d =>
      rw [hd, Option.getD_some] at ha
      refine ⟨owner, Finmap.mem_of_lookup_eq_some hd, d, hd, k, ?_, ha⟩
      exact Finmap.mem_of_lookup_eq_some ha

theorem desiredMap_collect (hs : s.OneOwner owner) (owners : IterOrder String)
    (keys : IterOrder κ) (family : OwnerIntents → Finmap fun _ : κ => α)
    (hnew : family newOwnerIntents = ∅)
    (hkeyed : Keyed F.key (fun _ => True) (family ((s.lookup owner).getD newOwnerIntents))) :
    F.desiredMap (s.collect owners keys family) = family ((s.lookup owner).getD newOwnerIntents) := by
  refine Finmap.ext_lookup fun k => ?_
  rw [Family.desiredMap, lookup_assign_empty]
  have hmem {a} := mem_collect hs owners keys family hnew (a := a)
  have hvalue : ∀ e ∈ (s.collect owners keys family).map (fun a => (F.key a, a)),
      (family ((s.lookup owner).getD newOwnerIntents)).lookup e.1 = some e.2 := by
    rw [List.forall_mem_map]
    intro a ha
    obtain ⟨k', hk'⟩ := hmem.mp ha
    rwa [(hkeyed k' a hk').1]
  cases hk : (family ((s.lookup owner).getD newOwnerIntents)).lookup k with
  | none =>
    refine written_eq_none_iff.mpr fun e he heq => ?_
    have := hvalue e he
    rw [heq, hk] at this
    cases this
  | some a =>
    refine (written_of_forall fun e he heq => ?_).mpr ?_
    · have := hvalue e he
      rw [heq, hk] at this
      exact (Option.some.inj this).symm
    · exact ⟨(F.key a, a), List.mem_map.mpr ⟨a, hmem.mpr ⟨k, hk⟩, rfl⟩, (hkeyed k a hk).1⟩

variable {names : FrrNames} {m : RoutingManager} (h : m.store.OneOwner m.owner) (o : RoutingOrders)

include h

theorem desiredMap_peers : (peerFamily names).desiredMap (m.store.getPeerIntents o) = m.desired.peers :=
  desiredMap_collect h _ _ _ rfl h.keyed.peers

theorem desiredMap_prefixes :
    (prefixFamily names).desiredMap (m.store.getPrefixIntents o) = m.desired.prefixes :=
  desiredMap_collect h _ _ _ rfl h.keyed.prefixes

theorem desiredMap_bfd : (bfdFamily names).desiredMap (m.store.getBfdIntents o) = m.desired.bfd :=
  desiredMap_collect h _ _ _ rfl h.keyed.bfd

theorem desiredMap_ospf : (ospfFamily names).desiredMap (m.store.getOspfIntents o) = m.desired.ospf :=
  desiredMap_collect h _ _ _ rfl h.keyed.ospf

end Desired

end NovaNet
