import NovaNet.RoutingOutcomes
import NovaNet.RoutingSettled

/-! The applied peers and prefixes against the BGP instance, over changes of the AS and new
clients. A failure between the removal of the old instance and the creation of the new one
leaves records of what FRR has lost. -/

namespace NovaNet

open ErrorState Finmap KeyedConfig LastWrite RouteProtocol PrefixIntent PeerIntent

attribute [local simp] FrrLine.object InRouteMap

/-- A run in which the AS and the client change too. A new client comes with an empty FRR. -/
inductive InstanceEvent where
  | routing (e : RoutingEvent)
  | updateBgpGlobal (localAs : Nat) (routerId : String)
  | setFrrClient

namespace RoutingManager

variable (names : FrrNames)

def instanceStep (m : RoutingManager) : InstanceEvent → RoutingManager
  | .routing e => m.step names e
  | .updateBgpGlobal localAs routerId =>
    { m with reconciler := updateBgpGlobal localAs routerId m.reconciler }
  | .setFrrClient => { m with reconciler := setFrrClient newFrrClient m.reconciler }

def instanceRun (m : RoutingManager) (events : List InstanceEvent) : RoutingManager :=
  events.foldl (instanceStep names) m

end RoutingManager

def HasNetwork (names : FrrNames) (c : FrrConfig) (pfx : String) : Prop :=
  (c (.network (prefixAfi pfx) (names.network pfx))).isSome = true

structure Recorded (names : FrrNames) (r : Reconciler) : Prop where
  peers : ∀ k ∈ r.appliedPeers, r.Ready ∧ HasNeighbor names r.frr.running k
  prefixes : ∀ pfx, (bgp, pfx) ∈ r.appliedPrefixes → r.Ready ∧ HasNetwork names r.frr.running pfx

/-- The condition on a cycle: no two texts in use name one neighbor or one network, BGP counts
as configured only with a client that knows its AS, and a new instance is not refused after
the old one was removed. -/
structure SoundCycle (names : FrrNames) (m : RoutingManager)
    (fails : VtyFaults) : Prop where
  addrs : Set.InjOn names.addr m.peersInUse
  networks : Set.InjOn names.network m.networksInUse
  client : m.reconciler.bgpConfigured = true → m.reconciler.frr.localAs ≠ 0
  creation : ∀ g, m.reconciler.bgpConfigured = false → m.reconciler.bgpGlobal = some g →
    m.reconciler.frr.localAs ≠ 0 → m.reconciler.frr.localAs ≠ g.localAs →
    ∀ n, fails n (bgpGlobalCommands g.localAs g.routerId) = false

def SoundRun (names : FrrNames) : RoutingManager → List InstanceEvent → Prop
  | _, [] => True
  | m, e :: events =>
    (∀ o fails, e = .routing (.reconcile o fails) → SoundCycle names m fails) ∧
      SoundRun names (m.instanceStep names e) events

structure Grounded (names : FrrNames) (r : Reconciler) : Prop where
  hasFrr : r.hasFrr = true
  live : LiveInstance r.frr.localAs r.frr.running
  global : r.bgpConfigured = true → r.frr.localAs ≠ 0 →
    ∃ g, r.bgpGlobal = some g ∧ g.localAs = r.frr.localAs
  keyedPeers : Keyed neighborAddress (fun _ => True) r.appliedPeers
  keyedPrefixes : Keyed key (fun _ => True) r.appliedPrefixes
  peers : ∀ k ∈ r.appliedPeers, r.frr.localAs ≠ 0 ∧ HasNeighbor names r.frr.running k
  prefixes : ∀ pfx, (bgp, pfx) ∈ r.appliedPrefixes →
    r.frr.localAs ≠ 0 ∧ HasNetwork names r.frr.running pfx

section Cycle

variable {names : FrrNames} {P X : Set String} {r r' : Reconciler}

theorem Grounded.recorded (h : Grounded names r) : Recorded names r where
  peers k hk := ⟨h.live.ready (h.peers k hk).1, (h.peers k hk).2⟩
  prefixes pfx hk := ⟨h.live.ready (h.prefixes pfx hk).1, (h.prefixes pfx hk).2⟩

structure CycleInv (names : FrrNames) (P X : Set String) (r : Reconciler) : Prop where
  grounded : Grounded names r
  alive : r.frr.localAs ≠ 0
  configured : r.bgpConfigured = true
  peersIn : ∀ k ∈ r.appliedPeers, k ∈ P
  prefixesIn : ∀ pfx, (bgp, pfx) ∈ r.appliedPrefixes → pfx ∈ X

theorem CycleInv.ready (h : CycleInv names P X r) : r.Ready := h.grounded.live.ready h.alive

structure SameInstance (r r' : Reconciler) : Prop where
  hasFrr : r'.hasFrr = r.hasFrr
  bgpGlobal : r'.bgpGlobal = r.bgpGlobal
  bgpConfigured : r'.bgpConfigured = r.bgpConfigured
  localAs : r'.frr.localAs = r.frr.localAs
  routerBgp : r'.frr.running .routerBgp = r.frr.running .routerBgp

theorem CycleInv.of_same (h : CycleInv names P X r) (hsame : SameInstance r r')
    (hkeyedPeers : Keyed neighborAddress (fun _ => True) r'.appliedPeers)
    (hkeyedPrefixes : Keyed key (fun _ => True) r'.appliedPrefixes)
    (hpeers : ∀ k ∈ r'.appliedPeers, k ∈ P ∧ HasNeighbor names r'.frr.running k)
    (hprefixes : ∀ pfx, (bgp, pfx) ∈ r'.appliedPrefixes →
      pfx ∈ X ∧ HasNetwork names r'.frr.running pfx) : CycleInv names P X r' := by
  have halive : r'.frr.localAs ≠ 0 := by
    rw [hsame.localAs]
    exact h.alive
  refine ⟨⟨hsame.hasFrr.trans h.grounded.hasFrr, ?_, ?_, hkeyedPeers, hkeyedPrefixes,
    fun k hk => ⟨halive, (hpeers k hk).2⟩, fun pfx hk => ⟨halive, (hprefixes pfx hk).2⟩⟩, halive,
    hsame.bgpConfigured.trans h.configured, fun k hk => (hpeers k hk).1,
    fun pfx hk => (hprefixes pfx hk).1⟩
  · rw [hsame.localAs]
    exact ⟨fun h0 => absurd h0 h.alive, fun h0 => hsame.routerBgp.trans (h.grounded.live.2 h0)⟩
  · rw [hsame.bgpConfigured, hsame.bgpGlobal, hsame.localAs]
    exact h.grounded.global

variable {o : RoutingOrders} {c : FrrConfig} {addr k pfx : String} {p : PrefixIntent}

theorem PeerTurn.neighbor (h : PeerTurn names addr r r') (hne : names.addr k ≠ names.addr addr)
    (hk : HasNeighbor names r.frr.running k) : HasNeighbor names r'.frr.running k := by
  unfold HasNeighbor
  rwa [h.other _ (by simpa [PeerOwns] using hne) (by simp [BfdOwns])]

theorem PeerTurn.network (h : PeerTurn names addr r r') (hk : HasNetwork names r.frr.running pfx) :
    HasNetwork names r'.frr.running pfx := by
  unfold HasNetwork
  rwa [h.other _ (by simp [PeerOwns]) (by simp [BfdOwns])]

/-- A turn at a peer, after which the record of the peers is `f` of the old one. -/
theorem CycleInv.peerTurn (h : CycleInv names P X r) (hP : Set.InjOn names.addr P) (hk : k ∈ P)
    (hturn : PeerTurn names k r r')
    (f : PeerMap → PeerMap)
    (hkeyed : Keyed neighborAddress (fun _ => True) (f r.appliedPeers))
    (hold : ∀ k' ∈ f r.appliedPeers, k' ≠ k → k' ∈ r.appliedPeers)
    (hown : k ∈ f r.appliedPeers → HasNeighbor names r'.frr.running k) :
    CycleInv names P X { r' with appliedPeers := f r'.appliedPeers } := by
  obtain ⟨c, s, managed, bfd, rfl⟩ := hturn.exists_eq
  refine h.of_same ⟨rfl, rfl, rfl, rfl, hturn.other _ (by simp [PeerOwns]) (by simp [BfdOwns])⟩
    hkeyed h.grounded.keyedPrefixes (fun k' hk' => ?_)
    fun pfx hx => ⟨h.prefixesIn pfx hx, hturn.network (h.grounded.prefixes pfx hx).2⟩
  by_cases heq : k' = k
  · subst heq
    exact ⟨hk, hown hk'⟩
  · have hmem := hold k' hk' heq
    exact ⟨h.peersIn k' hmem, hturn.neighbor (fun haddr => heq (hP (h.peersIn k' hmem) hk haddr))
      (h.grounded.peers k' hmem).2⟩

theorem reconcilePeers_cycleInv {desired : List PeerIntent} (hP : Set.InjOn names.addr P)
    (hkeyed : Keyed neighborAddress (fun _ => True) ((peerFamily names).desiredMap desired))
    (hin : ∀ k ∈ (peerFamily names).desiredMap desired, k ∈ P) :
    Keeps (reconcilePeers names o desired) (CycleInv names P X) := by
  refine Family.reconcile_invariant _ ⟨fun k p r hk _ hr => ?_, fun k p r _ hk _ hr => ?_⟩
  · obtain rfl := (hkeyed k p hk).1
    have hmem : p.neighborAddress ∈ P := hin _ (mem_of_lookup_eq_some hk)
    refine (applyPeerIntent_outcome hr.ready).imp ?_ ?_
    · rintro _ ⟨-, s, rfl⟩
      obtain ⟨hturn, hnbr⟩ := p.appliedState_turn names r s
      exact hr.peerTurn hP hmem hturn (·.insert _ p) (hr.grounded.keyedPeers.insert trivial)
        (fun _ hk' hne => (mem_insert.mp hk').resolve_left hne) fun _ => hnbr
    · rintro r' ⟨-, hhalf⟩
      obtain ⟨hturn, hstays⟩ := hhalf.turn
      exact hr.peerTurn hP hmem hturn id hr.grounded.keyedPeers (fun _ hk' _ => hk')
        fun hk' => hstays (hr.grounded.peers _ hk').2
  · obtain rfl := (hr.grounded.keyedPeers k p hk).1
    have hmem : p.neighborAddress ∈ P := hr.peersIn _ (mem_of_lookup_eq_some hk)
    refine (removePeer_outcome hr.ready).imp ?_ ?_
    · rintro _ ⟨c, s, hc, rfl⟩
      exact hr.peerTurn hP hmem (unlinkedState_turn hc (fun i hi => if_neg hi) s) (·.erase _)
        (hr.grounded.keyedPeers.erase _) (fun _ hk' _ => (mem_erase.mp hk').2)
        fun hk' => absurd rfl (mem_erase.mp hk').1
    · rintro _ ⟨-, c, c', s, hc, htouch, rfl⟩
      refine hr.peerTurn hP hmem (unlinkedState_turn hc htouch.other s) id hr.grounded.keyedPeers
        (fun _ hk' _ => hk') fun hk' => htouch.stays ?_
      rw [hc.other (by simp [BfdOwns])]
      exact (hr.grounded.peers _ hk').2

theorem CycleInv.prefixTurn (h : CycleInv names P X r)
    (hc : ∀ i, i = .routerBgp ∨ (∃ a, i = .neighbor a .remoteAs) → c i = r.frr.running i)
    (s : VtyBatches) {m : PrefixMap}
    (hkeyed : Keyed key (fun _ => True) m)
    (hm : ∀ pfx, (bgp, pfx) ∈ m → pfx ∈ X ∧ HasNetwork names c pfx) :
    CycleInv names P X { r.after c s with appliedPrefixes := m } := by
  refine h.of_same ⟨rfl, rfl, rfl, rfl, hc _ (.inl rfl)⟩ h.grounded.keyedPeers hkeyed
    (fun k hk => ⟨h.peersIn k hk, ?_⟩) hm
  change (c _).isSome = true
  rw [hc _ (.inr ⟨_, rfl⟩)]
  exact (h.grounded.peers k hk).2

theorem Loses.bgp {c' : FrrConfig} (h : Loses pfx c c') (i : FrrLine)
    (hi : i = .routerBgp ∨ ∃ a, i = .neighbor a .remoteAs) : c' i = c i := by
  refine h.other ?_
  rcases hi with rfl | ⟨a, rfl⟩
  · simp
  · simp

theorem CycleInv.insertPrefix (h : CycleInv names P X r) (hin : p.protocol = .bgp → p.pfx ∈ X)
    (hc : Loses p.pfx r.frr.running c) (s : VtyBatches) :
    CycleInv names P X { r.after (writeAll (p.lines names) c) s with
      appliedPrefixes := r.appliedPrefixes.insert p.key p } := by
  refine h.prefixTurn (fun i hi => ?_) s (h.grounded.keyedPrefixes.insert trivial) fun pfx hx => ?_
  · rw [writeAll_of_unwritten, hc.bgp i hi]
    intro e he heq
    have howns := heq.subst (p.owns_lines names e he)
    rcases hi with rfl | ⟨a, rfl⟩ <;> simp [PrefixOwns] at howns
  · rcases mem_insert.mp hx with hkey | hx
    · have hbgp : p.protocol = .bgp := (congrArg Prod.fst hkey).symm
      obtain rfl : pfx = p.pfx := congrArg Prod.snd hkey
      refine ⟨hin hbgp, ?_⟩
      have hwritten : written (p.networkLine names) (p.lines names) = some _ :=
        (p.written_of_network hbgp rfl).trans (if_pos rfl)
      change (writeAll (p.lines names) c (p.networkLine names)).isSome = true
      rw [writeAll_apply, hwritten]
      rfl
    · refine ⟨h.prefixesIn pfx hx, writeAll_isSome ?_⟩
      rw [hc.other (by simp)]
      exact (h.grounded.prefixes pfx hx).2

theorem CycleInv.erasePrefix (h : CycleInv names P X r) (hX : Set.InjOn names.network X)
    (hp : p.key ∈ r.appliedPrefixes)
    (hc : Loses p.pfx (clear (fun i => p.protocol = .bgp ∧ i = p.networkLine names) r.frr.running) c)
    (s : VtyBatches) :
    CycleInv names P X { r.after c s with
      appliedPrefixes := r.appliedPrefixes.erase p.key } := by
  refine h.prefixTurn (fun i hi => ?_) s (h.grounded.keyedPrefixes.erase _) fun pfx hx => ?_
  · rw [hc.bgp i hi]
    refine if_neg fun hnet => ?_
    rcases hi with rfl | ⟨a, rfl⟩ <;> simp [networkLine] at hnet
  · obtain ⟨hne, hx⟩ := mem_erase.mp hx
    refine ⟨h.prefixesIn pfx hx, ?_⟩
    unfold HasNetwork
    rw [hc.other (by simp), clear, if_neg]
    · exact (h.grounded.prefixes pfx hx).2
    · rintro ⟨hbgp, hline⟩
      have hkey : p.key = (.bgp, p.pfx) := by rw [← hbgp]; rfl
      rw [hkey] at hp hne
      refine hne (congrArg _ (hX (h.prefixesIn pfx hx) (h.prefixesIn p.pfx hp) ?_))
      simp only [networkLine, FrrLine.network.injEq] at hline
      exact hline.2

theorem reconcilePrefixes_cycleInv {desired : List PrefixIntent} (hX : Set.InjOn names.network X)
    (hkeyed : Keyed key (fun _ => True) ((prefixFamily names).desiredMap desired))
    (hin : ∀ pfx, (bgp, pfx) ∈ (prefixFamily names).desiredMap desired → pfx ∈ X) :
    Keeps (reconcilePrefixes names o desired) (CycleInv names P X) := by
  refine Family.reconcile_invariant _ ⟨fun k p r hk _ hr => ?_, fun k p r _ hk _ hr => ?_⟩
  · obtain rfl := (hkeyed k p hk).1
    have hold : ∀ q ∈ r.appliedPrefixes.lookup p.key, q.key = p.key :=
      fun q hq => (hr.grounded.keyedPrefixes _ q hq).1
    have hin' : p.protocol = .bgp → p.pfx ∈ X := by
      intro hbgp
      refine hin _ ?_
      rw [← hbgp]
      exact mem_of_lookup_eq_some hk
    refine (replacePrefixIntent_outcome hold hr.ready).imp ?_ ?_
    · rintro _ ⟨c, s, hc, -, rfl⟩
      exact hr.insertPrefix hin' hc s
    · rintro _ ⟨-, c, s, hc, rfl⟩
      refine hr.prefixTurn (fun i hi => hc i ?_) s hr.grounded.keyedPrefixes
        fun pfx hx => ⟨hr.prefixesIn pfx hx, ?_⟩
      · rcases hi with rfl | ⟨a, rfl⟩ <;> simp
      · unfold HasNetwork
        rw [hc _ (by simp)]
        exact (hr.grounded.prefixes pfx hx).2
  · obtain rfl := (hr.grounded.keyedPrefixes k p hk).1
    have hp : p.key ∈ r.appliedPrefixes := mem_of_lookup_eq_some hk
    refine (removePrefixFromFrr_outcome hr.ready).imp ?_ ?_
    · rintro _ ⟨c, s, hc, -, rfl⟩
      exact hr.erasePrefix hX hp hc s
    · rintro _ ⟨-, s, rfl⟩
      exact hr.prefixTurn (fun _ _ => rfl) s hr.grounded.keyedPrefixes
        fun pfx hx => ⟨hr.prefixesIn pfx hx, (hr.grounded.prefixes pfx hx).2⟩

theorem CycleInv.outsideBgp (h : CycleInv names P X r)
    (hc : ∀ i, i.object.inBgp = true → c i = r.frr.running i) (s : VtyBatches)
    (bfd : BfdMap) (ospf : OspfMap) :
    CycleInv names P X { r.after c s with appliedBfd := bfd, appliedOspf := ospf } := by
  refine h.of_same ⟨rfl, rfl, rfl, rfl, hc _ rfl⟩ h.grounded.keyedPeers h.grounded.keyedPrefixes
    (fun k hk => ⟨h.peersIn k hk, ?_⟩) fun pfx hx => ⟨h.prefixesIn pfx hx, ?_⟩
  · change (c _).isSome = true
    rw [hc _ rfl]
    exact (h.grounded.peers k hk).2
  · change (c _).isSome = true
    rw [hc _ rfl]
    exact (h.grounded.prefixes pfx hx).2

theorem session_outsideBgp {i : FrrLine} {x : String × String} (h : i.session? = some x) :
    i.object.inBgp = false := by
  cases i <;> simp_all [FrrLine.session?, FrrObject.inBgp]

theorem reconcileBfd_cycleInv {desired : List BfdIntent} :
    Keeps (reconcileBfd names o desired) (CycleInv names P X) := by
  refine Family.reconcile_invariant _ ⟨fun k b r _ _ hr => ?_, fun k b r _ _ _ hr => ?_⟩
  · refine (applyBfdIntent_outcome hr.ready).imp ?_ ?_
    · rintro _ ⟨s, rfl⟩
      refine hr.outsideBgp (fun i hi => writeAll_of_unwritten (fun e he heq => ?_) _) s _ _
      rw [← heq, session_outsideBgp (b.owns_lines names e he)] at hi
      cases hi
    · rintro _ ⟨-, s, rfl⟩
      exact hr.outsideBgp (fun _ _ => rfl) s _ _
  · refine (removeBfdFromFrr_outcome hr.ready).imp ?_ ?_
    · rintro _ ⟨s, rfl⟩
      refine hr.outsideBgp (fun i hi => if_neg fun hsession => ?_) s _ _
      rw [session_outsideBgp hsession] at hi
      cases hi
    · rintro _ ⟨-, s, rfl⟩
      exact hr.outsideBgp (fun _ _ => rfl) s _ _

theorem reconcileOspf_cycleInv {desired : List OspfIntent} :
    Keeps (reconcileOspf names o desired) (CycleInv names P X) := by
  refine Family.reconcile_invariant _ ⟨fun k a r _ _ hr => ?_, fun k a r _ _ _ hr => ?_⟩
  · refine (applyOspfIntent_outcome hr.ready).imp ?_ ?_
    · rintro _ ⟨s, rfl⟩
      refine hr.outsideBgp (fun i hi => writeAll_of_unwritten (fun e he heq => ?_) _) s _ _
      rw [← heq, a.owns_lines e he] at hi
      cases hi
    · rintro _ ⟨-, s, rfl⟩
      exact hr.outsideBgp (fun _ _ => rfl) s _ _
  · refine (removeOspfFromFrr_outcome hr.ready).imp ?_ ?_
    · rintro _ ⟨s, rfl⟩
      refine hr.outsideBgp (fun i hi => if_neg ?_) s _ _
      rintro (rfl | ⟨-, rfl⟩) <;> cases hi
    · rintro _ ⟨-, s, rfl⟩
      exact hr.outsideBgp (fun _ _ => rfl) s _ _

theorem Grounded.after_same (h : Grounded names r) (s : VtyBatches) :
    Grounded names (r.after r.frr.running s) := { h with }

theorem Grounded.configured (h : Grounded names r) {g : BgpGlobalConfig}
    (hg : r.bgpGlobal = some g) (has : g.localAs ≠ 0) (s : VtyBatches) :
    Grounded names (r.configured g s) := by
  have hlive : LiveInstance g.localAs (writeAll (globalLines g.localAs g.routerId)
      (keptInstance r.frr.localAs g.localAs r.frr.running)) :=
    ⟨fun h0 => absurd h0 has, fun _ => by rw [writeAll_apply]; rfl⟩
  by_cases hnew : r.frr.localAs ≠ 0 ∧ r.frr.localAs ≠ g.localAs
  · -- a new instance, and the records of the old one are gone
    have hforget : forgetInstance r.frr.localAs g.localAs r =
        { r with appliedPeers := ∅, appliedPrefixes := ∅ } := if_pos hnew
    unfold Reconciler.configured
    rw [hforget]
    exact ⟨h.hasFrr, hlive, fun _ _ => ⟨g, hg, rfl⟩, Keyed.empty, Keyed.empty,
      fun _ hk => absurd hk notMem_empty, fun _ hk => absurd hk notMem_empty⟩
  · rw [not_and_or, not_not, not_not] at hnew
    rw [keptInstance, if_pos hnew] at hlive
    rw [Reconciler.configured_same s hnew]
    exact ⟨h.hasFrr, hlive, fun _ _ => ⟨g, hg, rfl⟩, h.keyedPeers, h.keyedPrefixes,
      fun k hk => ⟨has, writeAll_isSome (h.peers k hk).2⟩,
      fun pfx hk => ⟨has, writeAll_isSome (h.prefixes pfx hk).2⟩⟩

theorem ensureBgpGlobal_grounded (h : Grounded names r)
    (hclient : r.bgpConfigured = true → r.frr.localAs ≠ 0)
    (hcreation : ∀ g, r.bgpConfigured = false → r.bgpGlobal = some g → r.frr.localAs ≠ 0 →
      r.frr.localAs ≠ g.localAs → ∀ n, r.frr.fails n (bgpGlobalCommands g.localAs g.routerId) = false)
    (hP : ∀ k ∈ r.appliedPeers, k ∈ P)
    (hX : ∀ pfx, (bgp, pfx) ∈ r.appliedPrefixes → pfx ∈ X) :
    Outcome (ensureBgpGlobal names) r (CycleInv names P X) (Grounded names) := by
  refine ensureBgpGlobal_outcome h.live ?_ ?_ ?_ ?_ ?_
  · exact fun hconf => ⟨h, hclient hconf, hconf, hP, hX⟩
  · exact fun _ _ => h
  · intro _ g s hg has _
    have hkept : (∀ k ∈ (forgetInstance r.frr.localAs g.localAs r).appliedPeers, k ∈ P) ∧
        ∀ pfx, (bgp, pfx) ∈ (forgetInstance r.frr.localAs g.localAs r).appliedPrefixes → pfx ∈ X := by
      unfold forgetInstance
      split_ifs
      · exact ⟨fun _ hk => absurd hk notMem_empty, fun _ hk => absurd hk notMem_empty⟩
      · exact ⟨hP, hX⟩
    exact ⟨h.configured hg has s, has, rfl, hkept.1, hkept.2⟩
  · exact fun _ g s _ _ _ => h.after_same s
  · exact fun hconf g s hg hold hne hfail => absurd (hcreation g hconf hg hold hne) hfail

end Cycle

section Runs

variable {names : FrrNames} {m : RoutingManager} {o : RoutingOrders} {fails : VtyFaults}

theorem reconcile_grounded (hstore : m.store.OneOwner m.owner) (h : Grounded names m.reconciler)
    (hcycle : SoundCycle names m fails) :
    Outcome (reconcile names o m.store) (m.reconciler.begin fails)
      (CycleInv names m.peersInUse m.networksInUse) (Grounded names) := by
  have hbegin : Grounded names (m.reconciler.begin fails) := { h with }
  have hglobal := ensureBgpGlobal_grounded (P := m.peersInUse) (X := m.networksInUse) hbegin
    hcycle.client hcycle.creation (fun _ => .inr) fun _ => .inr
  refine reconcile_outcome h.hasFrr hglobal fun r hr => ?_
  refine (reconcileFamilies_keeps (reconcilePeers_cycleInv hcycle.addrs ?_ ?_)
    (reconcilePrefixes_cycleInv hcycle.networks ?_ ?_) reconcileBfd_cycleInv
    reconcileOspf_cycleInv hr).imp (fun _ h => h) fun _ h => h.grounded
  · rw [desiredMap_peers hstore]
    exact hstore.keyed.peers
  · rw [desiredMap_peers hstore]
    exact fun _ => .inl
  · rw [desiredMap_prefixes hstore]
    exact hstore.keyed.prefixes
  · rw [desiredMap_prefixes hstore]
    exact fun _ => .inl

theorem instanceStep_grounded (hstore : m.store.OneOwner m.owner)
    (h : Grounded names m.reconciler) {e : InstanceEvent}
    (hsound : ∀ o fails, e = .routing (.reconcile o fails) → SoundCycle names m fails) :
    (m.instanceStep names e).store.OneOwner (m.instanceStep names e).owner ∧
      Grounded names (m.instanceStep names e).reconciler := by
  cases e with
  | routing e =>
    refine ⟨RoutingManager.step_oneOwner names hstore e, ?_⟩
    cases e with
    | change c =>
      change Grounded names (m.change c).reconciler
      rwa [(RoutingManager.change_changed m c).reconciler]
    | reconcile o fails =>
      have hcycle := reconcile_grounded (o := o) hstore h (hsound o fails rfl)
      exact outcome_stateAfter (hcycle.imp (fun _ h => h.grounded) fun _ h => h)
  | updateBgpGlobal localAs routerId =>
    exact ⟨hstore, { h with global := fun hconf => absurd hconf Bool.false_ne_true }⟩
  | setFrrClient =>
    exact ⟨hstore, rfl, ⟨fun _ => rfl, fun h0 => absurd rfl h0⟩, fun _ h0 => absurd rfl h0,
      Keyed.empty, Keyed.empty, fun _ hk => absurd hk notMem_empty,
      fun _ hk => absurd hk notMem_empty⟩

theorem instanceRun_grounded (events : List InstanceEvent) (hstore : m.store.OneOwner m.owner)
    (h : Grounded names m.reconciler) (hrun : SoundRun names m events) :
    (m.instanceRun names events).store.OneOwner (m.instanceRun names events).owner ∧
      Grounded names (m.instanceRun names events).reconciler := by
  induction events generalizing m with
  | nil => exact ⟨hstore, h⟩
  | cons e events ih =>
    obtain ⟨hstore', h'⟩ := instanceStep_grounded hstore h hrun.1
    exact ih hstore' h' hrun.2

/-- The records never exceed FRR when every cycle meets the condition, and a cycle without an
error then leaves BGP, every desired neighbor and every desired network configured. -/
theorem instanceRun_recorded (names : FrrNames) (owner : String) (g : Option BgpGlobalConfig)
    (events : List InstanceEvent) (hrun : SoundRun names (newRoutingManager owner g) events) :
    Recorded names ((newRoutingManager owner g).instanceRun names events).reconciler ∧
      ∀ o fails r', SoundCycle names ((newRoutingManager owner g).instanceRun names events) fails →
        reconcile names o ((newRoutingManager owner g).instanceRun names events).store
          (((newRoutingManager owner g).instanceRun names events).reconciler.begin fails) = .ok () r' →
        Recorded names r' ∧ r'.Ready ∧
          (∃ g', r'.bgpGlobal = some g' ∧ g'.localAs = r'.frr.localAs) ∧
          (∀ k ∈ ((newRoutingManager owner g).instanceRun names events).desired.peers,
            HasNeighbor names r'.frr.running k) ∧
          ∀ pfx, (RouteProtocol.bgp, pfx) ∈
              ((newRoutingManager owner g).instanceRun names events).desired.prefixes →
            HasNetwork names r'.frr.running pfx := by
  have hnew : Grounded names (newRoutingManager owner g).reconciler :=
    ⟨rfl, ⟨fun _ => rfl, fun h0 => absurd rfl h0⟩, fun h => absurd h Bool.false_ne_true,
      Keyed.empty, Keyed.empty, fun _ hk => absurd hk notMem_empty,
      fun _ hk => absurd hk notMem_empty⟩
  obtain ⟨hstore, h⟩ := instanceRun_grounded events (IntentStore.OneOwner.empty owner) hnew hrun
  refine ⟨h.recorded, fun o fails r' hcycle hr' => ?_⟩
  have hinv := (reconcile_grounded hstore h hcycle).of_ok hr'
  obtain ⟨hsettled, -, -⟩ := reconcile_settled (r := Reconciler.begin fails _) hstore h.hasFrr hr'
  refine ⟨hinv.grounded.recorded, hinv.ready, hinv.grounded.global hinv.configured hinv.alive,
    fun k hk => ?_, fun pfx hk => ?_⟩
  · rw [← hsettled.peers] at hk
    exact (hinv.grounded.peers k hk).2
  · rw [← hsettled.prefixes] at hk
    exact (hinv.grounded.prefixes pfx hk).2

def returnToAs (fails : VtyFaults) : List InstanceEvent :=
  [.updateBgpGlobal 65001 "10.0.0.1", .routing (.change (.applyPeer "10.0.0.2" 65003 none)),
    .routing (.reconcile sortedOrders neverFails), .updateBgpGlobal 65002 "10.0.0.1",
    .routing (.reconcile sortedOrders fails), .updateBgpGlobal 65001 "10.0.0.1"]

def returned (fails : VtyFaults) : RoutingManager :=
  (newRoutingManager "novanet" none).instanceRun ⟨id, id⟩ (returnToAs fails)

theorem instanceRun_recorded_example :
    SoundRun ⟨id, id⟩ (newRoutingManager "novanet" none) (returnToAs neverFails) ∧
      "10.0.0.2" ∈ (returned neverFails).reconciler.appliedPeers ∧
      Recorded ⟨id, id⟩ (returned neverFails).reconciler := by
  have hsound {m : RoutingManager}
      (hclient : m.reconciler.bgpConfigured = true → m.reconciler.frr.localAs ≠ 0) :
      SoundCycle ⟨id, id⟩ m neverFails :=
    ⟨Function.injective_id.injOn, Function.injective_id.injOn, hclient, fun _ _ _ _ _ _ => rfl⟩
  have hrun : SoundRun ⟨id, id⟩ (newRoutingManager "novanet" none) (returnToAs neverFails) := by
    refine ⟨nofun, nofun, ?_, nofun, ?_, nofun, trivial⟩
    · rintro _ _ ⟨⟩
      exact hsound (by decide +kernel)
    · rintro _ _ ⟨⟩
      exact hsound (by decide +kernel)
  exact ⟨hrun, by decide +kernel, (instanceRun_recorded ⟨id, id⟩ "novanet" none _ hrun).1⟩

/-- The second instance is refused after the first was removed. Back at the first AS, the
reconciler takes the peer for applied, and its cycle succeeds without a neighbor. -/
theorem returnToAs_loses_peer :
    Outcome (reconcile ⟨id, id⟩ sortedOrders (returned fun n _ => n == 1).store)
      ((returned fun n _ => n == 1).reconciler.begin neverFails)
      (fun r' => "10.0.0.2" ∈ r'.appliedPeers ∧
        r'.frr.running (.neighbor "10.0.0.2" .remoteAs) = none) fun _ => False := by
  decide +kernel

end Runs

end NovaNet
