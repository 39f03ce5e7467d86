import NovaNet.RoutingOutcomes
import NovaNet.RoutingSettled

/-! A reconciliation against one from an empty FRR. Commands only set what an intent has, so a
setting of an earlier version stays unless the new version sets it again. -/

namespace NovaNet

open ErrorState Finmap KeyedConfig LastWrite List Option BfdIntent RoutingManager FrrObject

/-- The removal of an interface takes the area and the passive line; the others must not be. -/
def OspfIntent.Plain (o : OspfIntent) : Prop :=
  o.cost = 0 ∧ (o.ipv6 = false → o.helloInterval = 0 ∧ o.deadInterval = 0)

/-- The condition on a cycle: all intents pass the checks, no two texts in use name one thing,
and every replaced intent sets again what its predecessor set. -/
structure CleanCycle (names : FrrNames) (m : RoutingManager) : Prop where
  addrs : Set.InjOn names.addr m.addrsInUse
  networks : Set.InjOn names.network m.networksInUse
  routeMaps : Set.InjOn routeMapName m.networksInUse
  validPeers : ∀ k p, m.desired.peers.lookup k = some p → p.Valid
  validPrefixes : ∀ k p, m.desired.prefixes.lookup k = some p → p.Valid
  validBfd : ∀ k b, m.desired.bfd.lookup k = some b → b.Valid
  validOspf : ∀ k o, m.desired.ospf.lookup k = some o → o.Valid
  peers : ∀ k p q, m.desired.peers.lookup k = some p →
    m.reconciler.appliedPeers.lookup k = some q → Covers (p.settings names) (q.settings names)
  peerSessions : ∀ k p, m.desired.peers.lookup k = some p → p.bfdEnabled = true →
    (∀ b, m.desired.bfd.lookup k = some b → b = p.session) ∧
      ∀ a, m.reconciler.appliedBfd.lookup k = some a → Covers (p.session.lines names) (a.lines names)
  bfd : ∀ k a b, m.desired.bfd.lookup k = some b → m.reconciler.appliedBfd.lookup k = some a →
    Covers (b.lines names) (a.lines names)
  ospf : ∀ k a b, m.desired.ospf.lookup k = some b → m.reconciler.appliedOspf.lookup k = some a →
    Covers b.lines a.lines
  ospfRemoved : ∀ k a, m.reconciler.appliedOspf.lookup k = some a → k ∉ m.desired.ospf → a.Plain

def CleanRun (names : FrrNames) : RoutingManager → List RoutingEvent → Prop
  | _, [] => True
  | m, e :: events =>
    (∀ o fails, e = .reconcile o fails → fails = neverFails ∧ CleanCycle names m) ∧
      CleanRun names (m.step names e) events

/-- FRR has the rendering of the records. -/
structure Rendered (names : FrrNames) (g : BgpGlobalConfig) (r : Reconciler) : Prop where
  hasFrr : r.hasFrr = true
  bgpGlobal : r.bgpGlobal = some g
  configured : r.bgpConfigured = true
  localAs : r.frr.localAs = g.localAs
  alive : g.localAs ≠ 0
  safe : VtySafe g.routerId
  global : ∀ i, i.object = .bgp → r.frr.running i = written i (globalLines g.localAs g.routerId)
  peers : Renders PeerScope (PeerOwns names) (PeerIntent.lines names) r.appliedPeers r.frr.running
  prefixes : Renders PrefixScope (PrefixOwns names) (PrefixIntent.lines names) r.appliedPrefixes
    r.frr.running
  bfd : Renders BfdScope (BfdOwns names) (lines names) r.appliedBfd r.frr.running
  ospf : Renders OspfScope OspfOwns OspfIntent.lines r.appliedOspf r.frr.running
  keyedPeers : Keyed PeerIntent.neighborAddress PeerIntent.Valid r.appliedPeers
  keyedPrefixes : Keyed PrefixIntent.key PrefixIntent.Valid r.appliedPrefixes
  keyedBfd : Keyed peerAddress BfdIntent.Valid r.appliedBfd
  keyedOspf : Keyed OspfIntent.interfaceName OspfIntent.Valid r.appliedOspf
  managed : ∀ k, k ∈ r.peerManagedBfd ↔ ∃ p, r.appliedPeers.lookup k = some p ∧ p.bfdEnabled = true
  sessions : ∀ k p, r.appliedPeers.lookup k = some p → p.bfdEnabled = true →
    r.appliedBfd.lookup k = some p.session

structure CleanScope (names : FrrNames) (d : OwnerIntents) (U X : Set String) : Prop where
  peers : Keyed PeerIntent.neighborAddress PeerIntent.Valid d.peers
  prefixes : Keyed PrefixIntent.key PrefixIntent.Valid d.prefixes
  bfd : Keyed peerAddress BfdIntent.Valid d.bfd
  ospf : Keyed OspfIntent.interfaceName OspfIntent.Valid d.ospf
  addrs : Set.InjOn names.addr U
  networks : Set.InjOn names.network X
  routeMaps : Set.InjOn routeMapName X
  peersIn : ∀ k ∈ d.peers, k ∈ U
  bfdIn : ∀ k ∈ d.bfd, k ∈ U
  prefixesIn : ∀ pfx, (RouteProtocol.bgp, pfx) ∈ d.prefixes → pfx ∈ X
  peerSessions : ∀ k p, d.peers.lookup k = some p → p.bfdEnabled = true →
    ∀ b, d.bfd.lookup k = some b → b = p.session

structure CleanInv (names : FrrNames) (d : OwnerIntents) (U X : Set String)
    (g : BgpGlobalConfig) (r : Reconciler) : Prop where
  rendered : Rendered names g r
  quiet : r.Quiet
  peersIn : ∀ k ∈ r.appliedPeers, k ∈ U
  bfdIn : ∀ k ∈ r.appliedBfd, k ∈ U
  prefixesIn : ∀ pfx, (RouteProtocol.bgp, pfx) ∈ r.appliedPrefixes → pfx ∈ X
  peers : ∀ k p q, d.peers.lookup k = some p → r.appliedPeers.lookup k = some q →
    Covers (p.settings names) (q.settings names)
  peerSessions : ∀ k p, d.peers.lookup k = some p → p.bfdEnabled = true →
    ∀ a, r.appliedBfd.lookup k = some a → Covers (p.session.lines names) (a.lines names)
  bfd : ∀ k a b, d.bfd.lookup k = some b → r.appliedBfd.lookup k = some a →
    Covers (b.lines names) (a.lines names)
  ospf : ∀ k a b, d.ospf.lookup k = some b → r.appliedOspf.lookup k = some a → Covers b.lines a.lines
  ospfRemoved : ∀ k a, r.appliedOspf.lookup k = some a → k ∉ d.ospf → a.Plain

theorem Rendered.ready {names : FrrNames} {g : BgpGlobalConfig} {r : Reconciler}
    (h : Rendered names g r) : r.Ready := by
  refine ⟨by rw [h.localAs]; exact h.alive, ?_⟩
  rw [h.global _ rfl, h.localAs]
  rfl

abbrev RendersBfd (names : FrrNames) :=
  Renders BfdScope (BfdOwns names) (lines names)

section Owners

variable {names : FrrNames} {d : OwnerIntents} {U X : Set String} {g : BgpGlobalConfig} {r : Reconciler}

theorem CleanInv.peerApart (h : CleanInv names d U X g r) (hd : CleanScope names d U X)
    {k : String} (hk : k ∈ U) : Apart (PeerOwns names) r.appliedPeers k := by
  intro k' hk' hne i hi hi'
  have haddr : names.addr k' = names.addr k := neighbor.inj (hi'.symm.trans hi)
  exact hne (hd.addrs (h.peersIn k' hk') hk haddr)

theorem CleanInv.bfdApart (h : CleanInv names d U X g r) (hd : CleanScope names d U X)
    {k : String} (hk : k ∈ U) : Apart (BfdOwns names) r.appliedBfd k := by
  intro k' hk' hne i hi hi'
  have haddr : names.addr k' = names.addr k := session.inj (hi'.symm.trans hi)
  exact hne (hd.addrs (h.bfdIn k' hk') hk haddr)

theorem ospfOwns_apart {k k' : String} (hne : k' ≠ k) (i : FrrLine) (hi : OspfOwns k i) :
    ¬ OspfOwns k' i :=
  fun hi' => hne (interface.inj (hi'.symm.trans hi))

theorem prefixOwns_apart (hX : Set.InjOn names.network X) (hmaps : Set.InjOn routeMapName X)
    {k k' : PrefixKey} (hk : k.1 = .bgp → k.2 ∈ X) (hk' : k'.1 = .bgp → k'.2 ∈ X)
    (hne : k' ≠ k) (i : FrrLine) (hi : PrefixOwns names k i) : ¬ PrefixOwns names k' i := by
  rintro ⟨hbgp', hi'⟩
  obtain ⟨hbgp, hi⟩ := hi
  refine hne (Prod.ext (hbgp'.trans hbgp.symm) ?_)
  rcases hi with hi | hi
  · rcases hi' with hi' | hi'
    · exact hX (hk' hbgp') (hk hbgp) (network.inj (hi'.symm.trans hi))
    · cases hi.symm.trans hi'
  · rcases hi' with hi' | hi'
    · cases hi.symm.trans hi'
    · exact hmaps (hk' hbgp') (hk hbgp) (routeMap.inj (hi'.symm.trans hi))

theorem peerScope_of_owns (k : String) (i : FrrLine) (hi : PeerOwns names k i) : PeerScope i :=
  ⟨_, hi⟩

theorem bfdScope_of_owns (k : String) (i : FrrLine) (hi : BfdOwns names k i) : BfdScope i :=
  ⟨_, hi⟩

theorem ospfScope_of_owns (k : String) (i : FrrLine) (hi : OspfOwns k i) : OspfScope i := ⟨_, hi⟩

theorem prefixScope_of_owns (k : PrefixKey) (i : FrrLine) (hi : PrefixOwns names k i) :
    PrefixScope i := hi.2.imp (fun h => ⟨_, h⟩) fun h => ⟨_, h⟩

variable (names) in
theorem PeerScope.not_bfdOwns {i : FrrLine} (hi : PeerScope i) (k : String) : ¬ BfdOwns names k i := by
  obtain ⟨a, hi⟩ := hi
  simp [BfdOwns, hi]

variable (names) in
theorem BfdScope.not_peerOwns {i : FrrLine} (hi : BfdScope i) (k : String) : ¬ PeerOwns names k i := by
  obtain ⟨a, hi⟩ := hi
  simp [PeerOwns, hi]

end Owners

section Peers

variable {names : FrrNames} {r : Reconciler} {p : PeerIntent} {i : FrrLine}

theorem PeerIntent.written_lines (names : FrrNames) (q : PeerIntent)
    (hi : i ≠ bfdLine names q.neighborAddress) :
    written i (q.lines names) = written i (q.settings names) := by
  have hbfd : written i (onlyIf (q.bfdEnabled = true)
      ((bfdLine names q.neighborAddress, []) : FrrLine × List String)) = none :=
    written_eq_none_iff.mpr (forall_mem_onlyIf.mpr fun _ => Ne.symm hi)
  rw [lines, written_append, hbfd, none_or]

theorem PeerIntent.settings_replace
    (hold : r.frr.running i = (r.appliedPeers.lookup p.neighborAddress).bind
      fun q => written i (q.lines names))
    (hkeyed : Keyed PeerIntent.neighborAddress PeerIntent.Valid r.appliedPeers)
    (hcovers : ∀ q, r.appliedPeers.lookup p.neighborAddress = some q →
      Covers (p.settings names) (q.settings names))
    (hi : i ≠ bfdLine names p.neighborAddress) :
    writeAll (p.settings names) r.frr.running i = written i (p.settings names) := by
  rw [writeAll_apply, hold]
  cases hq : r.appliedPeers.lookup p.neighborAddress with
  | none => exact or_none
  | some q =>
    rw [← (hkeyed _ q hq).1] at hi
    rw [bind_some, q.written_lines names hi]
    exact written_or_of_covers (hcovers q hq) i

theorem PeerIntent.appliedState_running (s : VtyBatches) (hi : PeerOwns names p.neighborAddress i)
    (hsettings : i ≠ bfdLine names p.neighborAddress →
      writeAll (p.settings names) r.frr.running i = written i (p.settings names)) :
    (p.appliedState names r s).frr.running i = written i (p.lines names) := by
  have hnot := (peerScope_of_owns _ i hi).not_bfdOwns names p.neighborAddress
  -- without BFD the line of its use goes
  have hunset : p.bfdEnabled ≠ true → clear (· = bfdLine names p.neighborAddress)
      (writeAll (p.settings names) r.frr.running) i = written i (p.lines names) := by
    intro hbfd
    have hlines : p.lines names = p.settings names := by
      rw [lines, onlyIf, if_neg hbfd, append_nil]
    by_cases heq : i = bfdLine names p.neighborAddress
    · rw [clear, if_pos heq, hlines, heq]
      exact (written_eq_none_iff.mpr (p.settings_ne_bfd names _)).symm
    · rw [clear, if_neg heq, hlines]
      exact hsettings heq
  unfold appliedState
  dsimp only
  split_ifs with hbfd hm
  · change writeAll _ (writeAll (p.settings names) r.frr.running) i = _
    have hlines : p.lines names = p.settings names ++ [(bfdLine names p.neighborAddress, [])] := by
      rw [lines, onlyIf, if_pos hbfd]
    rw [writeAll_append, writeAll_apply, session_unwritten hnot, hlines, written_append]
    by_cases heq : i = bfdLine names p.neighborAddress
    · rw [heq, written_cons, if_pos rfl]
      rfl
    · rw [hsettings heq]
  · exact (clear_session_other hnot _).trans (hunset hbfd)
  · exact hunset hbfd

structure PeerIntent.AppliedBooks (p : PeerIntent) (r r' : Reconciler) : Prop where
  managed : p.neighborAddress ∈ r'.peerManagedBfd ↔ p.bfdEnabled = true
  managedOther : ∀ k, k ≠ p.neighborAddress → (k ∈ r'.peerManagedBfd ↔ k ∈ r.peerManagedBfd)
  linked : p.bfdEnabled = true → r'.appliedBfd.lookup p.neighborAddress = some p.session
  unlinked : p.bfdEnabled ≠ true → ∀ a, r'.appliedBfd.lookup p.neighborAddress = some a →
    p.neighborAddress ∉ r.peerManagedBfd ∧ r.appliedBfd.lookup p.neighborAddress = some a
  other : ∀ k, k ≠ p.neighborAddress → r'.appliedBfd.lookup k = r.appliedBfd.lookup k

theorem PeerIntent.appliedState_books (names : FrrNames) (p : PeerIntent) (r : Reconciler)
    (s : VtyBatches) : p.AppliedBooks r (p.appliedState names r s) := by
  unfold appliedState
  dsimp only
  split_ifs with hbfd hm
  · refine ⟨iff_of_true (Finset.mem_insert_self _ _) hbfd, fun k hk => ?_, fun _ => ?_,
      fun h => absurd hbfd h, fun k hk => ?_⟩
    · exact Finset.mem_insert.trans (or_iff_right hk)
    · exact lookup_insert _
    · exact lookup_insert_of_ne _ hk
  · refine ⟨iff_of_false (Finset.notMem_erase _ _) hbfd, fun k hk => ?_, fun h => absurd h hbfd,
      fun _ a ha => ?_, fun k hk => ?_⟩
    · exact Finset.mem_erase.trans (and_iff_right hk)
    · exact absurd rfl (lookup_erase_eq_some ha).1
    · exact lookup_erase_ne hk
  · exact ⟨iff_of_false hm hbfd, fun _ _ => Iff.rfl, fun h => absurd h hbfd,
      fun _ a ha => ⟨hm, ha⟩, fun _ _ => rfl⟩

theorem renders_clear_session {m : BfdMap} {c : FrrConfig}
    {k iface : String} (h : RendersBfd names m c)
    (hapart : Apart (BfdOwns names) m k)
    (hold : ∀ a, m.lookup k = some a → a.interfaceName = iface)
    (hkeyed : Keyed peerAddress BfdIntent.Valid m) :
    RendersBfd names (m.erase k) (clear (·.session? = some (names.addr k, iface)) c) := by
  refine h.erase hapart (fun i hi => ?_) (fun i _ hi => clear_session_other hi c) bfdScope_of_owns
  by_cases hsession : i.session? = some (names.addr k, iface)
  · exact if_pos hsession
  · refine (if_neg hsession).trans ?_
    rw [h.lookup bfdScope_of_owns hapart hi]
    cases ha : m.lookup k with
    | none => rfl
    | some a =>
      refine written_eq_none_iff.mpr fun e he heq => hsession ?_
      rw [← heq, a.owns_lines names e he, (hkeyed k a ha).1, hold a ha]

variable (h : RendersBfd names r.appliedBfd r.frr.running)
  (hapart : Apart (BfdOwns names) r.appliedBfd p.neighborAddress)
  (hmanaged : p.neighborAddress ∈ r.peerManagedBfd →
    ∀ a, r.appliedBfd.lookup p.neighborAddress = some a → a.interfaceName = "")
  (hkeyed : Keyed peerAddress BfdIntent.Valid r.appliedBfd)

include h hapart hmanaged hkeyed in
theorem PeerIntent.appliedState_sessions (s : VtyBatches)
    (hcovers : p.bfdEnabled = true → ∀ a, r.appliedBfd.lookup p.neighborAddress = some a →
      Covers (p.session.lines names) (a.lines names)) :
    RendersBfd names (p.appliedState names r s).appliedBfd (p.appliedState names r s).frr.running := by
  have hset : RendersBfd names r.appliedBfd (writeAll (p.settings names) r.frr.running) :=
    h.congr bfdScope_of_owns fun i hi => writeAll_of_unwritten (fun e he heq =>
      hi.not_peerOwns names _ (heq.subst (p.owns_settings names e he))) _
  have hunset : RendersBfd names r.appliedBfd
      (clear (· = bfdLine names p.neighborAddress) (writeAll (p.settings names) r.frr.running)) := by
    refine hset.congr bfdScope_of_owns fun i hi => if_neg ?_
    rintro rfl
    exact hi.not_peerOwns names p.neighborAddress rfl
  unfold appliedState
  dsimp only
  split_ifs with hbfd hm
  · have hlinked := hset.write (k := p.neighborAddress) (a := p.session)
      (fun e he => bfdOwns_of_session (p.session.owns_lines names e he)) (hcovers hbfd) hapart
      bfdScope_of_owns
    refine hlinked.congr bfdScope_of_owns fun i hi => ?_
    have hbfdLine : ∀ e ∈ [((bfdLine names p.neighborAddress, []) : FrrLine × List String)],
        e.1 ≠ i := by
      rintro e he rfl
      rw [List.mem_singleton.mp he] at hi
      exact hi.not_peerOwns names p.neighborAddress rfl
    exact (congrFun (writeAll_append _ _ _) i).trans (writeAll_of_unwritten hbfdLine _)
  · exact renders_clear_session hunset hapart (hmanaged hm) hkeyed
  · exact hunset

structure PeerIntent.UnlinkedBooks (p : PeerIntent) (r r' : Reconciler) : Prop where
  managed : p.neighborAddress ∉ r'.peerManagedBfd
  managedOther : ∀ k, k ≠ p.neighborAddress → (k ∈ r'.peerManagedBfd ↔ k ∈ r.peerManagedBfd)
  other : ∀ k, k ≠ p.neighborAddress → r'.appliedBfd.lookup k = r.appliedBfd.lookup k
  old : ∀ k a, r'.appliedBfd.lookup k = some a → r.appliedBfd.lookup k = some a

theorem PeerIntent.unlinkedState_books (p : PeerIntent) (r : Reconciler) (c : FrrConfig)
    (s : VtyBatches) : p.UnlinkedBooks r (p.unlinkedState r c s) := by
  unfold unlinkedState
  dsimp only
  split_ifs with hm
  · exact ⟨Finset.notMem_erase _ _, fun k hk => Finset.mem_erase.trans (and_iff_right hk),
      fun k hk => lookup_erase_ne hk, fun k a ha => (lookup_erase_eq_some ha).2⟩
  · exact ⟨hm, fun _ _ => Iff.rfl, fun _ _ => rfl, fun _ _ ha => ha⟩

include h hapart hmanaged hkeyed in
theorem PeerIntent.unlinkedState_sessions {c c' : FrrConfig} (s : VtyBatches)
    (hc : p.Unlinked names r c) (hquiet : (removeBfdPeer p.neighborAddress "").Succeeds r.frr)
    (hc' : ∀ i, BfdScope i → c' i = c i) :
    RendersBfd names (p.unlinkedState r c' s).appliedBfd (p.unlinkedState r c' s).frr.running := by
  unfold Unlinked at hc
  unfold unlinkedState
  dsimp only
  split_ifs at hc ⊢ with hm
  · obtain rfl := hc.resolve_right fun hfail => hfail.2 hquiet
    exact (renders_clear_session h hapart (hmanaged hm) hkeyed).congr bfdScope_of_owns hc'
  · subst hc
    exact h.congr bfdScope_of_owns hc'

end Peers

section Turns

variable {names : FrrNames} {d : OwnerIntents} {U X : Set String} {g : BgpGlobalConfig}
  {r r' : Reconciler} {k : String}

structure PeerTurn.Leaves (names : FrrNames) (k : String) (c c' : FrrConfig) : Prop where
  peers : ∀ i, PeerScope i → ¬ PeerOwns names k i → c' i = c i
  others : ∀ i, ¬ PeerScope i → ¬ BfdScope i → c' i = c i

theorem PeerTurn.leaves (h : PeerTurn names k r r') : Leaves names k r.frr.running r'.frr.running where
  peers i hi hno := h.other i hno (hi.not_bfdOwns _ k)
  others i hpeer hbfd := h.other i (fun hi => hpeer ⟨_, hi⟩) fun hi => hbfd ⟨_, hi⟩

theorem Rendered.peerTurn (h : Rendered names g r) (hturn : PeerTurn names k r r')
    {peers : PeerMap}
    (hpeers : Renders PeerScope (PeerOwns names) (PeerIntent.lines names) peers r'.frr.running)
    (hbfd : RendersBfd names r'.appliedBfd r'.frr.running)
    (hkeyed : Keyed PeerIntent.neighborAddress PeerIntent.Valid peers)
    (hkeyedBfd : Keyed peerAddress BfdIntent.Valid r'.appliedBfd)
    (hmanaged : ∀ k, k ∈ r'.peerManagedBfd ↔ ∃ p, peers.lookup k = some p ∧ p.bfdEnabled = true)
    (hsessions : ∀ k p, peers.lookup k = some p → p.bfdEnabled = true →
      r'.appliedBfd.lookup k = some p.session) :
    Rendered names g { r' with appliedPeers := peers } := by
  have hleaves := hturn.leaves
  obtain ⟨c, s, managed, bfd, rfl⟩ := hturn.exists_eq
  refine { h with
    global := fun i hi => ?_
    peers := hpeers
    prefixes := h.prefixes.congr prefixScope_of_owns fun i hi => hleaves.others i ?_ ?_
    bfd := hbfd
    ospf := h.ospf.congr ospfScope_of_owns fun i hi => hleaves.others i ?_ ?_
    keyedPeers := hkeyed
    keyedBfd := hkeyedBfd
    managed := hmanaged
    sessions := hsessions }
  · exact (hleaves.others i (by simp [PeerScope, hi]) (by simp [BfdScope, hi])).trans (h.global i hi)
  · rcases hi with ⟨n, hi⟩ | ⟨n, hi⟩ <;> simp [PeerScope, hi]
  · rcases hi with ⟨n, hi⟩ | ⟨n, hi⟩ <;> simp [BfdScope, hi]
  · obtain ⟨n, hi⟩ := hi
    simp [PeerScope, hi]
  · obtain ⟨n, hi⟩ := hi
    simp [BfdScope, hi]

theorem Rendered.managed_interface (h : Rendered names g r) (k : String)
    (hk : k ∈ r.peerManagedBfd) (a : BfdIntent) (ha : r.appliedBfd.lookup k = some a) :
    a.interfaceName = "" := by
  obtain ⟨q, hq, hbfd⟩ := (h.managed k).mp hk
  rw [h.sessions k q hq hbfd] at ha
  obtain rfl := some.inj ha
  rfl

theorem CleanInv.applyPeer (h : CleanInv names d U X g r) (hd : CleanScope names d U X)
    {p : PeerIntent} (hp : d.peers.lookup p.neighborAddress = some p)
    (s : VtyBatches) :
    CleanInv names d U X g { p.appliedState names r s with
      appliedPeers := (p.appliedState names r s).appliedPeers.insert p.neighborAddress p } := by
  have hin : p.neighborAddress ∈ U := hd.peersIn _ (mem_of_lookup_eq_some hp)
  have hvalid := (hd.peers _ p hp).2
  have hpeerApart := h.peerApart hd hin
  obtain ⟨hturn, -⟩ := p.appliedState_turn names r s
  have hbooks := p.appliedState_books names r s
  have hrun := fun i (hi : PeerOwns names p.neighborAddress i) =>
    PeerIntent.appliedState_running s hi (PeerIntent.settings_replace
      (h.rendered.peers.lookup peerScope_of_owns hpeerApart hi) h.rendered.keyedPeers
      (h.peers _ p · hp))
  have hsessions := PeerIntent.appliedState_sessions h.rendered.bfd (h.bfdApart hd hin)
    (h.rendered.managed_interface _) h.rendered.keyedBfd s (h.peerSessions _ p hp)
  generalize p.appliedState names r s = r₁ at *
  have hleaves := hturn.leaves
  obtain ⟨c, s', managed, bfd, rfl⟩ := hturn.exists_eq
  -- the record of a session, by whether it is the peer's own
  have hbfd : ∀ k a, bfd.lookup k = some a →
      k = p.neighborAddress ∧ p.bfdEnabled = true ∧ a = p.session ∨
        r.appliedBfd.lookup k = some a ∧ (k = p.neighborAddress → p.bfdEnabled ≠ true) := by
    intro k a ha
    by_cases heq : k = p.neighborAddress
    · subst heq
      by_cases hbfd : p.bfdEnabled = true
      · exact .inl ⟨rfl, hbfd, some.inj (ha.symm.trans (hbooks.linked hbfd))⟩
      · exact .inr ⟨(hbooks.unlinked hbfd a ha).2, fun _ => hbfd⟩
    · exact .inr ⟨(hbooks.other k heq).symm.trans ha, fun h => absurd h heq⟩
  have hkeyedBfd : Keyed peerAddress BfdIntent.Valid bfd := by
    intro k a ha
    rcases hbfd k a ha with ⟨rfl, -, rfl⟩ | ⟨ha, -⟩
    · exact ⟨rfl, hvalid.1, show VtySafe "" by decide⟩
    · exact h.rendered.keyedBfd k a ha
  have hrendered := h.rendered.peerTurn hturn
    (h.rendered.peers.insert hpeerApart hrun hleaves.peers peerScope_of_owns) hsessions
    (h.rendered.keyedPeers.insert hvalid) hkeyedBfd (fun k => ?_) fun k q hq hqbfd => ?_
  · refine { h with
      rendered := hrendered
      peersIn := forall_mem_insert hin h.peersIn
      bfdIn := fun k hk => ?_
      peers := fun k q q' hq hq' => ?_
      peerSessions := fun k q hq hqbfd a ha => ?_
      bfd := fun k a b hb ha => ?_ }
    · obtain ⟨a, ha⟩ := Finmap.mem_iff.mp hk
      rcases hbfd k a ha with ⟨rfl, -⟩ | ⟨ha, -⟩
      · exact hin
      · exact h.bfdIn k (mem_of_lookup_eq_some ha)
    · rcases lookup_insert_eq_some hq' with ⟨rfl, rfl⟩ | ⟨-, hq'⟩
      · rw [some.inj (hq.symm.trans hp)]
        exact Covers.refl _
      · exact h.peers k q q' hq hq'
    · rcases hbfd k a ha with ⟨rfl, -, rfl⟩ | ⟨ha, -⟩
      · rw [some.inj (hq.symm.trans hp)]
        exact Covers.refl _
      · exact h.peerSessions k q hq hqbfd a ha
    · rcases hbfd k a ha with ⟨rfl, henabled, rfl⟩ | ⟨ha, -⟩
      · rw [hd.peerSessions _ p hp henabled b hb]
        exact Covers.refl _
      · exact h.bfd k a b hb ha
  · by_cases heq : k = p.neighborAddress
    · subst heq
      simpa using hbooks.managed
    · rw [lookup_insert_of_ne _ heq]
      exact (hbooks.managedOther k heq).trans (h.rendered.managed k)
  · rcases lookup_insert_eq_some hq with ⟨rfl, rfl⟩ | ⟨hne, hq⟩
    · exact hbooks.linked hqbfd
    · exact (hbooks.other k hne).trans (h.rendered.sessions k q hq hqbfd)

theorem CleanInv.removePeer (h : CleanInv names d U X g r) (hd : CleanScope names d U X)
    {p : PeerIntent} (hp : r.appliedPeers.lookup p.neighborAddress = some p) {c c' : FrrConfig}
    (hc : p.Unlinked names r c) (hown : ∀ i, PeerOwns names p.neighborAddress i → c' i = none)
    (hother : ∀ i, ¬ PeerOwns names p.neighborAddress i → c' i = c i) (s : VtyBatches) :
    CleanInv names d U X g { p.unlinkedState r c' s with
      appliedPeers := (p.unlinkedState r c' s).appliedPeers.erase p.neighborAddress } := by
  have hmem := mem_of_lookup_eq_some hp
  have hin := h.peersIn _ hmem
  have haddr := (h.rendered.keyedPeers _ p hp).2.1
  have hpeerApart := h.peerApart hd hin
  have hturn := PeerIntent.unlinkedState_turn hc hother s
  have hbooks := p.unlinkedState_books r c' s
  have hleaves := hturn.leaves
  have hsessions := PeerIntent.unlinkedState_sessions h.rendered.bfd (h.bfdApart hd hin)
    (h.rendered.managed_interface _) h.rendered.keyedBfd s hc
    (h.quiet.succeeds (bfdPeer_ok rfl haddr (by decide)))
    fun i hi => hother i (hi.not_peerOwns names p.neighborAddress)
  have hgone : ∀ i, PeerOwns names p.neighborAddress i →
      (p.unlinkedState r c' s).frr.running i = none := hown
  generalize p.unlinkedState r c' s = r₁ at *
  obtain ⟨c', s', managed, bfd, rfl⟩ := hturn.exists_eq
  have hrendered := h.rendered.peerTurn hturn
    (h.rendered.peers.erase hpeerApart hgone hleaves.peers peerScope_of_owns) hsessions
    (h.rendered.keyedPeers.erase _) (fun k a ha => h.rendered.keyedBfd k a (hbooks.old k a ha))
    (fun k => ?_) fun k q hq hqbfd => ?_
  · exact { h with
      rendered := hrendered
      peersIn := fun k hk => h.peersIn k (mem_erase.mp hk).2
      bfdIn := fun k hk => by
        obtain ⟨a, ha⟩ := Finmap.mem_iff.mp hk
        exact h.bfdIn k (mem_of_lookup_eq_some (hbooks.old k a ha))
      peers := fun k q q' hq hq' => h.peers k q q' hq (lookup_erase_eq_some hq').2
      peerSessions := fun k q hq hqbfd a ha => h.peerSessions k q hq hqbfd a (hbooks.old k a ha)
      bfd := fun k a b hb ha => h.bfd k a b hb (hbooks.old k a ha) }
  · by_cases heq : k = p.neighborAddress
    · subst heq
      simpa using hbooks.managed
    · rw [lookup_erase_ne heq]
      exact (hbooks.managedOther k heq).trans (h.rendered.managed k)
  · obtain ⟨hne, hq⟩ := lookup_erase_eq_some hq
    exact (hbooks.other k hne).trans (h.rendered.sessions k q hq hqbfd)

theorem reconcilePeers_clean (hd : CleanScope names d U X) {o : RoutingOrders}
    {desired : List PeerIntent} (hdesired : (peerFamily names).desiredMap desired = d.peers)
    (hr : CleanInv names d U X g r) :
    Outcome (reconcilePeers names o desired) r (CleanInv names d U X g) fun _ => False := by
  refine Family.reconcile_flawless _ ⟨fun k p r hk _ hr => ?_, fun k p r _ hk _ hr => ?_⟩ hr
  · rw [hdesired] at hk
    obtain ⟨rfl, hvalid⟩ := hd.peers k p hk
    refine (applyPeerIntent_outcome hr.rendered.ready).imp ?_ fun _ hfail =>
      hfail.1 ⟨hr.quiet, hvalid⟩
    rintro _ ⟨-, s, rfl⟩
    exact hr.applyPeer hd hk s
  · obtain ⟨rfl, hvalid⟩ := hr.rendered.keyedPeers k p hk
    refine (removePeer_outcome hr.rendered.ready).imp ?_ fun _ hfail =>
      hfail.1 ⟨hr.quiet, hvalid.1⟩
    rintro _ ⟨c, s, hc, rfl⟩
    exact hr.removePeer hd hk hc (fun _ hi => if_pos hi) (fun _ hi => if_neg hi) s

variable {c c' : FrrConfig} {p : PrefixIntent} {i : FrrLine}

/-- A prefix that takes the place of another leaves nothing of it: its route-map was dropped,
and the network is advertised again. -/
theorem PrefixIntent.lines_replace {old : Option PrefixIntent} (hold : ∀ q ∈ old, q.key = p.key)
    (hloses : Loses p.pfx c c')
    (hgone : p.protocol = .bgp → (p.HasAttributes ∨ ∃ q ∈ old, q.HasAttributes) →
      ∀ i, InRouteMap p.pfx i → c' i = none)
    (hi : PrefixOwns names p.key i) (hc : c i = old.bind fun q => written i (q.lines names)) :
    writeAll (p.lines names) c' i = written i (p.lines names) := by
  obtain ⟨hbgp, hi⟩ := hi
  replace hbgp : p.protocol = .bgp := hbgp
  rw [writeAll_apply]
  rcases hi with hnet | hmap
  · -- the line of the network, or a line that neither sets
    have hsame : c' i = c i := hloses.other (by simp [InRouteMap, hnet])
    rw [hsame, hc, p.written_of_network hbgp hnet]
    cases old with
    | none => exact or_none
    | some q =>
      have hkey := hold q rfl
      have hline : q.networkLine names = p.networkLine names := by
        rw [networkLine, networkLine, show q.pfx = p.pfx from congrArg Prod.snd hkey]
      rw [bind_some, q.written_of_network ((congrArg Prod.fst hkey).trans hbgp) hnet, hline]
      by_cases heq : p.networkLine names = i
      · rw [if_pos heq, some_or]
      · rw [if_neg heq, if_neg heq, or_none]
  · have hnone : c' i = none := by
      by_cases hattrs : p.HasAttributes ∨ ∃ q ∈ old, q.HasAttributes
      · exact hgone hbgp hattrs i hmap
      · have hc₀ : c i = none := by
          rw [hc]
          cases old with
          | none => rfl
          | some q =>
            have hno : ¬ q.HasAttributes := fun ha => hattrs (.inr ⟨q, rfl, ha⟩)
            have hq : q.protocol = .bgp := (congrArg Prod.fst (hold q rfl)).trans hbgp
            rw [bind_some, q.written_of_routeMap hq hmap, mapLines, if_neg hno]
            rfl
        exact (hloses i).elim (fun h => h.trans hc₀) fun h => h.2
    rw [hnone, or_none]

theorem PrefixIntent.lines_removed
    (hloses : Loses p.pfx (clear (fun i => p.protocol = .bgp ∧ i = p.networkLine names) c) c')
    (hgone : p.protocol = .bgp → p.HasAttributes → ∀ i, InRouteMap p.pfx i → c' i = none)
    (hi : PrefixOwns names p.key i) (hc : c i = written i (p.lines names)) : c' i = none := by
  obtain ⟨hbgp, hi⟩ := hi
  replace hbgp : p.protocol = .bgp := hbgp
  rcases hi with hnet | hmap
  · rw [hloses.other (by simp [InRouteMap, hnet])]
    by_cases heq : i = p.networkLine names
    · exact if_pos ⟨hbgp, heq⟩
    · rw [clear, if_neg fun h => heq h.2, hc, p.written_of_network hbgp hnet, if_neg (Ne.symm heq)]
  · by_cases ha : p.HasAttributes
    · exact hgone hbgp ha i hmap
    · have hc₀ : clear (fun i => p.protocol = .bgp ∧ i = p.networkLine names) c i = none := by
        have hne : i ≠ p.networkLine names := by
          rintro rfl
          cases hmap
        rw [clear, if_neg fun h => hne h.2, hc, p.written_of_routeMap hbgp hmap, mapLines, if_neg ha]
        rfl
      exact (hloses i).elim (fun h => h.trans hc₀) fun h => h.2

theorem CleanInv.prefixTurn (h : CleanInv names d U X g r)
    (hc : ∀ i, ¬ PrefixScope i → c i = r.frr.running i) (s : VtyBatches)
    {m : PrefixMap}
    (hprefixes : Renders PrefixScope (PrefixOwns names) (PrefixIntent.lines names) m c)
    (hkeyed : Keyed PrefixIntent.key PrefixIntent.Valid m)
    (hm : ∀ pfx, (RouteProtocol.bgp, pfx) ∈ m → pfx ∈ X) :
    CleanInv names d U X g { r.after c s with appliedPrefixes := m } := by
  have hnot {i : FrrLine} (hi : i.object = .bgp ∨ PeerScope i ∨ BfdScope i ∨ OspfScope i) :
      ¬ PrefixScope i := by
    rintro (⟨n, hn⟩ | ⟨n, hn⟩) <;> simp [PeerScope, BfdScope, OspfScope, hn] at hi
  have hrendered : Rendered names g { r.after c s with appliedPrefixes := m } :=
    { h.rendered with
      global := fun i hi => (hc i (hnot (.inl hi))).trans (h.rendered.global i hi)
      peers := h.rendered.peers.congr peerScope_of_owns fun i hi => hc i (hnot (.inr (.inl hi)))
      prefixes := hprefixes
      bfd := h.rendered.bfd.congr bfdScope_of_owns fun i hi =>
        hc i (hnot (.inr (.inr (.inl hi))))
      ospf := h.rendered.ospf.congr ospfScope_of_owns fun i hi =>
        hc i (hnot (.inr (.inr (.inr hi))))
      keyedPrefixes := hkeyed }
  exact { h with rendered := hrendered, prefixesIn := hm }

theorem Loses.of_not_prefixScope {pfx : String} (h : Loses pfx c c') (hi : ¬ PrefixScope i) :
    c' i = c i :=
  h.other fun hmap => hi (.inr ⟨_, hmap⟩)

theorem CleanInv.prefixApart (h : CleanInv names d U X g r) (hd : CleanScope names d U X)
    {k : PrefixKey} (hk : k.1 = .bgp → k.2 ∈ X) :
    Apart (PrefixOwns names) r.appliedPrefixes k := by
  intro k' hk' hne
  refine prefixOwns_apart hd.networks hd.routeMaps hk (fun hbgp => h.prefixesIn k'.2 ?_) hne
  rwa [← hbgp]

theorem reconcilePrefixes_clean (hd : CleanScope names d U X) {o : RoutingOrders}
    {desired : List PrefixIntent} (hdesired : (prefixFamily names).desiredMap desired = d.prefixes)
    {I : Reconciler → Prop} (hI : ∀ r m f, I r → I { r with appliedPrefixes := m, frr := f })
    (hr : CleanInv names d U X g r ∧ I r) :
    Outcome (reconcilePrefixes names o desired) r (fun r' => CleanInv names d U X g r' ∧ I r')
      fun _ => False := by
  refine Family.reconcile_flawless _ ⟨fun k p r hk _ hr => ?_, fun k p r _ hk _ hr => ?_⟩ hr
  · rw [hdesired] at hk
    obtain ⟨rfl, hvalid⟩ := hd.prefixes k p hk
    obtain ⟨hr, hrI⟩ := hr
    have hin : p.key.1 = .bgp → p.key.2 ∈ X := by
      intro hbgp
      have hmem := mem_of_lookup_eq_some hk
      refine hd.prefixesIn _ ?_
      rwa [← hbgp]
    have hapart := hr.prefixApart hd hin
    have hold : ∀ q ∈ r.appliedPrefixes.lookup p.key, q.key = p.key :=
      fun q hq => (hr.rendered.keyedPrefixes _ q hq).1
    refine (replacePrefixIntent_outcome hold hr.rendered.ready).imp ?_ fun _ hfail =>
      hfail.1 ⟨hr.quiet, hvalid⟩
    rintro _ ⟨c, s, hloses, ⟨hkept, hgone⟩, rfl⟩
    refine ⟨hr.prefixTurn (fun i hi => ?_) s (hr.rendered.prefixes.insert hapart (fun i hi => ?_)
      (fun i hscope hi => ?_) prefixScope_of_owns) (hr.rendered.keyedPrefixes.insert hvalid)
      fun pfx hx => ?_, hI r _ _ hrI⟩
    · rw [writeAll_of_unwritten fun e he heq => hi
        (heq.subst (prefixScope_of_owns _ _ (p.owns_lines names e he)))]
      exact hloses.of_not_prefixScope hi
    · exact p.lines_replace hold hloses
        (fun hbgp hattrs => hgone hbgp hr.quiet hvalid hattrs) hi
        (hr.rendered.prefixes.lookup prefixScope_of_owns hapart hi)
    · rw [writeAll_of_unwritten fun e he heq => hi (heq.subst (p.owns_lines names e he))]
      by_cases hbgp : p.protocol = .bgp
      · exact hloses.other fun hmap => hi ⟨hbgp, .inr hmap⟩
      · rw [hkept hbgp]
    · rcases mem_insert.mp hx with hkey | hx
      · rw [← hkey] at hin
        exact hin rfl
      · exact hr.prefixesIn pfx hx
  · obtain ⟨rfl, hvalid⟩ := hr.1.rendered.keyedPrefixes k p hk
    obtain ⟨hr, hrI⟩ := hr
    have hmem : p.key ∈ r.appliedPrefixes := mem_of_lookup_eq_some hk
    have hin : p.key.1 = .bgp → p.key.2 ∈ X := by
      intro hbgp
      refine hr.prefixesIn _ ?_
      rwa [← hbgp]
    refine (removePrefixFromFrr_outcome hr.rendered.ready).imp ?_ fun _ hfail =>
      hfail.1 ⟨hr.quiet, hvalid⟩
    rintro _ ⟨c, s, hloses, ⟨hkept, hgone⟩, rfl⟩
    refine ⟨hr.prefixTurn (fun i hi => ?_) s (hr.rendered.prefixes.erase (hr.prefixApart hd hin)
      (fun i hi => ?_) (fun i hscope hi => ?_) prefixScope_of_owns)
      (hr.rendered.keyedPrefixes.erase _)
      (fun pfx hx => hr.prefixesIn pfx (mem_erase.mp hx).2), hI r _ _ hrI⟩
    · rw [hloses.of_not_prefixScope hi]
      refine if_neg ?_
      rintro ⟨-, rfl⟩
      exact hi (.inl ⟨_, rfl⟩)
    · exact p.lines_removed hloses (fun hbgp => hgone hbgp hr.quiet hvalid) hi
        (hr.rendered.prefixes.own _ p hk i hi)
    · by_cases hbgp : p.protocol = .bgp
      · rw [hloses.other fun hmap => hi ⟨hbgp, .inr hmap⟩]
        refine if_neg ?_
        rintro ⟨-, rfl⟩
        exact hi ⟨hbgp, .inl rfl⟩
      · rw [hkept hbgp]

theorem CleanInv.bfdTurn (h : CleanInv names d U X g r)
    (hc : ∀ i, ¬ BfdScope i → c i = r.frr.running i) (s : VtyBatches)
    {m : BfdMap} (hbfd : RendersBfd names m c)
    (hkeyed : Keyed peerAddress BfdIntent.Valid m)
    (hsessions : ∀ k p, r.appliedPeers.lookup k = some p → p.bfdEnabled = true →
      m.lookup k = some p.session) (hin : ∀ k ∈ m, k ∈ U)
    (hpeer : ∀ k p, d.peers.lookup k = some p → p.bfdEnabled = true → ∀ a, m.lookup k = some a →
      Covers (p.session.lines names) (a.lines names))
    (hcovers : ∀ k a b, d.bfd.lookup k = some b → m.lookup k = some a →
      Covers (b.lines names) (a.lines names)) :
    CleanInv names d U X g { r.after c s with appliedBfd := m } := by
  have hnot {i : FrrLine} (hi : i.object = .bgp ∨ PeerScope i ∨ PrefixScope i ∨ OspfScope i) :
      ¬ BfdScope i := by
    rintro ⟨n, hn⟩
    simp [PeerScope, PrefixScope, OspfScope, hn] at hi
  have hrendered : Rendered names g { r.after c s with appliedBfd := m } :=
    { h.rendered with
      global := fun i hi => (hc i (hnot (.inl hi))).trans (h.rendered.global i hi)
      peers := h.rendered.peers.congr peerScope_of_owns fun i hi => hc i (hnot (.inr (.inl hi)))
      prefixes := h.rendered.prefixes.congr prefixScope_of_owns fun i hi =>
        hc i (hnot (.inr (.inr (.inl hi))))
      bfd := hbfd
      ospf := h.rendered.ospf.congr ospfScope_of_owns fun i hi =>
        hc i (hnot (.inr (.inr (.inr hi))))
      keyedBfd := hkeyed
      sessions := hsessions }
  exact { h with
    rendered := hrendered
    bfdIn := hin
    peerSessions := hpeer
    bfd := hcovers }

theorem CleanInv.applyBfd (h : CleanInv names d U X g r) (hd : CleanScope names d U X)
    {b : BfdIntent} (hb : d.bfd.lookup b.peerAddress = some b)
    (hfree : ∀ p, r.appliedPeers.lookup b.peerAddress = some p → p.bfdEnabled ≠ true)
    (hfree' : ∀ p, d.peers.lookup b.peerAddress = some p → p.bfdEnabled ≠ true)
    (s : VtyBatches) :
    CleanInv names d U X g { r.after (writeAll (b.lines names) r.frr.running) s with
      appliedBfd := r.appliedBfd.insert b.peerAddress b } := by
  have hin := hd.bfdIn _ (mem_of_lookup_eq_some hb)
  have howns : ∀ e ∈ b.lines names, BfdOwns names b.peerAddress e.1 :=
    fun e he => bfdOwns_of_session (b.owns_lines names e he)
  refine h.bfdTurn (fun i hi => ?_) s (h.rendered.bfd.write howns
      (fun a ha => h.bfd _ a b hb ha) (h.bfdApart hd hin)
      bfdScope_of_owns)
    (h.rendered.keyedBfd.insert (hd.bfd _ b hb).2) (fun k p hp hbfd => ?_)
    (forall_mem_insert hin h.bfdIn) (fun k p hp hbfd a ha => ?_) fun k a b' hb' ha => ?_
  · exact writeAll_of_unwritten (fun e he heq =>
      hi (heq.subst (bfdScope_of_owns _ _ (howns e he)))) _
  · have hne : k ≠ b.peerAddress := by
      rintro rfl
      exact hfree p hp hbfd
    exact (lookup_insert_of_ne _ hne).trans (h.rendered.sessions k p hp hbfd)
  · rcases lookup_insert_eq_some ha with ⟨rfl, rfl⟩ | ⟨-, ha⟩
    · exact absurd hbfd (hfree' p hp)
    · exact h.peerSessions k p hp hbfd a ha
  · rcases lookup_insert_eq_some ha with ⟨rfl, rfl⟩ | ⟨-, ha⟩
    · rw [some.inj (hb'.symm.trans hb)]
      exact Covers.refl _
    · exact h.bfd k a b' hb' ha

theorem CleanInv.removeBfd (h : CleanInv names d U X g r) (hd : CleanScope names d U X)
    {b : BfdIntent} (hb : r.appliedBfd.lookup b.peerAddress = some b)
    (hm : b.peerAddress ∉ r.peerManagedBfd) (s : VtyBatches) :
    CleanInv names d U X g { r.after (clear (·.session? =
        some (names.addr b.peerAddress, b.interfaceName)) r.frr.running) s with
      appliedBfd := r.appliedBfd.erase b.peerAddress } := by
  have hin := h.bfdIn _ (mem_of_lookup_eq_some hb)
  refine h.bfdTurn (fun i hi => clear_session_other (fun howns => hi ⟨_, howns⟩) _) s
    (renders_clear_session h.rendered.bfd (h.bfdApart hd hin)
      (fun a ha => by rw [some.inj (ha.symm.trans hb)]) h.rendered.keyedBfd)
    (h.rendered.keyedBfd.erase _) (fun k p hp hbfd => ?_)
    (fun k hk => h.bfdIn k (mem_erase.mp hk).2)
    (fun k p hp hbfd a ha => h.peerSessions k p hp hbfd a (lookup_erase_eq_some ha).2)
    fun k a b' hb' ha => h.bfd k a b' hb' (lookup_erase_eq_some ha).2
  have hne : k ≠ b.peerAddress := by
    rintro rfl
    exact hm ((h.rendered.managed _).mpr ⟨p, hp, hbfd⟩)
  exact (lookup_erase_ne hne).trans (h.rendered.sessions k p hp hbfd)

theorem reconcileBfd_clean (hd : CleanScope names d U X) {o : RoutingOrders}
    {desired : List BfdIntent} (hdesired : (bfdFamily names).desiredMap desired = d.bfd)
    (hr : CleanInv names d U X g r ∧ r.appliedPeers = d.peers) :
    Outcome (reconcileBfd names o desired) r
      (fun r' => CleanInv names d U X g r' ∧ r'.appliedPeers = d.peers) fun _ => False := by
  refine Family.reconcile_flawless _ ⟨fun k b r hk hne hr => ?_, fun k b r _ hk hkept hr => ?_⟩ hr
  · rw [hdesired] at hk
    obtain ⟨rfl, hvalid⟩ := hd.bfd k b hk
    obtain ⟨hr, hpeers⟩ := hr
    have hfree : ∀ p, r.appliedPeers.lookup b.peerAddress = some p → p.bfdEnabled ≠ true := by
      intro p hp hbfd
      refine hne ((hr.rendered.sessions _ p hp hbfd).trans ?_)
      rw [hpeers] at hp
      rw [hd.peerSessions _ p hp hbfd b hk]
    refine (applyBfdIntent_outcome hr.rendered.ready).imp ?_ fun _ hfail =>
      hfail.1 ⟨hr.quiet, hvalid⟩
    rintro _ ⟨s, rfl⟩
    exact ⟨hr.applyBfd hd hk hfree (hpeers ▸ hfree) s, hpeers⟩
  · obtain ⟨hr, hpeers⟩ := hr
    obtain ⟨rfl, hvalid⟩ := hr.rendered.keyedBfd k b hk
    refine (removeBfdFromFrr_outcome hr.rendered.ready).imp ?_ fun _ hfail =>
      hfail.1 ⟨hr.quiet, hvalid⟩
    rintro _ ⟨s, rfl⟩
    exact ⟨hr.removeBfd hd hk (of_decide_eq_false hkept) s, hpeers⟩

theorem OspfIntent.Plain.lines {a : OspfIntent} (h : a.Plain) :
    ∀ e ∈ a.lines, e.1 = .ospf a.ipv6 a.interfaceName .area ∨
      a.passive = true ∧ e.1 = .ospf a.ipv6 a.interfaceName .passive := by
  obtain ⟨hcost, hintervals⟩ := h
  have hhello : (if a.ipv6 then 0 else a.helloInterval) = 0 := by
    cases hv6 : a.ipv6 with
    | true => rfl
    | false => exact (hintervals hv6).1
  have hdead : (if a.ipv6 then 0 else a.deadInterval) = 0 := by
    cases hv6 : a.ipv6 with
    | true => rfl
    | false => exact (hintervals hv6).2
  simp only [OspfIntent.lines, ospfLines, hcost, hhello, hdead, flatten_cons,
    flatten_nil, forall_mem_append, forall_mem_cons, forall_mem_onlyIf]
  simp

theorem CleanInv.ospfTurn (h : CleanInv names d U X g r)
    (hc : ∀ i, ¬ OspfScope i → c i = r.frr.running i) (s : VtyBatches)
    {m : OspfMap}
    (hospf : Renders OspfScope OspfOwns OspfIntent.lines m c)
    (hkeyed : Keyed OspfIntent.interfaceName OspfIntent.Valid m)
    (hcovers : ∀ k a b, d.ospf.lookup k = some b → m.lookup k = some a → Covers b.lines a.lines)
    (hplain : ∀ k a, m.lookup k = some a → k ∉ d.ospf → a.Plain) :
    CleanInv names d U X g { r.after c s with appliedOspf := m } := by
  have hnot {i : FrrLine} (hi : i.object = .bgp ∨ PeerScope i ∨ PrefixScope i ∨ BfdScope i) :
      ¬ OspfScope i := by
    rintro ⟨n, hn⟩
    simp [PeerScope, PrefixScope, BfdScope, hn] at hi
  have hrendered : Rendered names g { r.after c s with appliedOspf := m } :=
    { h.rendered with
      global := fun i hi => (hc i (hnot (.inl hi))).trans (h.rendered.global i hi)
      peers := h.rendered.peers.congr peerScope_of_owns fun i hi => hc i (hnot (.inr (.inl hi)))
      prefixes := h.rendered.prefixes.congr prefixScope_of_owns fun i hi =>
        hc i (hnot (.inr (.inr (.inl hi))))
      bfd := h.rendered.bfd.congr bfdScope_of_owns fun i hi =>
        hc i (hnot (.inr (.inr (.inr hi))))
      ospf := hospf
      keyedOspf := hkeyed }
  exact { h with rendered := hrendered, ospf := hcovers, ospfRemoved := hplain }

theorem reconcileOspf_clean (hd : CleanScope names d U X) {o : RoutingOrders}
    {desired : List OspfIntent} (hdesired : (ospfFamily names).desiredMap desired = d.ospf)
    (hr : CleanInv names d U X g r) :
    Outcome (reconcileOspf names o desired) r (CleanInv names d U X g) fun _ => False := by
  refine Family.reconcile_flawless _ ⟨fun k b r hk _ hr => ?_, fun k b r hno hk _ hr => ?_⟩ hr
  · rw [hdesired] at hk
    obtain ⟨rfl, hvalid⟩ := hd.ospf k b hk
    refine (applyOspfIntent_outcome hr.rendered.ready).imp ?_ fun _ hfail =>
      hfail.1 ⟨hr.quiet, hvalid⟩
    rintro _ ⟨s, rfl⟩
    refine hr.ospfTurn (fun i hi => ?_) s (hr.rendered.ospf.write b.owns_lines
      (fun a ha => hr.ospf _ a b hk ha) (fun _ _ hne => ospfOwns_apart hne) ospfScope_of_owns)
      (hr.rendered.keyedOspf.insert hvalid) (fun k a b' hb' ha => ?_) fun k a ha hno => ?_
    · exact writeAll_of_unwritten (fun e he heq =>
        hi (heq.subst (ospfScope_of_owns _ _ (b.owns_lines e he)))) _
    · rcases lookup_insert_eq_some ha with ⟨rfl, rfl⟩ | ⟨-, ha⟩
      · rw [some.inj (hb'.symm.trans hk)]
        exact Covers.refl _
      · exact hr.ospf k a b' hb' ha
    · rcases lookup_insert_eq_some ha with ⟨rfl, rfl⟩ | ⟨-, ha⟩
      · exact absurd (mem_of_lookup_eq_some hk) hno
      · exact hr.ospfRemoved k a ha hno
  · rw [hdesired] at hno
    obtain ⟨rfl, hvalid⟩ := hr.rendered.keyedOspf k b hk
    refine (removeOspfFromFrr_outcome hr.rendered.ready).imp ?_ fun _ hfail =>
      hfail.1 ⟨hr.quiet, hvalid⟩
    rintro _ ⟨s, rfl⟩
    have hother : ∀ i, ¬ OspfOwns b.interfaceName i →
        clear (fun l => l = .ospf b.ipv6 b.interfaceName .area ∨
          b.passive = true ∧ l = .ospf b.ipv6 b.interfaceName .passive) r.frr.running i =
          r.frr.running i := by
      intro i hi
      refine if_neg ?_
      rintro (rfl | ⟨-, rfl⟩) <;> exact hi rfl
    refine hr.ospfTurn (fun i hi => hother i fun howns => hi ⟨_, howns⟩) s
      (hr.rendered.ospf.erase (fun _ _ hne => ospfOwns_apart hne) (fun i hi => ?_)
        (fun i _ hi => hother i hi) ospfScope_of_owns) (hr.rendered.keyedOspf.erase _)
      (fun k a b' hb' ha => hr.ospf k a b' hb' (lookup_erase_eq_some ha).2)
      fun k a ha hno => hr.ospfRemoved k a (lookup_erase_eq_some ha).2 hno
    by_cases hline : i = .ospf b.ipv6 b.interfaceName .area ∨
        b.passive = true ∧ i = .ospf b.ipv6 b.interfaceName .passive
    · exact if_pos hline
    · refine (if_neg hline).trans ?_
      rw [hr.rendered.ospf.own _ b hk i hi]
      refine written_eq_none_iff.mpr fun e he heq => hline ?_
      rw [← heq]
      exact (hr.ospfRemoved _ b hk hno).lines e he

end Turns

def Unstarted (g : Option BgpGlobalConfig) (r : Reconciler) : Prop :=
  ∃ f : FrrClient, f.localAs = 0 ∧ f.running = (fun _ => none) ∧ r = newReconciler f g

/-- The state between two calls: nothing has been configured yet, or `P` holds of it. -/
def Begun (g : Option BgpGlobalConfig) (P : BgpGlobalConfig → Reconciler → Prop)
    (r : Reconciler) : Prop := Unstarted g r ∨ ∃ g', g = some g' ∧ P g' r

def Configurable (g : Option BgpGlobalConfig) : Prop :=
  ∃ g', g = some g' ∧ g'.localAs ≠ 0 ∧ VtySafe g'.routerId

section Cycle

variable {names : FrrNames} {m : RoutingManager} {o : RoutingOrders} {U X : Set String}
  {g : Option BgpGlobalConfig} {g' : BgpGlobalConfig} {d : OwnerIntents} {r r' : Reconciler}

theorem cleanInv_configured {f : FrrClient} (hf : f.localAs = 0)
    (hrunning : f.running = fun _ => none) (hquiet : ∀ n commands, f.fails n commands = false)
    (has : g'.localAs ≠ 0) (hsafe : VtySafe g'.routerId) (s : VtyBatches) :
    CleanInv names d U X g' ((newReconciler f (some g')).configured g' s) := by
  have hother : ∀ i, i.object ≠ .bgp →
      writeAll (globalLines g'.localAs g'.routerId) (fun _ => none) i = none := by
    intro i hi
    refine writeAll_of_unwritten (fun e he heq => hi ?_) _
    rw [← heq]
    exact globalLines_object _ _ e he
  rw [Reconciler.configured_same s (.inl hf), show (newReconciler f (some g')).frr = f from rfl,
    hrunning]
  have hrendered : Rendered names g' { newReconciler f (some g') with
      bgpConfigured := true
      frr := { f.after (writeAll (globalLines g'.localAs g'.routerId) fun _ => none) s with
        localAs := g'.localAs } } := by
    refine ⟨rfl, rfl, rfl, rfl, has, hsafe, fun i _ => ?_, ?_, ?_, ?_, ?_, Keyed.empty, Keyed.empty,
      Keyed.empty, Keyed.empty, ?_, ?_⟩
    · change writeAll _ _ i = _
      rw [writeAll_apply, or_none]
    · refine Renders.empty.congr peerScope_of_owns fun i hi => hother i ?_
      obtain ⟨n, hi⟩ := hi
      simp [hi]
    · refine Renders.empty.congr prefixScope_of_owns fun i hi => hother i ?_
      rcases hi with ⟨n, hi⟩ | ⟨n, hi⟩ <;> simp [hi]
    · refine Renders.empty.congr bfdScope_of_owns fun i hi => hother i ?_
      obtain ⟨n, hi⟩ := hi
      simp [hi]
    · refine Renders.empty.congr ospfScope_of_owns fun i hi => hother i ?_
      obtain ⟨n, hi⟩ := hi
      simp [hi]
    · simp [newReconciler]
    · simp [newReconciler]
  refine ⟨hrendered, hquiet, ?_, ?_, ?_, ?_, ?_, ?_, ?_, ?_⟩
  · exact fun _ hk => absurd hk notMem_empty
  · exact fun _ hk => absurd hk notMem_empty
  · exact fun _ hk => absurd hk notMem_empty
  all_goals simp [newReconciler]

theorem ensureBgpGlobal_clean (hquiet : r.Quiet)
    (h : Begun g (CleanInv names d U X) r) :
    Outcome (ensureBgpGlobal names) r (fun r' => ∃ g', g = some g' ∧ CleanInv names d U X g' r')
      fun r' => Unstarted g r' ∧ ¬ Configurable g := by
  rcases h with ⟨f, hf, hrunning, rfl⟩ | ⟨g', rfl, h⟩
  · have hlive : LiveInstance f.localAs f.running :=
      ⟨fun _ => by rw [hrunning], fun h0 => absurd hf h0⟩
    refine ensureBgpGlobal_outcome hlive ?_ ?_ ?_ ?_ ?_
    · exact fun h => absurd h Bool.false_ne_true
    · refine fun _ hunset => ⟨⟨f, hf, hrunning, rfl⟩, ?_⟩
      rintro ⟨g', hg', has, -⟩
      exact has (hunset g' hg')
    · intro _ g' s hg' has hsafe
      obtain rfl : g = some g' := hg'
      exact ⟨g', rfl, cleanInv_configured hf hrunning hquiet has hsafe s⟩
    · intro _ g' s hg' _ hfail
      refine ⟨⟨f.after f.running s, hf, hrunning, rfl⟩, ?_⟩
      rintro ⟨g'', hg'', -, hsafe⟩
      obtain rfl : g' = g'' := some.inj (hg'.symm.trans hg'')
      exact hfail ⟨hsafe, hquiet⟩
    · exact fun _ g' s _ h0 => absurd hf h0
  · unfold Outcome ensureBgpGlobal
    rw [if_pos h.rendered.configured]
    exact ⟨g', rfl, h⟩

theorem Unstarted.hasFrr (h : Unstarted g r) : r.hasFrr = true := by
  obtain ⟨f, -, -, rfl⟩ := h
  rfl

theorem reconcile_clean (hstore : m.store.OneOwner m.owner)
    (hd : CleanScope names m.desired U X) (hquiet : r.Quiet)
    (h : Begun g (CleanInv names m.desired U X) r) :
    Outcome (reconcile names o m.store) r
      (fun r' => ∃ g', g = some g' ∧ Rendered names g' r' ∧ Settled m.desired r')
      fun r' => Unstarted g r' ∧ ¬ Configurable g := by
  have hfrr : r.hasFrr = true := by
    rcases h with h | ⟨g', -, h⟩
    · exact h.hasFrr
    · exact h.rendered.hasFrr
  have hcycle : Outcome (reconcile names o m.store) r
      (fun r' => ∃ g', g = some g' ∧ Rendered names g' r')
      fun r' => Unstarted g r' ∧ ¬ Configurable g := by
    refine reconcile_outcome hfrr (ensureBgpGlobal_clean hquiet h) fun r₀ hr₀ => ?_
    obtain ⟨g', hg', hr₀⟩ := hr₀
    have hfalse {x : RoutingCall} : Keeps x fun _ => False := fun _ h => h.elim
    have hpeers := fun r (hr : CleanInv names m.desired U X g' r) =>
      ((reconcilePeers_clean hd (desiredMap_peers hstore o) hr).and
        (reconcilePeers_settles (o := o) (I := fun _ => True)
          (fun _ _ h => h) (fun _ _ _ h => h) (fun _ _ h => h) _ trivial)).imp
        (fun r' (h : _ ∧ _ ∧ _) => (⟨h.1, h.2.2.trans (desiredMap_peers hstore o)⟩ :
          CleanInv names m.desired U X g' r' ∧ r'.appliedPeers = m.desired.peers))
        fun _ (h : False ∧ _) => h.1
    have hprefixes := fun r (hr : CleanInv names m.desired U X g' r ∧
        r.appliedPeers = m.desired.peers) => reconcilePrefixes_clean (o := o) hd
      (desiredMap_prefixes hstore o) (I := fun r => r.appliedPeers = m.desired.peers)
      (fun _ _ _ h => h) hr
    refine (reconcileFamilies_outcome hpeers hprefixes
      (fun r hr => reconcileBfd_clean hd (desiredMap_bfd hstore o) hr)
      (fun r hr => reconcileOspf_clean hd (desiredMap_ospf hstore o) hr.1) hfalse hfalse hfalse
      hr₀).imp (fun r' h => ⟨g', hg', h.rendered⟩) fun _ h => h.elim
  have hsettles : Outcome (reconcile names o m.store) r (Settled m.desired) fun _ => True := by
    unfold Outcome
    cases hrun : reconcile names o m.store r with
    | ok u r' => exact (reconcile_settled hstore hfrr hrun).1
    | error e r' => trivial
  refine (hcycle.and hsettles).imp ?_ fun _ h => h.1
  rintro r' ⟨⟨g', hg', hr'⟩, hs⟩
  exact ⟨g', hg', hr', hs⟩

theorem Rendered.bfd_lookup (h : Rendered names g' r) (hs : Settled d r) (k : String) :
    r.appliedBfd.lookup k = (d.bfd.lookup k).or
      (((d.peers.lookup k).filter (·.bfdEnabled)).map PeerIntent.session) := by
  have hmanaged := h.managed k
  rw [hs.peers] at hmanaged
  cases hb : d.bfd.lookup k with
  | some b => rw [hs.bfd k b hb, some_or]
  | none =>
    have hno := lookup_eq_none.mp hb
    rw [none_or]
    by_cases hp : ∃ p, d.peers.lookup k = some p ∧ p.bfdEnabled = true
    · obtain ⟨p, hp, hbfd⟩ := hp
      rw [h.sessions k p (by rw [hs.peers, hp]) hbfd, hp]
      simp [hbfd]
    · have hnone : r.appliedBfd.lookup k = none := by
        refine lookup_eq_none.mpr fun hk => hp (hmanaged.mp (hs.managed k hk hno))
      have hfilter : (d.peers.lookup k).filter (·.bfdEnabled) = none := by
        refine filter_eq_none_iff.mpr fun p hpk hbfd => hp ⟨p, hpk, hbfd⟩
      rw [hnone, hfilter]
      rfl

theorem Rendered.unique (h : Rendered names g' r) (h' : Rendered names g' r')
    (hs : Settled d r) (hs' : Settled d r') : r.frr.running = r'.frr.running := by
  have hbfd : r.appliedBfd = r'.appliedBfd :=
    Finmap.ext_lookup fun k => (h.bfd_lookup hs k).trans (h'.bfd_lookup hs' k).symm
  have hpeers := h'.peers
  have hprefixes := h'.prefixes
  have hsessions := h'.bfd
  have hospf := h'.ospf
  rw [hs'.peers, ← hs.peers] at hpeers
  rw [hs'.prefixes, ← hs.prefixes] at hprefixes
  rw [← hbfd] at hsessions
  rw [hs'.ospf, ← hs.ospf] at hospf
  funext i
  cases hi : i.object with
  | bgp => rw [h.global i hi, h'.global i hi]
  | neighbor a => exact h.peers.unique hpeers ⟨a, hi⟩
  | network n => exact h.prefixes.unique hprefixes (.inl ⟨n, hi⟩)
  | routeMap n => exact h.prefixes.unique hprefixes (.inr ⟨n, hi⟩)
  | session a => exact h.bfd.unique hsessions ⟨a, hi⟩
  | interface n => exact h.ospf.unique hospf ⟨n, hi⟩

def CleanEnd (names : FrrNames) (g : Option BgpGlobalConfig) (d : OwnerIntents)
    (r : Reconciler) : Prop :=
  (∃ g', g = some g' ∧ Rendered names g' r ∧ Settled d r) ∨ Unstarted g r ∧ ¬ Configurable g

theorem CleanEnd.unique (h : CleanEnd names g d r) (h' : CleanEnd names g d r') :
    r.frr.running = r'.frr.running := by
  have hconf {r : Reconciler} {g' : BgpGlobalConfig} (hg' : g = some g')
      (hr : Rendered names g' r) : Configurable g := ⟨g', hg', hr.alive, hr.safe⟩
  rcases h with ⟨g', hg', hr, hs⟩ | ⟨hr, hno⟩
  · rcases h' with ⟨g'', hg'', hr', hs'⟩ | ⟨-, hno⟩
    · obtain rfl := some.inj (hg'.symm.trans hg'')
      exact hr.unique hr' hs hs'
    · exact absurd (hconf hg' hr) hno
  · rcases h' with ⟨g'', hg'', hr', -⟩ | ⟨hr', -⟩
    · exact absurd (hconf hg'' hr') hno
    · obtain ⟨f, -, hf, rfl⟩ := hr
      obtain ⟨f', -, hf', rfl⟩ := hr'
      exact hf.trans hf'.symm

theorem CleanCycle.scope (h : CleanCycle names m) (hstore : m.store.OneOwner m.owner) :
    CleanScope names m.desired m.addrsInUse m.networksInUse where
  peers k p hp := ⟨(hstore.keyed.peers k p hp).1, h.validPeers k p hp⟩
  prefixes k p hp := ⟨(hstore.keyed.prefixes k p hp).1, h.validPrefixes k p hp⟩
  bfd k b hb := ⟨(hstore.keyed.bfd k b hb).1, h.validBfd k b hb⟩
  ospf k a ha := ⟨(hstore.keyed.ospf k a ha).1, h.validOspf k a ha⟩
  addrs := h.addrs
  networks := h.networks
  routeMaps := h.routeMaps
  peersIn _ hk := .inl (.inl hk)
  bfdIn _ hk := .inr (.inl hk)
  prefixesIn _ := .inl
  peerSessions k p hp hbfd := (h.peerSessions k p hp hbfd).1

theorem CleanCycle.cleanInv (h : CleanCycle names m) (hr : Rendered names g' m.reconciler) :
    CleanInv names m.desired m.addrsInUse m.networksInUse g' (m.reconciler.begin neverFails) where
  rendered := { hr with }
  quiet _ _ := rfl
  peersIn _ hk := .inl (.inr hk)
  bfdIn _ hk := .inr (.inr hk)
  prefixesIn _ := .inr
  peers := h.peers
  peerSessions k p hp hbfd := (h.peerSessions k p hp hbfd).2
  bfd := h.bfd
  ospf := h.ospf
  ospfRemoved := h.ospfRemoved

theorem Unstarted.begin (h : Unstarted g r) (fails : VtyFaults) : Unstarted g (r.begin fails) := by
  obtain ⟨f, hf, hrunning, rfl⟩ := h
  exact ⟨{ f with sent := [], fails := fails }, hf, hrunning, rfl⟩

theorem CleanCycle.start (h : CleanCycle names m)
    (hr : Begun g (Rendered names) m.reconciler) :
    Begun g (CleanInv names m.desired m.addrsInUse m.networksInUse)
      (m.reconciler.begin neverFails) := by
  rcases hr with hr | ⟨g', hg', hr⟩
  · exact .inl (hr.begin neverFails)
  · exact .inr ⟨g', hg', h.cleanInv hr⟩

theorem step_rendered (hstore : m.store.OneOwner m.owner)
    (hr : Begun g (Rendered names) m.reconciler)
    {e : RoutingEvent}
    (hclean : ∀ o fails, e = .reconcile o fails → fails = neverFails ∧ CleanCycle names m) :
    Begun g (Rendered names) (m.step names e).reconciler := by
  cases e with
  | change c =>
    change Begun g (Rendered names) (m.change c).reconciler
    rwa [(change_changed m c).reconciler]
  | reconcile o fails =>
    obtain ⟨rfl, hcycle⟩ := hclean o fails rfl
    refine outcome_stateAfter (I := Begun g (Rendered names)) ((reconcile_clean hstore
      (hcycle.scope hstore) (fun _ _ => rfl) (hcycle.start hr)).imp ?_ fun r' h => .inl h.1)
    rintro r' ⟨g', hg', hr', -⟩
    exact .inr ⟨g', hg', hr'⟩

theorem run_rendered (events : List RoutingEvent) (hstore : m.store.OneOwner m.owner)
    (hr : Begun g (Rendered names) m.reconciler) (hrun : CleanRun names m events) :
    Begun g (Rendered names) (m.run names events).reconciler := by
  induction events generalizing m with
  | nil => exact hr
  | cons e events ih =>
    exact ih (step_oneOwner names hstore e) (step_rendered hstore hr hrun.1) hrun.2

/-- After a cycle FRR has what one cycle of the same intents brings to an empty FRR, when all
cycles are clean. -/
theorem reconcile_converges (names : FrrNames) (owner : String) (g : Option BgpGlobalConfig)
    (events : List RoutingEvent) (hrun : CleanRun names (newRoutingManager owner g) events)
    (hclean : CleanCycle names ((newRoutingManager owner g).run names events))
    (o o' : RoutingOrders) :
    (stateAfter (reconcile names o ((newRoutingManager owner g).run names events).store)
        (((newRoutingManager owner g).run names events).reconciler.begin neverFails)).frr.running =
      (stateAfter (reconcile names o' ((newRoutingManager owner g).run names events).store)
        ((newReconciler newFrrClient g).begin neverFails)).frr.running := by
  have hnew : Unstarted g (newReconciler newFrrClient g) := ⟨newFrrClient, rfl, rfl, rfl⟩
  have hstore := run_oneOwner names
    (m := newRoutingManager owner g) (IntentStore.OneOwner.empty owner) events
  have hr := run_rendered events (IntentStore.OneOwner.empty owner)
    (.inl (show Unstarted g (newRoutingManager owner g).reconciler from hnew)) hrun
  generalize (newRoutingManager owner g).run names events = m at *
  have hend {o : RoutingOrders} {r : Reconciler} (hquiet : r.Quiet)
      (hr : Begun g (CleanInv names m.desired m.addrsInUse m.networksInUse) r) :
      CleanEnd names g m.desired (stateAfter (reconcile names o m.store) r) :=
    outcome_stateAfter ((reconcile_clean hstore (hclean.scope hstore) hquiet hr).imp
      (fun _ => .inl) fun _ => .inr)
  exact (hend (fun _ _ => rfl) (hclean.start hr)).unique
    (hend (fun _ _ => rfl) (.inl (hnew.begin neverFails)))

def peerComesAndGoes : List RoutingEvent :=
  [.change (.applyPeer "10.0.0.2" 65002 none), .reconcile sortedOrders neverFails,
    .change (.removePeer "10.0.0.2")]

theorem reconcile_converges_example :
    (stateAfter (reconcile ⟨id, id⟩ sortedOrders (exampleManager peerComesAndGoes).store)
        ((exampleManager peerComesAndGoes).reconciler.begin neverFails)).frr.running =
      (stateAfter (reconcile ⟨id, id⟩ sortedOrders (exampleManager peerComesAndGoes).store)
        ((exampleManager []).reconciler.begin neverFails)).frr.running := by
  have hclean {m : RoutingManager}
      (hpeers : m.desired.peers = ∅ ∨ m.reconciler.appliedPeers = ∅ ∧
        m.desired.peers = (∅ : PeerMap).insert "10.0.0.2" (peerOf "10.0.0.2" 65002 none))
      (hdesired : m.desired.prefixes = ∅ ∧ m.desired.bfd = ∅ ∧ m.desired.ospf = ∅)
      (happlied : m.reconciler.appliedPrefixes = ∅ ∧ m.reconciler.appliedBfd = ∅ ∧
        m.reconciler.appliedOspf = ∅) : CleanCycle ⟨id, id⟩ m := by
    obtain ⟨hprefixes, hbfd, hospf⟩ := hdesired
    obtain ⟨happ, happBfd, happOspf⟩ := happlied
    refine ⟨Function.injective_id.injOn, Function.injective_id.injOn, ?_, fun k p hp => ?_, ?_, ?_,
      ?_, fun k p q hp hq => ?_, ?_, ?_, ?_, ?_⟩
    · rintro pfx (hx | hx)
      · rw [hprefixes] at hx
        exact absurd hx notMem_empty
      · rw [happ] at hx
        exact absurd hx notMem_empty
    · rcases hpeers with hpeers | ⟨-, hpeers⟩
      · simp [hpeers] at hp
      · rw [hpeers] at hp
        rcases lookup_insert_eq_some hp with ⟨-, rfl⟩ | ⟨-, hp⟩
        · decide +kernel
        · simp at hp
    · simp [hprefixes]
    · simp [hbfd]
    · simp [hospf]
    · rcases hpeers with hpeers | ⟨hpeers, -⟩
      · simp [hpeers] at hp
      · simp [hpeers] at hq
    · simp [hbfd, happBfd]
    · simp [hbfd]
    · simp [hospf]
    · simp [happOspf]
  have hrun : CleanRun ⟨id, id⟩ (newRoutingManager "novanet" (some ⟨65001, "10.0.0.1"⟩))
      peerComesAndGoes := by
    refine ⟨nofun, ?_, nofun, trivial⟩
    rintro _ _ ⟨⟩
    exact ⟨rfl, hclean (by decide +kernel) (by decide +kernel) (by decide +kernel)⟩
  exact reconcile_converges ⟨id, id⟩ "novanet" (some ⟨65001, "10.0.0.1"⟩) peerComesAndGoes hrun
    (hclean (by decide +kernel) (by decide +kernel) (by decide +kernel)) sortedOrders sortedOrders

/-- The cost of an interface is changed to none: the command that would take it away is never
sent. -/
def costChanges : List RoutingEvent :=
  [.change (.enableOspf "eth0" "0.0.0.0" false 10 0 0 false),
    .reconcile sortedOrders neverFails,
    .change (.enableOspf "eth0" "0.0.0.0" false 0 0 0 false)]

theorem ospf_cost_survives :
    (stateAfter (reconcile ⟨id, id⟩ sortedOrders (exampleManager costChanges).store)
        ((exampleManager costChanges).reconciler.begin neverFails)).frr.running
          (.ospf false "eth0" .cost) = some ["10"] ∧
      (stateAfter (reconcile ⟨id, id⟩ sortedOrders (exampleManager costChanges).store)
        ((exampleManager []).reconciler.begin neverFails)).frr.running
          (.ospf false "eth0" .cost) = none := by
  decide +kernel

end Cycle

end NovaNet
