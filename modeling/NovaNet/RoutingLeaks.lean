import NovaNet.RoutingOutcomes
import NovaNet.RoutingSettled

/-! What failed cycles leave behind in FRR. A peer whose application failed half way may be
configured without a record, so that it is safe only as long as the peer stays desired. -/

namespace NovaNet

open ErrorState Finmap KeyedConfig LastWrite RouteProtocol PrefixIntent

attribute [local simp] FrrLine.object

def SessionsAre (names : FrrNames) (m : BfdMap) (c : FrrConfig) :
    Prop :=
  ∀ a i, (c (.bfdPeer a i none)).isSome = true ↔
    ∃ k b, m.lookup k = some b ∧ names.addr k = a ∧ b.interfaceName = i

def NetworksAre (names : FrrNames) (m : PrefixMap) (c : FrrConfig) : Prop :=
  ∀ af n, (c (.network af n)).isSome = true ↔
    ∃ pfx, (bgp, pfx) ∈ m ∧ prefixAfi pfx = af ∧ names.network pfx = n

/-- FRR has the neighbors, networks and BFD sessions of the intents and no others. -/
structure ExactlyConfigured (names : FrrNames) (d : OwnerIntents) (c : FrrConfig) : Prop where
  neighbors : ∀ a, (c (.neighbor a .remoteAs)).isSome = true ↔ ∃ k ∈ d.peers, names.addr k = a
  networks : NetworksAre names d.prefixes c
  sessions : ∀ a i, (c (.bfdPeer a i none)).isSome = true ↔
    (∃ k b, d.bfd.lookup k = some b ∧ names.addr k = a ∧ b.interfaceName = i) ∨
      ∃ k p, d.peers.lookup k = some p ∧ p.bfdEnabled = true ∧ names.addr k = a ∧ i = ""

/-- A manager with the intents of its last cycle, which the source does not keep. -/
structure CycledManager where
  manager : RoutingManager
  last : OwnerIntents

namespace CycledManager

variable (names : FrrNames)

def step (m : CycledManager) : RoutingEvent → CycledManager
  | .change c => ⟨m.manager.step names (.change c), m.last⟩
  | .reconcile o fails => ⟨m.manager.step names (.reconcile o fails), m.manager.desired⟩

def run (m : CycledManager) (events : List RoutingEvent) : CycledManager :=
  events.foldl (step names) m

end CycledManager

/-- The condition on a cycle: no two texts in use name one address or network, an intent that
the last cycle could not apply is not taken back to the recorded one, a BFD session does not
change its interface, and the session of a peer that goes can be removed. -/
structure LeakSafe (names : FrrNames) (m : CycledManager)
    (fails : VtyFaults) : Prop where
  addrs : Set.InjOn names.addr m.manager.addrsInUse
  networks : Set.InjOn names.network m.manager.networksInUse
  retried : ∀ k, m.manager.reconciler.appliedPeers.lookup k ≠ m.last.peers.lookup k →
    m.manager.desired.peers.lookup k ≠ m.manager.reconciler.appliedPeers.lookup k
  interfaces : ∀ k a b, m.manager.desired.bfd.lookup k = some b →
    m.manager.reconciler.appliedBfd.lookup k = some a → b.interfaceName = a.interfaceName
  peerSessions : ∀ k p, m.manager.desired.peers.lookup k = some p → p.bfdEnabled = true →
    (∀ b, m.manager.desired.bfd.lookup k = some b → b.interfaceName = "") ∧
      ∀ a, m.manager.reconciler.appliedBfd.lookup k = some a → a.interfaceName = ""
  removals : ∀ k ∈ m.manager.reconciler.appliedPeers, k ∈ m.manager.reconciler.peerManagedBfd →
    k ∉ m.manager.desired.peers →
    ∀ n as, fails n ((removeBfdPeer k "").commands as) = false

def LeakSafeRun (names : FrrNames) : CycledManager → List RoutingEvent → Prop
  | _, [] => True
  | m, e :: events =>
    (∀ o fails, e = .reconcile o fails → LeakSafe names m fails) ∧
      LeakSafeRun names (m.step names e) events

section Sessions

variable {names : FrrNames} {m : BfdMap} {c c' : FrrConfig}

theorem SessionsAre.congr (h : SessionsAre names m c)
    (hc : ∀ a i, c' (.bfdPeer a i none) = c (.bfdPeer a i none)) : SessionsAre names m c' := by
  intro a i
  rw [hc]
  exact h a i

theorem session_written (b : BfdIntent) (c : FrrConfig) (a i : String) :
    (writeAll (b.lines names) c (.bfdPeer a i none)).isSome = true ↔
      names.addr b.peerAddress = a ∧ b.interfaceName = i ∨ (c (.bfdPeer a i none)).isSome = true := by
  by_cases heq : names.addr b.peerAddress = a ∧ b.interfaceName = i
  · obtain ⟨rfl, rfl⟩ := heq
    have hmem : (FrrLine.bfdPeer (names.addr b.peerAddress) b.interfaceName none, []) ∈
        b.lines names := List.mem_cons_self
    rw [writeAll_apply, Option.isSome_or, written_isSome hmem]
    simp
  · rw [writeAll_of_unwritten]
    · simp [heq]
    · intro e he hline
      have hsession := b.owns_lines names e he
      rw [hline] at hsession
      simp only [FrrLine.session?, Option.some.injEq, Prod.mk.injEq] at hsession
      exact heq ⟨hsession.1.symm, hsession.2.symm⟩

theorem SessionsAre.insert (h : SessionsAre names m c) {b : BfdIntent}
    (hold : ∀ a, m.lookup b.peerAddress = some a → a.interfaceName = b.interfaceName) :
    SessionsAre names (m.insert b.peerAddress b) (writeAll (b.lines names) c) := by
  intro a i
  rw [session_written, h a i]
  constructor
  · rintro (⟨ha, hi⟩ | ⟨k, b', hk, ha, hi⟩)
    · exact ⟨b.peerAddress, b, lookup_insert _, ha, hi⟩
    · by_cases heq : k = b.peerAddress
      · subst heq
        exact ⟨b.peerAddress, b, lookup_insert _, ha, (hold b' hk).symm.trans hi⟩
      · exact ⟨k, b', (lookup_insert_of_ne _ heq).trans hk, ha, hi⟩
  · rintro ⟨k, b', hk, ha, hi⟩
    rcases lookup_insert_eq_some hk with ⟨rfl, rfl⟩ | ⟨-, hk⟩
    · exact .inl ⟨ha, hi⟩
    · exact .inr ⟨k, b', hk, ha, hi⟩

theorem SessionsAre.erase (h : SessionsAre names m c) {k iface : String}
    (hold : ∀ a, m.lookup k = some a → a.interfaceName = iface)
    (hapart : ∀ k' ∈ m, names.addr k' = names.addr k → k' = k) :
    SessionsAre names (m.erase k) (clear (·.session? = some (names.addr k, iface)) c) := by
  intro a i
  have hclear : (clear (·.session? = some (names.addr k, iface)) c (.bfdPeer a i none)).isSome =
      true ↔ ¬ (a = names.addr k ∧ i = iface) ∧ (c (.bfdPeer a i none)).isSome = true := by
    by_cases heq : a = names.addr k ∧ i = iface <;> simp [clear, FrrLine.session?, heq]
  rw [hclear, h a i]
  constructor
  · rintro ⟨hne, k', b, hk', ha, hi⟩
    refine ⟨k', b, ?_, ha, hi⟩
    rwa [lookup_erase_ne]
    rintro rfl
    exact hne ⟨ha.symm, hi.symm.trans (hold b hk')⟩
  · rintro ⟨k', b, hk', ha, hi⟩
    obtain ⟨hne, hk'⟩ := lookup_erase_eq_some hk'
    refine ⟨fun heq => hne (hapart k' ?_ (ha.trans heq.1)), k', b, hk', ha, hi⟩
    exact mem_of_lookup_eq_some hk'

end Sessions

section Networks

variable {names : FrrNames} {m : PrefixMap} {c c' : FrrConfig}

theorem NetworksAre.congr (h : NetworksAre names m c)
    (hc : ∀ af n, c' (.network af n) = c (.network af n)) : NetworksAre names m c' := by
  intro af n
  rw [hc]
  exact h af n

theorem NetworksAre.insert (h : NetworksAre names m c) (p : PrefixIntent) :
    NetworksAre names (m.insert p.key p) (writeAll (p.lines names) c) := by
  intro af n
  have hmem : ∀ pfx, (bgp, pfx) ∈ m.insert p.key p ↔
      p.protocol = .bgp ∧ pfx = p.pfx ∨ (bgp, pfx) ∈ m := by
    intro pfx
    rw [mem_insert, key, Prod.mk.injEq, eq_comm]
  have hwritten : (writeAll (p.lines names) c (.network af n)).isSome = true ↔
      p.protocol = .bgp ∧ p.networkLine names = .network af n ∨ (c (.network af n)).isSome = true := by
    by_cases hbgp : p.protocol = .bgp
    · rw [writeAll_apply, p.written_of_network hbgp rfl]
      by_cases hline : p.networkLine names = .network af n
      · simp [hline, hbgp]
      · simp [hline]
    · rw [lines_of_not_bgp hbgp]
      simp [hbgp, writeAll]
  rw [hwritten, h af n]
  simp only [hmem, networkLine, FrrLine.network.injEq]
  constructor
  · rintro (⟨hbgp, haf, hn⟩ | ⟨pfx, hin, heq⟩)
    · exact ⟨p.pfx, .inl ⟨hbgp, rfl⟩, haf, hn⟩
    · exact ⟨pfx, .inr hin, heq⟩
  · rintro ⟨pfx, ⟨hbgp, rfl⟩ | hin, heq⟩
    · exact .inl ⟨hbgp, heq⟩
    · exact .inr ⟨pfx, hin, heq⟩

theorem NetworksAre.erase (h : NetworksAre names m c) {p : PrefixIntent}
    (hapart : ∀ pfx, (bgp, pfx) ∈ m → p.protocol = .bgp →
      names.network pfx = names.network p.pfx → pfx = p.pfx) :
    NetworksAre names (m.erase p.key)
      (clear (fun i => p.protocol = .bgp ∧ i = p.networkLine names) c) := by
  intro af n
  have hclear : (clear (fun i => p.protocol = .bgp ∧ i = p.networkLine names) c
      (.network af n)).isSome = true ↔
      ¬ (p.protocol = .bgp ∧ .network af n = p.networkLine names) ∧
        (c (.network af n)).isSome = true := by
    by_cases heq : p.protocol = .bgp ∧ .network af n = p.networkLine names
    · simp [clear, heq]
    · rw [clear, if_neg heq]
      simp [heq]
  rw [hclear, h af n]
  constructor
  · rintro ⟨hne, pfx, hin, haf, hn⟩
    refine ⟨pfx, mem_erase.mpr ⟨fun hkey => hne ?_, hin⟩, haf, hn⟩
    obtain ⟨hbgp, rfl⟩ := Prod.mk.inj hkey
    exact ⟨hbgp.symm, by rw [networkLine, haf, hn]⟩
  · rintro ⟨pfx, hin, haf, hn⟩
    obtain ⟨hne, hin⟩ := mem_erase.mp hin
    refine ⟨?_, pfx, hin, haf, hn⟩
    rintro ⟨hbgp, hline⟩
    simp only [networkLine, FrrLine.network.injEq] at hline
    refine hne ?_
    rw [hapart pfx hin hbgp (hn.trans hline.2), ← hbgp]
    rfl

end Networks

/-- What the records say about FRR, when `d` are the peers of the last cycle: a neighbor
without a record belongs to one of them. -/
structure Tracked (names : FrrNames) (d : PeerMap)
    (r : Reconciler) : Prop where
  keyedPeers : Keyed PeerIntent.neighborAddress (fun p => IsAddress p.neighborAddress) r.appliedPeers
  keyedPrefixes : Keyed key (fun _ => True) r.appliedPrefixes
  keyedBfd : Keyed BfdIntent.peerAddress (fun _ => True) r.appliedBfd
  peers : ∀ k ∈ r.appliedPeers, HasNeighbor names r.frr.running k
  neighbors : ∀ a, (r.frr.running (.neighbor a .remoteAs)).isSome = true →
    ∃ k, names.addr k = a ∧ (k ∈ r.appliedPeers ∨ k ∈ d)
  managed : ∀ k, r.appliedPeers.lookup k = d.lookup k →
    (k ∈ r.peerManagedBfd ↔ ∃ p, d.lookup k = some p ∧ p.bfdEnabled = true)
  managedBfd : ∀ k ∈ r.peerManagedBfd, ∃ b, r.appliedBfd.lookup k = some b ∧ b.interfaceName = ""
  sessions : SessionsAre names r.appliedBfd r.frr.running
  networks : NetworksAre names r.appliedPrefixes r.frr.running

section Tracked

variable {names : FrrNames} {d : PeerMap} {r : Reconciler}

variable {p : PeerIntent} {c : FrrConfig} {k : String}

variable (h : Tracked names d r)

include h

theorem Tracked.turn (hnbr : ∀ a, c (.neighbor a .remoteAs) = r.frr.running (.neighbor a .remoteAs))
    (s : VtyBatches) {x : PrefixMap}
    {b : BfdMap} (hx : Keyed key (fun _ => True) x)
    (hb : Keyed BfdIntent.peerAddress (fun _ => True) b)
    (hmanaged : ∀ k ∈ r.peerManagedBfd, ∃ a, b.lookup k = some a ∧ a.interfaceName = "")
    (hsessions : SessionsAre names b c) (hnetworks : NetworksAre names x c) :
    Tracked names d { r.after c s with appliedPrefixes := x, appliedBfd := b } := by
  refine { h with
    keyedPrefixes := hx
    keyedBfd := hb
    peers := fun k hk => ?_
    neighbors := fun a ha => h.neighbors a (hnbr a ▸ ha)
    managedBfd := hmanaged
    sessions := hsessions
    networks := hnetworks }
  have hpeer := h.peers k hk
  unfold HasNeighbor at hpeer
  rwa [← hnbr] at hpeer

theorem Tracked.after (hc : ∀ i, (∃ a, i = .neighbor a .remoteAs) ∨ (∃ af n, i = .network af n) ∨
      (∃ a j, i = .bfdPeer a j none) → c i = r.frr.running i) (s : VtyBatches) :
    Tracked names d (r.after c s) :=
  h.turn (fun a => hc _ (.inl ⟨a, rfl⟩)) s h.keyedPrefixes h.keyedBfd h.managedBfd
    (h.sessions.congr fun a i => hc _ (.inr (.inr ⟨a, i, rfl⟩)))
    (h.networks.congr fun af n => hc _ (.inr (.inl ⟨af, n, rfl⟩)))

theorem Tracked.touch (hk : k ∈ r.appliedPeers ∨ k ∈ d) (hc : Touches names k r.frr.running c)
    (s : VtyBatches) : Tracked names d (r.after c s) := by
  refine { h with
    peers := fun k' hk' => ?_
    neighbors := fun a ha => ?_
    sessions := h.sessions.congr fun a i => hc.other (.bfdPeer a i none) (by simp [PeerOwns])
    networks := h.networks.congr fun af n => hc.other (.network af n) (by simp [PeerOwns]) }
  · change (c _).isSome = true
    by_cases heq : names.addr k' = names.addr k
    · rw [heq]
      refine hc.stays ?_
      rw [← heq]
      exact h.peers k' hk'
    · rw [hc.other _ (by simpa [PeerOwns] using heq)]
      exact h.peers k' hk'
  · by_cases heq : a = names.addr k
    · exact ⟨k, heq.symm, hk⟩
    · refine h.neighbors a ?_
      rw [← hc.other _ (by simpa [PeerOwns] using heq)]
      exact ha

theorem Tracked.link (hd : d.lookup p.neighborAddress = some p) (hbfd : p.bfdEnabled = true)
    (hold : ∀ a, r.appliedBfd.lookup p.neighborAddress = some a → a.interfaceName = "")
    (s : VtyBatches) :
    Tracked names d (p.linked (r.after (writeAll (p.session.lines names) r.frr.running) s)) := by
  have hother : ∀ i, i.object ≠ .session (names.addr p.neighborAddress) →
      writeAll (p.session.lines names) r.frr.running i = r.frr.running i :=
    fun i hi => session_unwritten hi _
  refine { h with
    keyedBfd := Keyed.insert (a := p.session) h.keyedBfd trivial
    peers := fun k hk => ?_
    neighbors := fun a ha => h.neighbors a ?_
    managed := fun k hk => ?_
    managedBfd := fun k hk => ?_
    sessions := h.sessions.insert hold
    networks := h.networks.congr fun af n => hother (.network af n) (by simp) }
  · change (writeAll _ _ _).isSome = true
    rw [hother _ (by simp)]
    exact h.peers k hk
  · rw [← hother _ (by simp)]
    exact ha
  · change k ∈ insert p.neighborAddress r.peerManagedBfd ↔ _
    rw [Finset.mem_insert]
    by_cases heq : k = p.neighborAddress
    · subst heq
      simp [hd, hbfd]
    · simp only [heq, false_or]
      exact h.managed k hk
  · change k ∈ insert p.neighborAddress r.peerManagedBfd at hk
    change ∃ b, (r.appliedBfd.insert p.neighborAddress p.session).lookup k = some b ∧ _
    by_cases heq : k = p.neighborAddress
    · subst heq
      exact ⟨p.session, lookup_insert _, rfl⟩
    · rw [lookup_insert_of_ne _ heq]
      exact h.managedBfd k ((Finset.mem_insert.mp hk).resolve_left heq)

theorem Tracked.unlink (hk : k ∈ r.peerManagedBfd) (hne : r.appliedPeers.lookup k ≠ d.lookup k)
    (hapart : ∀ k' ∈ r.appliedBfd, names.addr k' = names.addr k → k' = k) (s : VtyBatches) :
    Tracked names d (forgetPeerBfd k
      (r.after (clear (·.session? = some (names.addr k, "")) r.frr.running) s)) := by
  have hold : ∀ a, r.appliedBfd.lookup k = some a → a.interfaceName = "" := by
    intro a ha
    obtain ⟨b, hb, hiface⟩ := h.managedBfd k hk
    rwa [Option.some.inj (ha.symm.trans hb)]
  refine { h with
    keyedBfd := h.keyedBfd.erase k
    managed := fun k' hk' => ?_
    managedBfd := fun k' hk' => ?_
    sessions := h.sessions.erase hold hapart }
  · change k' ∈ r.peerManagedBfd.erase k ↔ _
    have hne' : k' ≠ k := by
      rintro rfl
      exact hne hk'
    rw [Finset.mem_erase, and_iff_right hne']
    exact h.managed k' hk'
  · obtain ⟨hne', hk'⟩ := Finset.mem_erase.mp hk'
    obtain ⟨b, hb, hiface⟩ := h.managedBfd k' hk'
    exact ⟨b, (lookup_erase_ne hne').trans hb, hiface⟩

theorem Tracked.record (haddr : IsAddress p.neighborAddress)
    (hnbr : HasNeighbor names r.frr.running p.neighborAddress)
    (hm : p.neighborAddress ∈ r.peerManagedBfd ↔ p.bfdEnabled = true)
    (hd : d.lookup p.neighborAddress = some p) :
    Tracked names d { r with appliedPeers := r.appliedPeers.insert p.neighborAddress p } := by
  refine { h with
    keyedPeers := h.keyedPeers.insert haddr
    peers := forall_mem_insert hnbr h.peers
    neighbors := fun a ha => ?_
    managed := fun k hk => ?_ }
  · obtain ⟨k, ha, hk⟩ := h.neighbors a ha
    exact ⟨k, ha, hk.imp (fun hk => mem_insert.mpr (.inr hk)) id⟩
  · by_cases heq : k = p.neighborAddress
    · subst heq
      rw [hd]
      simpa using hm
    · refine h.managed k ?_
      rwa [lookup_insert_of_ne _ heq] at hk

theorem Tracked.forget (hd : k ∉ d) (hm : k ∉ r.peerManagedBfd)
    (hapart : ∀ k' ∈ r.appliedPeers, names.addr k' = names.addr k → k' = k) (s : VtyBatches) :
    Tracked names d { r.after (clear (·.object = .neighbor (names.addr k)) r.frr.running) s with
      appliedPeers := r.appliedPeers.erase k } := by
  have hother : ∀ i, i.object ≠ .neighbor (names.addr k) →
      clear (·.object = .neighbor (names.addr k)) r.frr.running i = r.frr.running i :=
    fun i hi => if_neg hi
  refine { h with
    keyedPeers := h.keyedPeers.erase k
    peers := fun k' hk' => ?_
    neighbors := fun a ha => ?_
    managed := fun k' hk' => ?_
    sessions := h.sessions.congr fun a i => hother (.bfdPeer a i none) (by simp)
    networks := h.networks.congr fun af n => hother (.network af n) (by simp) }
  · obtain ⟨hne, hk'⟩ := mem_erase.mp hk'
    have haddr : names.addr k' ≠ names.addr k := fun heq => hne (hapart k' hk' heq)
    have hnbr := h.peers k' hk'
    unfold HasNeighbor at hnbr
    rwa [← hother _ (by simpa using haddr)] at hnbr
  · replace ha : (clear (·.object = .neighbor (names.addr k)) r.frr.running
      (.neighbor a .remoteAs)).isSome = true := ha
    have hne : a ≠ names.addr k := by
      rintro rfl
      simp [clear] at ha
    rw [hother _ (by simpa using hne)] at ha
    obtain ⟨k', rfl, hk'⟩ := h.neighbors a ha
    refine ⟨k', rfl, hk'.imp (fun hk' => mem_erase.mpr ⟨?_, hk'⟩) id⟩
    rintro rfl
    exact hne rfl
  · by_cases heq : k' = k
    · subst heq
      have hnone : ¬ ∃ p, d.lookup k' = some p ∧ p.bfdEnabled = true := by
        rw [lookup_eq_none.mpr hd]
        simp
      exact iff_of_false hm hnone
    · refine h.managed k' ?_
      rwa [lookup_erase_ne heq] at hk'

theorem Tracked.retarget {d' : PeerMap}
    (hretry : ∀ k, r.appliedPeers.lookup k ≠ d.lookup k → d'.lookup k ≠ r.appliedPeers.lookup k) :
    Tracked names d' r := by
  refine { h with neighbors := fun a ha => ?_, managed := fun k hk => ?_ }
  · obtain ⟨k, rfl, hk⟩ := h.neighbors a ha
    refine ⟨k, rfl, ?_⟩
    by_cases happ : k ∈ r.appliedPeers
    · exact .inl happ
    · have hnone := lookup_eq_none.mpr happ
      have hsome := lookup_isSome.mpr (hk.resolve_left happ)
      refine .inr (lookup_isSome.mp (Option.isSome_iff_ne_none.mpr ?_))
      rw [← hnone]
      refine hretry k fun heq => ?_
      rw [← heq, hnone] at hsome
      cases hsome
  · have hlast : r.appliedPeers.lookup k = d.lookup k := by
      by_contra hne
      exact hretry k hne hk.symm
    rw [← hk, hlast]
    exact h.managed k hlast

end Tracked

structure LeakScope (names : FrrNames) (d : OwnerIntents) (U X : Set String) : Prop where
  keyed : d.WellKeyed
  addrs : Set.InjOn names.addr U
  networks : Set.InjOn names.network X
  peersIn : ∀ k ∈ d.peers, k ∈ U
  bfdIn : ∀ k ∈ d.bfd, k ∈ U
  prefixesIn : ∀ pfx, (bgp, pfx) ∈ d.prefixes → pfx ∈ X
  peerSessions : ∀ k p, d.peers.lookup k = some p → p.bfdEnabled = true →
    ∀ b, d.bfd.lookup k = some b → b.interfaceName = ""

structure LeakCycle (names : FrrNames) (d : OwnerIntents) (U X : Set String)
    (fails : VtyFaults) (r : Reconciler) : Prop where
  tracked : Tracked names d.peers r
  hasFrr : r.hasFrr = true
  ready : r.Ready
  global : ∃ g, r.bgpGlobal = some g ∧ g.localAs = r.frr.localAs
  failing : r.frr.fails = fails
  peersIn : ∀ k ∈ r.appliedPeers, k ∈ U
  bfdIn : ∀ k ∈ r.appliedBfd, k ∈ U
  prefixesIn : ∀ pfx, (bgp, pfx) ∈ r.appliedPrefixes → pfx ∈ X
  interfaces : ∀ k a b, d.bfd.lookup k = some b → r.appliedBfd.lookup k = some a →
    b.interfaceName = a.interfaceName
  peerSessions : ∀ k p, d.peers.lookup k = some p → p.bfdEnabled = true →
    ∀ a, r.appliedBfd.lookup k = some a → a.interfaceName = ""
  removals : ∀ k ∈ r.appliedPeers, k ∈ r.peerManagedBfd → k ∉ d.peers →
    ∀ n as, fails n ((removeBfdPeer k "").commands as) = false

variable {names : FrrNames} {d : OwnerIntents} {U X : Set String} {fails : VtyFaults} {r : Reconciler}

section Peers

variable {p : PeerIntent} {k : String} {c : FrrConfig}

theorem LeakCycle.touch (h : LeakCycle names d U X fails r) (hk : k ∈ r.appliedPeers ∨ k ∈ d.peers)
    (hc : Touches names k r.frr.running c) (s : VtyBatches) :
    LeakCycle names d U X fails (r.after c s) :=
  { h with tracked := h.tracked.touch hk hc s, ready := h.ready.after hc.routerBgp s }

variable (h : LeakCycle names d U X fails r) (hd : LeakScope names d U X)

include h hd

theorem LeakCycle.link (hp : d.peers.lookup p.neighborAddress = some p) (hbfd : p.bfdEnabled = true)
    (s : VtyBatches) :
    LeakCycle names d U X fails
      (p.linked (r.after (writeAll (p.session.lines names) r.frr.running) s)) := by
  have hmem : p.neighborAddress ∈ d.peers := mem_of_lookup_eq_some hp
  refine { h with
    tracked := h.tracked.link hp hbfd (h.peerSessions _ p hp hbfd) s
    ready := h.ready.after (writeAll_of_unwritten p.session_object _) s
    bfdIn := forall_mem_insert (hd.peersIn _ hmem) h.bfdIn
    interfaces := fun k a b hb ha => ?_
    peerSessions := fun k q hq hqbfd a ha => ?_
    removals := fun k hk hm hno => ?_ }
  · rcases lookup_insert_eq_some ha with ⟨rfl, rfl⟩ | ⟨-, ha⟩
    · exact hd.peerSessions _ p hp hbfd b hb
    · exact h.interfaces k a b hb ha
  · rcases lookup_insert_eq_some ha with ⟨rfl, rfl⟩ | ⟨-, ha⟩
    · rfl
    · exact h.peerSessions k q hq hqbfd a ha
  · rcases Finset.mem_insert.mp hm with rfl | hm
    · exact absurd hmem hno
    · exact h.removals k hk hm hno

theorem LeakCycle.unlink (hk : k ∈ r.peerManagedBfd) (hin : k ∈ U)
    (hne : r.appliedPeers.lookup k ≠ d.peers.lookup k) (s : VtyBatches) :
    LeakCycle names d U X fails (forgetPeerBfd k
      (r.after (clear (·.session? = some (names.addr k, "")) r.frr.running) s)) := by
  refine { h with
    tracked := h.tracked.unlink hk hne (fun k' hk' heq => hd.addrs (h.bfdIn k' hk') hin heq) s
    ready := h.ready.after rfl s
    bfdIn := fun k' hk' => h.bfdIn k' (mem_erase.mp hk').2
    interfaces := fun k' a b hb ha => h.interfaces k' a b hb (lookup_erase_eq_some ha).2
    peerSessions := fun k' q hq hbfd a ha =>
      h.peerSessions k' q hq hbfd a (lookup_erase_eq_some ha).2
    removals := fun k' hk' hm => h.removals k' hk' (Finset.mem_erase.mp hm).2 }

theorem LeakCycle.record (hp : d.peers.lookup p.neighborAddress = some p)
    (haddr : IsAddress p.neighborAddress) (hnbr : HasNeighbor names r.frr.running p.neighborAddress)
    (hm : p.neighborAddress ∈ r.peerManagedBfd ↔ p.bfdEnabled = true) :
    LeakCycle names d U X fails
      { r with appliedPeers := r.appliedPeers.insert p.neighborAddress p } := by
  have hmem : p.neighborAddress ∈ d.peers := mem_of_lookup_eq_some hp
  exact { h with
    tracked := h.tracked.record haddr hnbr hm hp
    peersIn := forall_mem_insert (hd.peersIn _ hmem) h.peersIn
    removals := forall_mem_insert (fun _ hno => absurd hmem hno) h.removals }

theorem LeakCycle.applied (hp : d.peers.lookup p.neighborAddress = some p)
    (hne : r.appliedPeers.lookup p.neighborAddress ≠ some p) (haddr : IsAddress p.neighborAddress)
    (s : VtyBatches) :
    LeakCycle names d U X fails { p.appliedState names r s with
      appliedPeers := (p.appliedState names r s).appliedPeers.insert p.neighborAddress p } := by
  have hmem : p.neighborAddress ∈ d.peers := mem_of_lookup_eq_some hp
  have hnbr := (p.appliedState_turn names r s).2
  have htouch := Touches.writeAll (p.owns_settings names) r.frr.running
  have hset := h.touch (.inr hmem) htouch s
  have hunset := h.touch (.inr hmem) (htouch.trans (Touches.clear_bfdLine names _ _)) s
  unfold PeerIntent.appliedState at hnbr ⊢
  by_cases hbfd : p.bfdEnabled = true
  · simp only [if_pos hbfd] at hnbr ⊢
    have hlinked := (hset.link hd hp hbfd s).touch (.inr hmem) (Touches.writeAll
      (l := [(bfdLine names p.neighborAddress, [])]) (by simp [PeerOwns, bfdLine])
      _) s
    rw [writeAll_append] at hnbr ⊢
    refine LeakCycle.record hlinked hd hp haddr hnbr ?_
    exact iff_of_true (Finset.mem_insert_self _ _) hbfd
  · simp only [if_neg hbfd] at hnbr ⊢
    by_cases hm : p.neighborAddress ∈ r.peerManagedBfd
    · simp only [if_pos hm] at hnbr ⊢
      have hforgot := hunset.unlink hd hm (hd.peersIn _ hmem) (by rw [hp]; exact hne) s
      refine LeakCycle.record hforgot hd hp haddr hnbr ?_
      exact iff_of_false (Finset.notMem_erase _ _) hbfd
    · simp only [if_neg hm] at hnbr ⊢
      exact LeakCycle.record hunset hd hp haddr hnbr (iff_of_false hm hbfd)

theorem LeakCycle.halfApplied (hp : d.peers.lookup p.neighborAddress = some p) {r' : Reconciler}
    (hr' : p.HalfApplied names r r') : LeakCycle names d U X fails r' := by
  have hmem : p.neighborAddress ∈ d.peers := mem_of_lookup_eq_some hp
  obtain ⟨c, s, htouch, rfl | ⟨hbfd, -, rfl⟩⟩ := hr'
  · exact h.touch (.inr hmem) htouch s
  · exact (h.touch (.inr hmem) htouch s).link hd hp hbfd s

theorem LeakCycle.unlinked (hp : r.appliedPeers.lookup p.neighborAddress = some p)
    (hno : p.neighborAddress ∉ d.peers) (hc : p.Unlinked names r c) (s : VtyBatches) :
    LeakCycle names d U X fails (p.unlinkedState r c s) ∧
      p.neighborAddress ∉ (p.unlinkedState r c s).peerManagedBfd := by
  have hmem : p.neighborAddress ∈ r.appliedPeers := mem_of_lookup_eq_some hp
  have haddr := (h.tracked.keyedPeers _ p hp).2
  unfold PeerIntent.Unlinked at hc
  unfold PeerIntent.unlinkedState
  by_cases hm : p.neighborAddress ∈ r.peerManagedBfd
  · simp only [if_pos hm] at hc ⊢
    have hne : r.appliedPeers.lookup p.neighborAddress ≠ d.peers.lookup p.neighborAddress := by
      rw [hp, lookup_eq_none.mpr hno]
      exact Option.some_ne_none p
    rcases hc with rfl | ⟨-, hfail⟩
    · exact ⟨h.unlink hd hm (h.peersIn _ hmem) hne s, Finset.notMem_erase _ _⟩
    · refine absurd ⟨bfdPeer_ok rfl haddr (by decide), fun n => ?_⟩ hfail
      rw [h.failing]
      exact h.removals _ hmem hm hno n _
  · simp only [if_neg hm] at hc ⊢
    subst hc
    exact ⟨h.touch (.inl hmem) (Touches.refl _ _) s, hm⟩

theorem LeakCycle.removed (hin : k ∈ U) (hno : k ∉ d.peers) (hm : k ∉ r.peerManagedBfd)
    (s : VtyBatches) :
    LeakCycle names d U X fails
      { r.after (clear (·.object = .neighbor (names.addr k)) r.frr.running) s with
        appliedPeers := r.appliedPeers.erase k } := by
  refine { h with
    tracked := h.tracked.forget hno hm (fun k' hk' heq => hd.addrs (h.peersIn k' hk') hin heq) s
    ready := h.ready.after rfl s
    peersIn := fun k' hk' => h.peersIn k' (mem_erase.mp hk').2
    removals := fun k' hk' => h.removals k' (mem_erase.mp hk').2 }

omit h in
theorem reconcilePeers_leakCycle {o : RoutingOrders} {desired : List PeerIntent}
    (hdesired : (peerFamily names).desiredMap desired = d.peers) :
    Keeps (reconcilePeers names o desired) (LeakCycle names d U X fails) := by
  refine Family.reconcile_invariant _ ⟨fun k p r hk hne hr => ?_, fun k p r hno hk _ hr => ?_⟩
  · rw [hdesired] at hk
    obtain rfl := (hd.keyed.peers k p hk).1
    refine (applyPeerIntent_outcome hr.ready).imp ?_ fun r' hr' => hr.halfApplied hd hk hr'.2
    rintro _ ⟨haddr, s, rfl⟩
    exact hr.applied hd hk hne haddr s
  · rw [hdesired] at hno
    obtain rfl := (hr.tracked.keyedPeers k p hk).1
    have hmem : p.neighborAddress ∈ r.appliedPeers := mem_of_lookup_eq_some hk
    refine (removePeer_outcome hr.ready).imp ?_ ?_
    · rintro _ ⟨c, s, hc, rfl⟩
      obtain ⟨hleft, hm⟩ := hr.unlinked hd hk hno hc s
      exact hleft.removed hd (hr.peersIn _ hmem) hno hm s
    · rintro _ ⟨-, c, c', s, hc, htouch, rfl⟩
      obtain ⟨hleft, -⟩ := hr.unlinked hd hk hno hc s
      refine hleft.touch (.inl ?_) htouch s
      unfold PeerIntent.unlinkedState
      dsimp only
      split_ifs <;> exact hmem

end Peers

section Others

variable {o : RoutingOrders} {c : FrrConfig} {i : FrrLine} {b : BfdIntent} {pfx : String}

theorem LeakCycle.ospfTurn (h : LeakCycle names d U X fails r)
    (hc : ∀ i, ¬ OspfScope i → c i = r.frr.running i) (s : VtyBatches)
    (m : OspfMap) :
    LeakCycle names d U X fails { r.after c s with appliedOspf := m } := by
  have htracked : Tracked names d.peers (r.after c s) := by
    refine h.tracked.after (fun i hi => hc i ?_) s
    rcases hi with ⟨a, rfl⟩ | ⟨af, n, rfl⟩ | ⟨a, j, rfl⟩ <;> simp [OspfScope]
  exact { h with
    tracked := { htracked with }
    ready := h.ready.after (hc _ (by simp [OspfScope])) s }

theorem LeakCycle.same (h : LeakCycle names d U X fails r) (s : VtyBatches) :
    LeakCycle names d U X fails (r.after r.frr.running s) := h.ospfTurn (fun _ _ => rfl) s _

theorem LeakCycle.prefixTurn (h : LeakCycle names d U X fails r)
    (hc : ∀ i, i.object = .bgp ∨ PeerScope i ∨ BfdScope i → c i = r.frr.running i)
    (s : VtyBatches) {m : PrefixMap}
    (hkeyed : Keyed key (fun _ => True) m)
    (hm : ∀ pfx, (bgp, pfx) ∈ m → pfx ∈ X) (hnets : NetworksAre names m c) :
    LeakCycle names d U X fails { r.after c s with appliedPrefixes := m } := by
  have hsessions := h.tracked.sessions.congr fun a i => hc (.bfdPeer a i none) (.inr (.inr ⟨a, rfl⟩))
  exact { h with
    tracked := h.tracked.turn (fun a => hc _ (.inr (.inl ⟨a, rfl⟩))) s hkeyed h.tracked.keyedBfd
      h.tracked.managedBfd hsessions hnets
    ready := h.ready.after (hc _ (.inl rfl)) s
    prefixesIn := hm }

variable (names) in
theorem notPrefixOwns {k : PrefixKey} (hi : i.object = .bgp ∨ PeerScope i ∨ BfdScope i) :
    ¬ PrefixOwns names k i := by
  rintro ⟨-, hnet | hmap⟩
  · simp [-FrrLine.object, PeerScope, BfdScope, hnet] at hi
  · simp [-FrrLine.object, PeerScope, BfdScope, hmap] at hi

theorem notInRouteMap (hi : i.object = .bgp ∨ PeerScope i ∨ BfdScope i) : ¬ InRouteMap pfx i :=
  fun hmap => notPrefixOwns ⟨id, id⟩ (k := (.bgp, pfx)) hi ⟨rfl, .inr hmap⟩

theorem Loses.network {c' : FrrConfig} (h : Loses pfx c c') (af : Afi) (n : String) :
    c' (.network af n) = c (.network af n) :=
  h.other (by simp [InRouteMap])

theorem reconcilePrefixes_leakCycle (hd : LeakScope names d U X) {desired : List PrefixIntent}
    (hdesired : (prefixFamily names).desiredMap desired = d.prefixes) :
    Keeps (reconcilePrefixes names o desired) (LeakCycle names d U X fails) := by
  refine Family.reconcile_invariant _ ⟨fun k p r hk _ hr => ?_, fun k p r _ hk _ hr => ?_⟩
  · rw [hdesired] at hk
    obtain rfl := (hd.keyed.prefixes k p hk).1
    have hold : ∀ q ∈ r.appliedPrefixes.lookup p.key, q.key = p.key :=
      fun q hq => (hr.tracked.keyedPrefixes _ q hq).1
    refine (replacePrefixIntent_outcome hold hr.ready).imp ?_ ?_
    · rintro _ ⟨c, s, hc, -, rfl⟩
      refine hr.prefixTurn (fun i hi => ?_) s (hr.tracked.keyedPrefixes.insert trivial)
        (fun pfx hx => ?_) ((hr.tracked.networks.congr hc.network).insert p)
      · rw [writeAll_of_unwritten fun e he heq =>
          notPrefixOwns names hi (heq.subst (p.owns_lines names e he))]
        exact hc.other (notInRouteMap hi)
      · rcases mem_insert.mp hx with hkey | hx
        · exact hd.prefixesIn pfx (hkey ▸ mem_of_lookup_eq_some hk)
        · exact hr.prefixesIn pfx hx
    · rintro _ ⟨-, c, s, hc, rfl⟩
      exact hr.prefixTurn (fun i hi => hc i (notInRouteMap hi)) s hr.tracked.keyedPrefixes
        hr.prefixesIn (hr.tracked.networks.congr fun af n => hc (.network af n) (by simp [InRouteMap]))
  · obtain rfl := (hr.tracked.keyedPrefixes k p hk).1
    have hp : p.key ∈ r.appliedPrefixes := mem_of_lookup_eq_some hk
    have hapart : ∀ pfx, (bgp, pfx) ∈ r.appliedPrefixes → p.protocol = .bgp →
        names.network pfx = names.network p.pfx → pfx = p.pfx := by
      intro pfx hx hbgp heq
      refine hd.networks (hr.prefixesIn pfx hx) (hr.prefixesIn p.pfx ?_) heq
      rw [← hbgp]
      exact hp
    refine (removePrefixFromFrr_outcome hr.ready).imp ?_ ?_
    · rintro _ ⟨c, s, hc, -, rfl⟩
      refine hr.prefixTurn (fun i hi => ?_) s (hr.tracked.keyedPrefixes.erase _)
        (fun pfx hx => hr.prefixesIn pfx (mem_erase.mp hx).2)
        ((hr.tracked.networks.erase hapart).congr hc.network)
      rw [hc.other (notInRouteMap hi)]
      refine if_neg ?_
      rintro ⟨hbgp, rfl⟩
      exact notPrefixOwns names hi (k := p.key) ⟨hbgp, .inl rfl⟩
    · rintro _ ⟨-, s, rfl⟩
      exact hr.same s

theorem LeakCycle.bfdTurn (h : LeakCycle names d U X fails r)
    (hc : ∀ i, ¬ BfdScope i → c i = r.frr.running i) (s : VtyBatches)
    {m : BfdMap}
    (hkeyed : Keyed BfdIntent.peerAddress (fun _ => True) m) (hin : ∀ k ∈ m, k ∈ U)
    (hmanaged : ∀ k ∈ r.peerManagedBfd, ∃ b, m.lookup k = some b ∧ b.interfaceName = "")
    (hsessions : SessionsAre names m c)
    (hinterfaces : ∀ k a b, d.bfd.lookup k = some b → m.lookup k = some a →
      b.interfaceName = a.interfaceName)
    (hpeer : ∀ k p, d.peers.lookup k = some p → p.bfdEnabled = true →
      ∀ a, m.lookup k = some a → a.interfaceName = "") :
    LeakCycle names d U X fails { r.after c s with appliedBfd := m } := by
  have hnetworks := h.tracked.networks.congr fun af n => hc (.network af n) (by simp [BfdScope])
  exact { h with
    tracked := h.tracked.turn (fun a => hc _ (by simp [BfdScope])) s
      h.tracked.keyedPrefixes hkeyed hmanaged hsessions hnetworks
    ready := h.ready.after (hc _ (by simp [BfdScope])) s
    bfdIn := hin
    interfaces := hinterfaces
    peerSessions := hpeer }

theorem bfdScope_of_session {x : String × String} (h : i.session? = some x) : BfdScope i := by
  cases i with
  | bfdPeer addr iface timer => exact ⟨addr, rfl⟩
  | _ => simp [FrrLine.session?] at h

theorem LeakCycle.appliedBfd (h : LeakCycle names d U X fails r) (hd : LeakScope names d U X)
    (hb : d.bfd.lookup b.peerAddress = some b) (s : VtyBatches) :
    LeakCycle names d U X fails { r.after (writeAll (b.lines names) r.frr.running) s with
      appliedBfd := r.appliedBfd.insert b.peerAddress b } := by
  have hold : ∀ a, r.appliedBfd.lookup b.peerAddress = some a →
      a.interfaceName = b.interfaceName := fun a ha => (h.interfaces _ a b hb ha).symm
  refine h.bfdTurn (fun i hi => ?_) s (h.tracked.keyedBfd.insert trivial)
    (forall_mem_insert (hd.bfdIn _ (mem_of_lookup_eq_some hb)) h.bfdIn)
    (fun k hk => ?_) (h.tracked.sessions.insert hold) (fun k a b' hb' ha => ?_)
    fun k p hp hbfd a ha => ?_
  · exact writeAll_of_unwritten (fun e he heq =>
      hi (heq.subst (bfdScope_of_session (b.owns_lines names e he)))) _
  · obtain ⟨a, ha, hiface⟩ := h.tracked.managedBfd k hk
    by_cases heq : k = b.peerAddress
    · subst heq
      exact ⟨b, lookup_insert _, (hold a ha).symm.trans hiface⟩
    · exact ⟨a, (lookup_insert_of_ne _ heq).trans ha, hiface⟩
  · rcases lookup_insert_eq_some ha with ⟨rfl, rfl⟩ | ⟨-, ha⟩
    · rw [Option.some.inj (hb'.symm.trans hb)]
    · exact h.interfaces k a b' hb' ha
  · rcases lookup_insert_eq_some ha with ⟨rfl, rfl⟩ | ⟨-, ha⟩
    · exact hd.peerSessions _ p hp hbfd a hb
    · exact h.peerSessions k p hp hbfd a ha

theorem LeakCycle.removedBfd (h : LeakCycle names d U X fails r) (hd : LeakScope names d U X)
    (hb : r.appliedBfd.lookup b.peerAddress = some b) (hm : b.peerAddress ∉ r.peerManagedBfd)
    (s : VtyBatches) :
    LeakCycle names d U X fails { r.after (clear (·.session? =
        some (names.addr b.peerAddress, b.interfaceName)) r.frr.running) s with
      appliedBfd := r.appliedBfd.erase b.peerAddress } := by
  have hin := h.bfdIn _ (mem_of_lookup_eq_some hb)
  refine h.bfdTurn (fun i hi => if_neg fun hs => hi (bfdScope_of_session hs)) s
    (h.tracked.keyedBfd.erase _) (fun k hk => h.bfdIn k (mem_erase.mp hk).2)
    (fun k hk => ?_) (h.tracked.sessions.erase ?_ ?_)
    (fun k a b' hb' ha => h.interfaces k a b' hb' (lookup_erase_eq_some ha).2)
    fun k p hp hbfd a ha => h.peerSessions k p hp hbfd a (lookup_erase_eq_some ha).2
  · obtain ⟨a, ha, hiface⟩ := h.tracked.managedBfd k hk
    have hne : k ≠ b.peerAddress := by
      rintro rfl
      exact hm hk
    exact ⟨a, (lookup_erase_ne hne).trans ha, hiface⟩
  · intro a ha
    rw [Option.some.inj (ha.symm.trans hb)]
  · exact fun k hk heq => hd.addrs (h.bfdIn k hk) hin heq

theorem reconcileBfd_leakCycle (hd : LeakScope names d U X) {desired : List BfdIntent}
    (hdesired : (bfdFamily names).desiredMap desired = d.bfd) :
    Keeps (reconcileBfd names o desired) (LeakCycle names d U X fails) := by
  refine Family.reconcile_invariant _ ⟨fun k b r hk _ hr => ?_, fun k b r _ hk hkept hr => ?_⟩
  · rw [hdesired] at hk
    obtain rfl := (hd.keyed.bfd k b hk).1
    refine (applyBfdIntent_outcome hr.ready).imp ?_ ?_
    · rintro _ ⟨s, rfl⟩
      exact hr.appliedBfd hd hk s
    · rintro _ ⟨-, s, rfl⟩
      exact hr.same s
  · obtain rfl := (hr.tracked.keyedBfd k b hk).1
    refine (removeBfdFromFrr_outcome hr.ready).imp ?_ ?_
    · rintro _ ⟨s, rfl⟩
      exact hr.removedBfd hd hk (of_decide_eq_false hkept) s
    · rintro _ ⟨-, s, rfl⟩
      exact hr.same s

theorem reconcileOspf_leakCycle {desired : List OspfIntent} :
    Keeps (reconcileOspf names o desired) (LeakCycle names d U X fails) := by
  refine Family.reconcile_invariant _ ⟨fun k a r _ _ hr => ?_, fun k a r _ _ _ hr => ?_⟩
  · refine (applyOspfIntent_outcome hr.ready).imp ?_ ?_
    · rintro _ ⟨s, rfl⟩
      refine hr.ospfTurn (fun i hi => writeAll_of_unwritten (fun e he heq => hi ?_) _) s _
      rw [← heq]
      exact ⟨a.interfaceName, a.owns_lines e he⟩
    · rintro _ ⟨-, s, rfl⟩
      exact hr.same s
  · refine (removeOspfFromFrr_outcome hr.ready).imp ?_ ?_
    · rintro _ ⟨s, rfl⟩
      refine hr.ospfTurn (fun i hi => if_neg ?_) s _
      rintro (rfl | ⟨-, rfl⟩) <;> exact hi ⟨_, rfl⟩
    · rintro _ ⟨-, s, rfl⟩
      exact hr.same s

end Others

structure LeakInv (names : FrrNames) (last : OwnerIntents) (r : Reconciler) : Prop where
  tracked : Tracked names last.peers r
  hasFrr : r.hasFrr = true
  live : LiveInstance r.frr.localAs r.frr.running
  configured : r.bgpConfigured = true → r.frr.localAs ≠ 0
  global : r.frr.localAs ≠ 0 → ∃ g, r.bgpGlobal = some g ∧ g.localAs = r.frr.localAs

section Runs

variable {m : CycledManager} {o : RoutingOrders}

theorem LeakCycle.leakInv (h : LeakCycle names d U X fails r) : LeakInv names d r where
  tracked := h.tracked
  hasFrr := h.hasFrr
  live := ⟨fun h0 => absurd h0 h.ready.1, fun _ => h.ready.2⟩
  configured _ := h.ready.1
  global _ := h.global

theorem LeakSafe.scope (h : LeakSafe names m fails)
    (hstore : m.manager.store.OneOwner m.manager.owner) :
    LeakScope names m.manager.desired m.manager.addrsInUse m.manager.networksInUse where
  keyed := hstore.keyed
  addrs := h.addrs
  networks := h.networks
  peersIn _ hk := .inl (.inl hk)
  bfdIn _ hk := .inr (.inl hk)
  prefixesIn _ := .inl
  peerSessions k p hp hbfd := (h.peerSessions k p hp hbfd).1

theorem LeakSafe.ensureBgpGlobal (hsafe : LeakSafe names m fails)
    (h : LeakInv names m.last m.manager.reconciler) :
    Outcome (ensureBgpGlobal names) (m.manager.reconciler.begin fails)
      (LeakCycle names m.manager.desired m.manager.addrsInUse m.manager.networksInUse fails)
      (LeakInv names m.manager.desired) := by
  have htracked : Tracked names m.manager.desired.peers (m.manager.reconciler.begin fails) :=
    { h.tracked.retarget hsafe.retried with }
  have hinv : LeakInv names m.manager.desired (m.manager.reconciler.begin fails) :=
    ⟨htracked, h.hasFrr, h.live, h.configured, h.global⟩
  have hpeer := fun k p hp hbfd => (hsafe.peerSessions k p hp hbfd).2
  refine ensureBgpGlobal_outcome h.live ?_ ?_ ?_ ?_ ?_
  · intro hconf
    have halive := h.configured hconf
    exact ⟨htracked, h.hasFrr, h.live.ready halive, h.global halive, rfl,
      fun _ hk => .inl (.inr hk), fun _ hk => .inr (.inr hk), fun _ => .inr, hsafe.interfaces,
      hpeer, hsafe.removals⟩
  · exact fun _ _ => hinv
  · intro _ g s hg has _
    have hsame : (m.manager.reconciler.begin fails).frr.localAs = 0 ∨
        (m.manager.reconciler.begin fails).frr.localAs = g.localAs := by
      refine or_iff_not_imp_left.mpr fun halive => ?_
      obtain ⟨g', hg', heq⟩ := h.global halive
      rw [Option.some.inj (hg.symm.trans hg'), heq]
      rfl
    have hrouter : writeAll (globalLines g.localAs g.routerId)
        (m.manager.reconciler.begin fails).frr.running .routerBgp = some [toString g.localAs] := by
      rw [writeAll_apply]
      rfl
    have hafter := htracked.after (c := writeAll (globalLines g.localAs g.routerId)
      (m.manager.reconciler.begin fails).frr.running) (fun i hi =>
        writeAll_of_unwritten (fun e he heq => ?_) _) s
    · rw [Reconciler.configured_same s hsame]
      exact ⟨{ hafter with }, h.hasFrr, ⟨has, hrouter⟩, ⟨g, hg, rfl⟩, rfl,
        fun _ hk => .inl (.inr hk), fun _ hk => .inr (.inr hk), fun _ => .inr, hsafe.interfaces,
        hpeer, hsafe.removals⟩
    · have hobj := globalLines_object _ _ e he
      rw [heq] at hobj
      rcases hi with ⟨a, rfl⟩ | ⟨af, n, rfl⟩ | ⟨a, j, rfl⟩ <;> simp at hobj
  · exact fun _ g s _ _ _ => { hinv with tracked := { htracked with } }
  · intro _ g s hg halive hne _
    obtain ⟨g', hg', heq⟩ := h.global halive
    rw [Option.some.inj (hg.symm.trans hg')] at hne
    exact absurd heq.symm hne

theorem LeakSafe.reconcile (hsafe : LeakSafe names m fails)
    (hstore : m.manager.store.OneOwner m.manager.owner)
    (h : LeakInv names m.last m.manager.reconciler) :
    Outcome (reconcile names o m.manager.store) (m.manager.reconciler.begin fails)
      (LeakCycle names m.manager.desired m.manager.addrsInUse m.manager.networksInUse fails)
      (LeakInv names m.manager.desired) := by
  have hscope := hsafe.scope hstore
  refine reconcile_outcome h.hasFrr (hsafe.ensureBgpGlobal h) fun r hr => ?_
  exact (reconcileFamilies_keeps (reconcilePeers_leakCycle hscope (desiredMap_peers hstore o))
    (reconcilePrefixes_leakCycle hscope (desiredMap_prefixes hstore o))
    (reconcileBfd_leakCycle hscope (desiredMap_bfd hstore o)) reconcileOspf_leakCycle hr).imp
    (fun _ h => h) fun _ h => h.leakInv

theorem CycledManager.step_leakInv (hstore : m.manager.store.OneOwner m.manager.owner)
    (h : LeakInv names m.last m.manager.reconciler) {e : RoutingEvent}
    (hsafe : ∀ o fails, e = .reconcile o fails → LeakSafe names m fails) :
    LeakInv names (m.step names e).last (m.step names e).manager.reconciler := by
  cases e with
  | change c =>
    change LeakInv names m.last (m.manager.change c).reconciler
    rwa [(RoutingManager.change_changed m.manager c).reconciler]
  | reconcile o fails =>
    exact outcome_stateAfter (((hsafe o fails rfl).reconcile hstore h).imp
      (fun _ h => h.leakInv) fun _ h => h)

theorem CycledManager.run_leakInv (events : List RoutingEvent)
    (hstore : m.manager.store.OneOwner m.manager.owner)
    (h : LeakInv names m.last m.manager.reconciler) (hrun : LeakSafeRun names m events) :
    (m.run names events).manager.store.OneOwner (m.run names events).manager.owner ∧
      LeakInv names (m.run names events).last (m.run names events).manager.reconciler := by
  induction events generalizing m with
  | nil => exact ⟨hstore, h⟩
  | cons e events ih =>
    refine ih ?_ (step_leakInv hstore h hrun.1) hrun.2
    have hstep := RoutingManager.step_oneOwner names hstore e
    cases e <;> exact hstep

theorem LeakCycle.exactlyConfigured (h : LeakCycle names d U X fails r) (hsettled : Settled d r) :
    ExactlyConfigured names d r.frr.running := by
  have hmanaged : ∀ k, k ∈ r.peerManagedBfd ↔ ∃ p, d.peers.lookup k = some p ∧ p.bfdEnabled = true :=
    fun k => h.tracked.managed k (by rw [hsettled.peers])
  refine ⟨fun a => ⟨fun ha => ?_, ?_⟩, ?_, fun a i => ?_⟩
  · obtain ⟨k, hk, hin⟩ := h.tracked.neighbors a ha
    rw [hsettled.peers, or_self] at hin
    exact ⟨k, hin, hk⟩
  · rintro ⟨k, hk, rfl⟩
    rw [← hsettled.peers] at hk
    exact h.tracked.peers k hk
  · rw [← hsettled.prefixes]
    exact h.tracked.networks
  · rw [h.tracked.sessions a i]
    constructor
    · rintro ⟨k, b, hb, ha, hi⟩
      cases hk : d.bfd.lookup k with
      | some b' =>
        rw [hsettled.bfd k b' hk] at hb
        cases hb
        exact .inl ⟨k, _, hk, ha, hi⟩
      | none =>
        have hmem := mem_of_lookup_eq_some hb
        have hman := hsettled.managed k hmem (lookup_eq_none.mp hk)
        obtain ⟨b', hb', hiface⟩ := h.tracked.managedBfd k hman
        obtain ⟨p, hp, hbfd⟩ := (hmanaged k).mp hman
        rw [hb] at hb'
        cases hb'
        exact .inr ⟨k, p, hp, hbfd, ha, hi.symm.trans hiface⟩
    · rintro (⟨k, b, hb, ha, hi⟩ | ⟨k, p, hp, hbfd, ha, rfl⟩)
      · exact ⟨k, b, hsettled.bfd k b hb, ha, hi⟩
      · obtain ⟨b, hb, hiface⟩ := h.tracked.managedBfd k ((hmanaged k).mpr ⟨p, hp, hbfd⟩)
        exact ⟨k, b, hb, ha, hiface⟩

def newCycledManager (owner : String) (g : Option BgpGlobalConfig) : CycledManager :=
  ⟨newRoutingManager owner g, newOwnerIntents⟩

/-- Whatever failed before, a cycle without an error leaves no neighbor, network or session
behind, when the cycles meet the condition. -/
theorem reconcile_exactlyConfigured (names : FrrNames) (owner : String)
    (g : Option BgpGlobalConfig) (events : List RoutingEvent)
    (hrun : LeakSafeRun names (newCycledManager owner g) events) (o : RoutingOrders)
    (fails : VtyFaults)
    (hsafe : LeakSafe names ((newCycledManager owner g).run names events) fails)
    {r' : Reconciler}
    (hr' : reconcile names o ((newCycledManager owner g).run names events).manager.store
      (((newCycledManager owner g).run names events).manager.reconciler.begin fails) = .ok () r') :
    ExactlyConfigured names ((newCycledManager owner g).run names events).manager.desired
      r'.frr.running := by
  have hnew : LeakInv names newOwnerIntents (newReconciler newFrrClient g) := by
    refine ⟨⟨Keyed.empty, Keyed.empty, Keyed.empty, ?_, ?_, ?_, ?_, ?_, ?_⟩, rfl,
      ⟨fun _ => rfl, fun h0 => absurd rfl h0⟩, fun h => absurd h Bool.false_ne_true,
      fun h0 => absurd rfl h0⟩
    · exact fun _ hk => absurd hk notMem_empty
    · exact fun _ ha => absurd ha Bool.false_ne_true
    · intro k _
      simp [newReconciler, newOwnerIntents]
    · exact fun _ hk => absurd hk (Finset.notMem_empty _)
    · intro a i
      simp [newReconciler, newFrrClient]
    · intro af n
      simp [newReconciler, newFrrClient, notMem_empty]
  obtain ⟨hstore, hinv⟩ := CycledManager.run_leakInv events (IntentStore.OneOwner.empty owner) hnew hrun
  have hcycle := (hsafe.reconcile hstore hinv).of_ok hr'
  have hsettled := (reconcile_settled (r := Reconciler.begin fails _) hstore hinv.hasFrr hr').1
  exact hcycle.exactlyConfigured hsettled

def halfAppliedPeer : List RoutingEvent :=
  [.change (.applyPeer "10.0.0.2" 65002 (some ⟨true, 300, 300, 3⟩)),
    .reconcile sortedOrders fun n _ => n == 2]

def halfApplied : CycledManager :=
  (newCycledManager "novanet" (some ⟨65001, "10.0.0.1"⟩)).run ⟨id, id⟩ halfAppliedPeer

theorem reconcile_exactlyConfigured_example :
    ∃ r', reconcile ⟨id, id⟩ sortedOrders halfApplied.manager.store
        (halfApplied.manager.reconciler.begin neverFails) = .ok () r' ∧
      ExactlyConfigured ⟨id, id⟩ halfApplied.manager.desired r'.frr.running := by
  have hsafe {m : CycledManager} {fails : VtyFaults}
      (hpeers : m.manager.reconciler.appliedPeers = ∅) (hbfd : m.manager.desired.bfd = ∅)
      (happlied : m.manager.reconciler.appliedBfd = ∅)
      (hlast : m.last.peers = ∅ ∨ m.last.peers = m.manager.desired.peers) :
      LeakSafe ⟨id, id⟩ m fails := by
    refine ⟨Function.injective_id.injOn, Function.injective_id.injOn, fun k hk => ?_, ?_, ?_, ?_⟩
    · rw [hpeers] at hk ⊢
      rcases hlast with hlast | hlast
      · exact absurd (by rw [hlast]) hk
      · rw [← hlast]
        exact hk.symm
    · rw [hbfd]
      simp
    · rw [hbfd, happlied]
      simp
    · rw [hpeers]
      exact fun _ hk => absurd hk notMem_empty
  have hrun : LeakSafeRun ⟨id, id⟩ (newCycledManager "novanet" (some ⟨65001, "10.0.0.1"⟩))
      halfAppliedPeer := by
    refine ⟨nofun, ?_, trivial⟩
    rintro _ _ ⟨⟩
    exact hsafe (by decide +kernel) (by decide +kernel) (by decide +kernel) (by decide +kernel)
  have hok : Outcome (reconcile ⟨id, id⟩ sortedOrders halfApplied.manager.store)
      (halfApplied.manager.reconciler.begin neverFails) (fun _ => True) fun _ => False := by
    decide +kernel
  obtain ⟨_, r', hr', -⟩ := hok.exists_ok
  exact ⟨r', hr', reconcile_exactlyConfigured ⟨id, id⟩ "novanet" (some ⟨65001, "10.0.0.1"⟩)
    halfAppliedPeer hrun sortedOrders neverFails
    (hsafe (by decide +kernel) (by decide +kernel) (by decide +kernel) (by decide +kernel)) hr'⟩

def takenBack : RoutingManager :=
  exampleManager (halfAppliedPeer ++ [.change (.removePeer "10.0.0.2")])

/-- The peer is taken back after its application failed: no record tells that the neighbor is
there, and a cycle without an error leaves it. -/
theorem halfAppliedPeer_leaks :
    Outcome (reconcile ⟨id, id⟩ sortedOrders takenBack.store)
      (takenBack.reconciler.begin neverFails)
      (fun r' => "10.0.0.2" ∉ takenBack.desired.peers ∧
        r'.frr.running (.neighbor "10.0.0.2" .remoteAs) = some ["65002"]) fun _ => False := by
  decide +kernel

end Runs

end NovaNet
