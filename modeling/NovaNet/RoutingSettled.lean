import NovaNet.RoutingEvents
import NovaNet.RoutingFamilies

/-! After a reconciliation without an error the records hold the intents, whatever they held
before and whatever failed on the way; the next reconciliation has nothing to send. -/

namespace NovaNet

open ErrorState Finmap LastWrite Option
open FrrClient (send)

section Books

variable {names : FrrNames} {I : Reconciler → Prop}

def IgnoresFrr (I : Reconciler → Prop) : Prop := ∀ r f, I r → I { r with frr := f }

def IgnoresBfd (I : Reconciler → Prop) : Prop :=
  ∀ r managed applied, I r → I { r with peerManagedBfd := managed, appliedBfd := applied }

theorem callFrr_keeps (hI : IgnoresFrr I) (context : String) (x : FrrCall) :
    Keeps (callFrr context x) I := fun r hr =>
  callFrr_lift (outcome_intro (fun _ f _ => hI r f hr) fun _ f _ => hI r f hr)

theorem tryFrr_keeps (hI : IgnoresFrr I) (x : FrrCall) : Keeps (tryFrr x) I := fun r hr =>
  tryFrr_lift (outcome_intro (fun _ f _ => hI r f hr) fun _ f _ => hI r f hr)

structure KeptByCalls (names : FrrNames) (I : Reconciler → Prop) : Prop where
  call : ∀ context q, Keeps (callFrr context (send names q)) I
  attempt : ∀ q, Keeps (tryFrr (send names q)) I
  global : ∀ context oldAs newAs routerId,
    Keeps (callFrr context (FrrClient.reconfigureBgpGlobal names oldAs newAs routerId)) I

theorem IgnoresFrr.keptByCalls (hI : IgnoresFrr I) : KeptByCalls names I where
  call _ _ := callFrr_keeps hI _ _
  attempt _ := tryFrr_keeps hI _
  global _ _ _ _ := callFrr_keeps hI _ _

theorem applyPeerIntent_keeps (hI : KeptByCalls names I) (hbfd : IgnoresBfd I) (p : PeerIntent) :
    Keeps (applyPeerIntent names p) I := by
  have hcall {context : String} {q : FrrRequest} := hI.call context q
  have hlink : Keeps (linkPeerBfd names p) I :=
    hcall.bind ((keeps_modify fun r hr => hbfd r _ _ hr).bind hcall)
  have hunlink : Keeps (unlinkPeerBfd names p) I := hcall.bind (Keeps.get_bind fun r =>
      (hcall.bind (keeps_modify fun r hr => hbfd r _ _ hr)).ite (keeps_pure _))
  exact hcall.bind ((keeps_forM (fun _ => hcall) _).bind ((keeps_forM (fun _ => hcall) _).bind
    (hlink.ite hunlink)))

theorem removePeer_keeps (hI : KeptByCalls names I) (hbfd : IgnoresBfd I) (p : PeerIntent) :
    Keeps (removePeer names p) I := by
  have htry {q : FrrRequest} := hI.attempt q
  have hcall {context : String} {q : FrrRequest} := hI.call context q
  have hforget : Keeps (modify (forgetPeerBfd p.neighborAddress) : RoutingCall) I :=
    keeps_modify fun r hr => hbfd r _ _ hr
  refine Keeps.get_bind fun r => Keeps.ite ?_ hcall
  exact htry.bind (htry.bind (hforget.bind hcall))

theorem dropRouteMap_keeps (hI : KeptByCalls names I) (p : PrefixIntent) :
    Keeps (dropRouteMap names p) I := (hI.attempt _).ite (keeps_pure _)

theorem applyPrefixIntent_keeps (hI : KeptByCalls names I) (p : PrefixIntent) :
    Keeps (applyPrefixIntent names p) I := by
  have hcall {context : String} {q : FrrRequest} := hI.call context q
  unfold applyPrefixIntent
  cases p.protocol with
  | bgp => exact (hcall.bind hcall).ite hcall
  | ospf => exact keeps_pure _
  | unspecified => exact keeps_throw _

theorem replacePrefixIntent_keeps (hI : KeptByCalls names I) (old : Option PrefixIntent)
    (p : PrefixIntent) : Keeps (replacePrefixIntent names old p) I :=
  (keeps_forM (fun q => (dropRouteMap_keeps hI q).ite (keeps_pure _)) _).bind
    (applyPrefixIntent_keeps hI p)

theorem removePrefixFromFrr_keeps (hI : KeptByCalls names I) (p : PrefixIntent) :
    Keeps (removePrefixFromFrr names p) I := by
  unfold removePrefixFromFrr
  cases p.protocol with
  | bgp => exact (hI.call _ _).bind (dropRouteMap_keeps hI p)
  | ospf => exact keeps_pure _
  | unspecified => exact keeps_throw _

end Books

namespace Family

variable {κ α : Type} [DecidableEq κ] {F : Family κ α} {I : Reconciler → Prop}
  {desired : List α} {r : Reconciler}

section Settles

variable (o : IterOrder κ) (hset : ∀ m r, F.applied (F.setApplied m r) = m)
  (hI : ∀ m r, I r → I (F.setApplied m r))
  (happly : ∀ old a A, Keeps (F.apply old a) fun r => I r ∧ F.applied r = A)
  (hremove : ∀ a A, Keeps (F.remove a) fun r => I r ∧ F.applied r = A)

include hset hI happly hremove

theorem reconcile_settles (keep : κ → Bool) (hkept : ∀ r k, I r → F.kept r k = keep k) (hr : I r) :
    Outcome (F.reconcile o desired) r
      (fun r' => I r' ∧ ∀ k, (F.applied r').lookup k = ((F.desiredMap desired).lookup k).or
        (if keep k then (F.applied r).lookup k else none)) I := by
  have hkeep {x : RoutingCall} {k : κ} {r : Reconciler} {R : Option α → Option α → Prop}
      (g : (Finmap fun _ : κ => α) → Finmap fun _ : κ => α)
      (hx : ∀ A, Keeps x fun r => I r ∧ F.applied r = A) (hr : I r)
      (hown : R ((F.applied r).lookup k) ((g (F.applied r)).lookup k))
      (hother : ∀ k', k' ≠ k → (g (F.applied r)).lookup k' = (F.applied r).lookup k') :
      Outcome x r (fun r' => Turn I (fun r k => (F.applied r).lookup k) R k r
          (F.setApplied (g (F.applied r')) r'))
        (Turn I (fun r k => (F.applied r).lookup k) (fun _ _ => True) k r) := by
    refine (hx (F.applied r) r ⟨hr, rfl⟩).imp ?_ ?_
    · rintro r' ⟨hI', happ⟩
      refine ⟨hI _ r' hI', ?_, fun k' hne => ?_⟩
      · rw [hset, happ]
        exact hown
      · rw [hset, happ]
        exact hother k' hne
    · rintro r' ⟨hI', happ⟩
      exact ⟨hI', trivial, fun k' _ => by rw [happ]⟩
  refine reconcile_outcome (T := fun k d v v' => v' = d.or (if keep k then v else none))
    o desired (fun r k => (F.applied r).lookup k) ?_ ?_ hr
  · intro k a r hk hr
    refine applyKey_outcome (fun hidle => ⟨hr, ?_, fun _ _ => rfl⟩) fun a' ha' _ => ?_
    · rw [hk] at hidle
      rw [← hidle.resolve_left (some_ne_none a), some_or]
    · obtain rfl : a = a' := Option.some.inj (hk.symm.trans ha')
      refine hkeep (·.insert k a) (happly _ a) hr ?_ fun k' hne => ?_
      · rw [lookup_insert, some_or]
      · exact lookup_insert_of_ne _ hne
  · intro k r hk hr
    refine removeKey_outcome (fun hidle => ⟨hr, ?_, fun _ _ => rfl⟩) fun a ha _ hkeeps => ?_
    · rw [hkept r k hr] at hidle
      rcases hidle with hnone | hmem | hkeeps
      · rw [hnone]
        simp
      · exact absurd hmem hk
      · rw [if_pos hkeeps, none_or]
    · refine hkeep (·.erase k) (hremove a) hr ?_ fun k' hne => ?_
      · rw [hkept r k hr] at hkeeps
        rw [lookup_erase, if_neg (by rw [hkeeps]; exact Bool.false_ne_true), none_or]
      · exact lookup_erase_ne hne

/-- A family that keeps nothing beside the intents. -/
theorem reconcile_settles_all (hkept : ∀ r k, F.kept r k = false) (hr : I r) :
    Outcome (F.reconcile o desired) r (fun r' => I r' ∧ F.applied r' = F.desiredMap desired) I :=
  (reconcile_settles o hset hI happly hremove (fun _ => false) (fun r k _ => hkept r k) hr).imp
    (fun _ h => ⟨h.1, Finmap.ext_lookup fun k => (h.2 k).trans or_none⟩) fun _ h => h

end Settles

theorem reconcile_keeps (o : IterOrder κ) (hI : ∀ m r, I r → I (F.setApplied m r))
    (happly : ∀ old a, Keeps (F.apply old a) I) (hremove : ∀ a, Keeps (F.remove a) I) :
    Keeps (F.reconcile o desired) I :=
  reconcile_invariant o
    ⟨fun _ a r _ _ hr => (happly _ a r hr).imp (fun r' => hI _ r') fun _ h => h,
      fun _ a r _ _ _ hr => (hremove a r hr).imp (fun r' => hI _ r') fun _ h => h⟩

theorem reconcile_idle (o : IterOrder κ)
    (happlied : ∀ k a, (F.desiredMap desired).lookup k = some a → (F.applied r).lookup k = some a)
    (hkept : ∀ k ∈ F.applied r, k ∈ F.desiredMap desired ∨ F.kept r k = true) :
    F.reconcile o desired r = .ok () r := by
  have hadd : forEachKey (F.applyKey (F.desiredMap desired))
      (o.enum [0] (F.desiredMap desired).keys) r = ([], r) := by
    refine forEachKey_of_idle fun k hk => ?_
    have hmem := Finmap.mem_keys.mp ((o.mem_enum _ _ _).mp hk)
    obtain ⟨a, ha⟩ := Finmap.mem_iff.mp hmem
    rw [applyKey, ha]
    exact if_pos (any_equal_iff.mpr (happlied k a ha))
  have hrem : forEachKey (F.removeKey (F.desiredMap desired))
      (o.enum [1] (F.applied r).keys) r = ([], r) := by
    refine forEachKey_of_idle fun k hk => ?_
    have hmem := Finmap.mem_keys.mp ((o.mem_enum _ _ _).mp hk)
    obtain ⟨a, ha⟩ := Finmap.mem_iff.mp hmem
    rw [removeKey, ha]
    exact if_pos (hkept k hmem)
  dsimp only [reconcile]
  rw [hadd]
  dsimp only
  rw [hrem]
  rfl

theorem reconcile_idle_of_eq (o : IterOrder κ) (h : F.applied r = F.desiredMap desired) :
    F.reconcile o desired r = .ok () r :=
  reconcile_idle o (fun k a ha => by rw [h, ha]) fun k hk => .inl (h ▸ hk)

end Family

section Phases

variable {names : FrrNames} {store : IntentStore} {o : RoutingOrders} {r r' : Reconciler}

theorem wrapError_eq_ok {context : String} {x : RoutingCall} (h : wrapError context x r = .ok () r') :
    x r = .ok () r' := by
  unfold wrapError at h
  cases hx : x r with
  | ok u r₁ =>
    rw [hx] at h
    cases h
    rfl
  | error e r₁ => simp [hx] at h

theorem collectErrors_eq_ok {context : String} {out : List RoutingError × Reconciler}
    (h : collectErrors context out = .ok () r') : out = ([], r') := by
  obtain ⟨es, r₁⟩ := out
  cases es with
  | nil =>
    cases h
    rfl
  | cons e es => cases h

theorem reconcile_eq_ok (hfrr : r.hasFrr = true) (h : reconcile names o store r = .ok () r') :
    ∃ r₀ r₁ r₂ r₃, ensureBgpGlobal names r = .ok () r₀ ∧
      reconcilePeers names o (store.getPeerIntents o) r₀ = .ok () r₁ ∧
      reconcilePrefixes names o (store.getPrefixIntents o) r₁ = .ok () r₂ ∧
      reconcileBfd names o (store.getBfdIntents o) r₂ = .ok () r₃ ∧
      reconcileOspf names o (store.getOspfIntents o) r₃ = .ok () r' := by
  unfold reconcile at h
  rw [if_pos hfrr] at h
  obtain ⟨_, r₀, hglobal, h⟩ := bind_eq_ok h
  have h := collectErrors_eq_ok h
  obtain ⟨r₁, hpeers, h⟩ := forEachKey_cons_eq_nil h
  obtain ⟨r₂, hprefixes, h⟩ := forEachKey_cons_eq_nil h
  obtain ⟨r₃, hbfd, h⟩ := forEachKey_cons_eq_nil h
  obtain ⟨r₄, hospf, h⟩ := forEachKey_cons_eq_nil h
  cases h
  exact ⟨r₀, r₁, r₂, r₃, wrapError_eq_ok hglobal, wrapError_eq_ok hpeers,
    wrapError_eq_ok hprefixes, wrapError_eq_ok hbfd, wrapError_eq_ok hospf⟩

theorem ensureBgpGlobal_configured (h : ensureBgpGlobal names r = .ok () r') :
    r'.bgpConfigured = true ∧ r'.hasFrr = r.hasFrr := by
  unfold ensureBgpGlobal at h
  split at h
  · cases h
    exact ⟨‹_›, rfl⟩
  · split at h
    · cases h
    · split at h
      · cases h
      · obtain ⟨_, r₁, hcall, hmod⟩ := bind_eq_ok h
        cases hmod
        have hsame : r₁.hasFrr = r.hasFrr :=
          (callFrr_keeps (I := fun r' => r'.hasFrr = r.hasFrr) (fun _ _ h => h) _ _ r rfl).of_ok hcall
        refine ⟨rfl, ?_⟩
        unfold forgetInstance
        split <;> exact hsame

end Phases

section Settles

variable {names : FrrNames} {o : RoutingOrders} {I : Reconciler → Prop} {r : Reconciler}

theorem reconcilePeers_settles (hfrr : IgnoresFrr I) (hbfd : IgnoresBfd I)
    (hI : ∀ m r, I r → I { r with appliedPeers := m }) (desired : List PeerIntent) (hr : I r) :
    Outcome (reconcilePeers names o desired) r
      (fun r' => I r' ∧ r'.appliedPeers = (peerFamily names).desiredMap desired) I := by
  refine Family.reconcile_settles_all (F := peerFamily names) o.texts (fun _ _ => rfl) hI
    (fun _ p A => ?_) (fun p A => ?_) (fun _ _ => rfl) hr
  · exact applyPeerIntent_keeps (IgnoresFrr.keptByCalls fun r f h => ⟨hfrr r f h.1, h.2⟩)
      (fun r _ _ h => ⟨hbfd r _ _ h.1, h.2⟩) p
  · exact removePeer_keeps (IgnoresFrr.keptByCalls fun r f h => ⟨hfrr r f h.1, h.2⟩)
      (fun r _ _ h => ⟨hbfd r _ _ h.1, h.2⟩) p

theorem reconcilePrefixes_settles (hfrr : IgnoresFrr I)
    (hI : ∀ m r, I r → I { r with appliedPrefixes := m }) (desired : List PrefixIntent)
    (hr : I r) :
    Outcome (reconcilePrefixes names o desired) r
      (fun r' => I r' ∧ r'.appliedPrefixes = (prefixFamily names).desiredMap desired) I := by
  refine Family.reconcile_settles_all (F := prefixFamily names) o.prefixes (fun _ _ => rfl) hI
    (fun old p A => ?_) (fun p A => ?_) (fun _ _ => rfl) hr
  · exact replacePrefixIntent_keeps (IgnoresFrr.keptByCalls fun r f h => ⟨hfrr r f h.1, h.2⟩) old p
  · exact removePrefixFromFrr_keeps (IgnoresFrr.keptByCalls fun r f h => ⟨hfrr r f h.1, h.2⟩) p

theorem reconcileOspf_settles (hfrr : IgnoresFrr I)
    (hI : ∀ m r, I r → I { r with appliedOspf := m }) (desired : List OspfIntent) (hr : I r) :
    Outcome (reconcileOspf names o desired) r
      (fun r' => I r' ∧ r'.appliedOspf = (ospfFamily names).desiredMap desired) I := by
  have hcall {context : String} {x : FrrCall} (A : OspfMap) :
      Keeps (callFrr context x) fun r => I r ∧ r.appliedOspf = A :=
    callFrr_keeps (fun r f h => ⟨hfrr r f h.1, h.2⟩) _ _
  exact Family.reconcile_settles_all (F := ospfFamily names) o.texts (fun _ _ => rfl) hI
    (fun _ _ => hcall) (fun _ => hcall) (fun _ _ => rfl) hr

theorem reconcileBfd_settles (managed : Finset String) (hfrr : IgnoresFrr I)
    (hI : ∀ m r, I r → I { r with appliedBfd := m })
    (hmanaged : ∀ r, I r → r.peerManagedBfd = managed) (desired : List BfdIntent) (hr : I r) :
    Outcome (reconcileBfd names o desired) r
      (fun r' => I r' ∧ ∀ k, r'.appliedBfd.lookup k =
        (((bfdFamily names).desiredMap desired).lookup k).or
          (if k ∈ managed then r.appliedBfd.lookup k else none)) I := by
  have hcall {context : String} {x : FrrCall} (A : BfdMap) :
      Keeps (callFrr context x) fun r => I r ∧ r.appliedBfd = A :=
    callFrr_keeps (fun r f h => ⟨hfrr r f h.1, h.2⟩) _ _
  refine (Family.reconcile_settles (F := bfdFamily names) o.texts (fun _ _ => rfl) hI
    (fun _ _ => hcall) (fun _ => hcall) (fun k => k ∈ managed) (fun r k h => ?_) hr).imp ?_
    fun _ h => h
  · rw [← hmanaged r h]
    rfl
  · rintro r' ⟨hI', happ⟩
    refine ⟨hI', fun k => (happ k).trans ?_⟩
    simp [bfdFamily]

end Settles

/-- The records hold the intents: of peers, prefixes and interfaces exactly these, and of BFD
sessions these and the ones that came with a peer. -/
structure Settled (d : OwnerIntents) (r : Reconciler) : Prop where
  peers : r.appliedPeers = d.peers
  prefixes : r.appliedPrefixes = d.prefixes
  ospf : r.appliedOspf = d.ospf
  bfd : ∀ k b, d.bfd.lookup k = some b → r.appliedBfd.lookup k = some b
  managed : ∀ k ∈ r.appliedBfd, k ∉ d.bfd → k ∈ r.peerManagedBfd

section Idempotent

variable {names : FrrNames} {m : RoutingManager} {o : RoutingOrders} {r r' : Reconciler}

theorem reconcile_settled (hstore : m.store.OneOwner m.owner) (hfrr : r.hasFrr = true)
    (h : reconcile names o m.store r = .ok () r') :
    Settled m.desired r' ∧ r'.bgpConfigured = true ∧ r'.hasFrr = true := by
  obtain ⟨r₀, r₁, r₂, r₃, h₀, h₁, h₂, h₃, h₄⟩ := reconcile_eq_ok hfrr h
  obtain ⟨hconf, hfrr₀⟩ := ensureBgpGlobal_configured h₀
  obtain ⟨⟨hc₁, hf₁⟩, hpeers⟩ := (reconcilePeers_settles
    (I := fun r => r.bgpConfigured = true ∧ r.hasFrr = true) (fun _ _ h => h) (fun _ _ _ h => h)
    (fun _ _ h => h) _ ⟨hconf, hfrr₀.trans hfrr⟩).of_ok h₁
  rw [desiredMap_peers hstore] at hpeers
  obtain ⟨⟨hc₂, hf₂, hp₂⟩, hprefixes⟩ := (reconcilePrefixes_settles
    (I := fun r => r.bgpConfigured = true ∧ r.hasFrr = true ∧ r.appliedPeers = m.desired.peers)
    (fun _ _ h => h) (fun _ _ h => h) _ ⟨hc₁, hf₁, hpeers⟩).of_ok h₂
  rw [desiredMap_prefixes hstore] at hprefixes
  obtain ⟨⟨hc₃, hf₃, hp₃, hx₃, hm₃⟩, hbfd⟩ := (reconcileBfd_settles
    (I := fun r => r.bgpConfigured = true ∧ r.hasFrr = true ∧ r.appliedPeers = m.desired.peers ∧
      r.appliedPrefixes = m.desired.prefixes ∧ r.peerManagedBfd = r₂.peerManagedBfd)
    r₂.peerManagedBfd (fun _ _ h => h) (fun _ _ h => h) (fun _ h => h.2.2.2.2) _
    ⟨hc₂, hf₂, hp₂, hprefixes, rfl⟩).of_ok h₃
  rw [desiredMap_bfd hstore] at hbfd
  obtain ⟨⟨hc₄, hf₄, hp₄, hx₄, hm₄, hb₄⟩, hospf⟩ := (reconcileOspf_settles
    (I := fun r => r.bgpConfigured = true ∧ r.hasFrr = true ∧ r.appliedPeers = m.desired.peers ∧
      r.appliedPrefixes = m.desired.prefixes ∧ r.peerManagedBfd = r₂.peerManagedBfd ∧
      r.appliedBfd = r₃.appliedBfd)
    (fun _ _ h => h) (fun _ _ h => h) _ ⟨hc₃, hf₃, hp₃, hx₃, hm₃, rfl⟩).of_ok h₄
  rw [desiredMap_ospf hstore] at hospf
  refine ⟨⟨hp₄, hx₄, hospf, fun k b hk => ?_, fun k hk hno => ?_⟩, hc₄, hf₄⟩
  · rw [hb₄, hbfd, hk, some_or]
  · rw [hb₄, ← lookup_isSome, hbfd, lookup_eq_none.mpr hno, none_or] at hk
    by_contra hman
    rw [hm₄] at hman
    simp [if_neg hman] at hk

theorem reconcile_of_settled (hstore : m.store.OneOwner m.owner) (hfrr : r.hasFrr = true)
    (hconf : r.bgpConfigured = true) (h : Settled m.desired r) :
    reconcile names o m.store r = .ok () r := by
  have hglobal : wrapError "ensure BGP global" (ensureBgpGlobal names) r = .ok () r := by
    rw [wrapError, ensureBgpGlobal, if_pos hconf]
  have hpeers : reconcilePeers names o (m.store.getPeerIntents o) r = .ok () r :=
    Family.reconcile_idle_of_eq _ (h.peers.trans (desiredMap_peers hstore o).symm)
  have hprefixes : reconcilePrefixes names o (m.store.getPrefixIntents o) r = .ok () r :=
    Family.reconcile_idle_of_eq _ (h.prefixes.trans (desiredMap_prefixes hstore o).symm)
  have hbfd : reconcileBfd names o (m.store.getBfdIntents o) r = .ok () r := by
    refine Family.reconcile_idle _ ?_ ?_
    · rw [desiredMap_bfd hstore]
      exact h.bfd
    · rw [desiredMap_bfd hstore]
      intro k hk
      by_cases hd : k ∈ m.desired.bfd
      · exact .inl hd
      · exact .inr (decide_eq_true (h.managed k hk hd))
  have hospf : reconcileOspf names o (m.store.getOspfIntents o) r = .ok () r :=
    Family.reconcile_idle_of_eq _ (h.ospf.trans (desiredMap_ospf hstore o).symm)
  have hfamilies : reconcileFamilies names o m.store r = .ok () r := by
    rw [reconcileFamilies, forEachKey_of_idle]
    · rfl
    · simp [wrapError, hpeers, hprefixes, hbfd, hospf]
  rw [reconcile, if_pos hfrr]
  change EStateM.bind _ _ r = _
  rwa [EStateM.bind, hglobal]

structure IgnoresBooks (I : Reconciler → Prop) : Prop where
  configured : ∀ c r, I r → I { r with bgpConfigured := c }
  peers : ∀ m r, I r → I { r with appliedPeers := m }
  prefixes : ∀ m r, I r → I { r with appliedPrefixes := m }
  ospf : ∀ m r, I r → I { r with appliedOspf := m }
  bfd : IgnoresBfd I

section Keeps

variable {I : Reconciler → Prop} (hcalls : KeptByCalls names I) (hbooks : IgnoresBooks I)

include hcalls hbooks

theorem ensureBgpGlobal_keeps : Keeps (ensureBgpGlobal names) I := by
  intro r hr
  refine ensureBgpGlobal_split (fun _ => hr) (fun _ _ => hr) fun _ g _ _ =>
    (hcalls.global _ _ _ _ r hr).imp (fun r' hr' => hbooks.configured _ _ ?_) fun _ h => h
  unfold forgetInstance
  split_ifs
  · exact hbooks.prefixes ∅ _ (hbooks.peers ∅ _ hr')
  · exact hr'

theorem reconcile_keeps (store : IntentStore) : Keeps (reconcile names o store) I := by
  have hpeers (desired : List PeerIntent) : Keeps (reconcilePeers names o desired) I :=
    Family.reconcile_keeps _ hbooks.peers (fun _ => applyPeerIntent_keeps hcalls hbooks.bfd)
      (removePeer_keeps hcalls hbooks.bfd)
  have hprefixes (desired : List PrefixIntent) : Keeps (reconcilePrefixes names o desired) I :=
    Family.reconcile_keeps _ hbooks.prefixes (replacePrefixIntent_keeps hcalls)
      (removePrefixFromFrr_keeps hcalls)
  have hbfd (desired : List BfdIntent) : Keeps (reconcileBfd names o desired) I :=
    Family.reconcile_keeps _ (fun _ r => hbooks.bfd r r.peerManagedBfd _)
      (fun _ _ => hcalls.call _ _) fun _ => hcalls.call _ _
  have hospf (desired : List OspfIntent) : Keeps (reconcileOspf names o desired) I :=
    Family.reconcile_keeps _ hbooks.ospf (fun _ _ => hcalls.call _ _) fun _ => hcalls.call _ _
  intro r hr
  by_cases hclient : r.hasFrr = true
  · exact reconcile_outcome hclient (ensureBgpGlobal_keeps hcalls hbooks r hr)
      fun r hr => reconcileFamilies_keeps (hpeers _) (hprefixes _) (hbfd _) (hospf _) hr
  · unfold Outcome reconcile
    rwa [if_neg hclient]

end Keeps

theorem outcome_stateAfter {x : RoutingCall} {I : Reconciler → Prop} (h : Outcome x r I I) :
    I (stateAfter x r) := by
  unfold stateAfter
  cases hx : x r with
  | ok u r' => exact h.of_ok hx
  | error e r' => exact h.of_error hx

theorem run_hasFrr (names : FrrNames) {m : RoutingManager} (h : m.reconciler.hasFrr = true)
    (events : List RoutingEvent) : (m.run names events).reconciler.hasFrr = true := by
  induction events generalizing m with
  | nil => exact h
  | cons e events ih =>
    refine ih ?_
    cases e with
    | change c =>
      change (m.change c).reconciler.hasFrr = true
      rw [(RoutingManager.change_changed m c).reconciler, h]
    | reconcile o fails =>
      have hkeeps : Keeps (reconcile names o m.store) fun r => r.hasFrr = true :=
        reconcile_keeps (IgnoresFrr.keptByCalls fun _ _ h => h)
          ⟨fun _ _ h => h, fun _ _ h => h, fun _ _ h => h, fun _ _ h => h, fun _ _ _ h => h⟩ _
      exact outcome_stateAfter (hkeeps (m.reconciler.begin fails) h)

/-- Reconcile is idempotent, from every state that changes of the intents and cycles with any
failures lead to. The equalities of the source compare all modelled fields of an intent. -/
theorem reconcile_idempotent (owner : String) (g : Option BgpGlobalConfig)
    (events : List RoutingEvent) (fails : VtyFaults)
    (h : reconcile names o ((newRoutingManager owner g).run names events).store
      (((newRoutingManager owner g).run names events).reconciler.begin fails) = .ok () r') :
    Settled ((newRoutingManager owner g).run names events).desired r' ∧
      ∀ o' fails', reconcile names o' ((newRoutingManager owner g).run names events).store
        (r'.begin fails') = .ok () (r'.begin fails') := by
  have hempty : (newRoutingManager owner g).store.OneOwner (newRoutingManager owner g).owner :=
    IntentStore.OneOwner.empty owner
  have hstore := RoutingManager.run_oneOwner names hempty events
  have hfrr : (((newRoutingManager owner g).run names events).reconciler.begin fails).hasFrr = true :=
    run_hasFrr names (m := newRoutingManager owner g) rfl events
  obtain ⟨hsettled, hconf, hfrr'⟩ := reconcile_settled hstore hfrr h
  exact ⟨hsettled, fun o' fails' => reconcile_of_settled hstore hfrr' hconf { hsettled with }⟩

def peerAndNetwork : List RoutingEvent :=
  [.change (.applyPeer "10.0.0.2" 65002 none), .change (.advertisePrefix "10.244.1.0/24")]

/-- A manager of AS 65001 after some events. -/
def exampleManager (events : List RoutingEvent) : RoutingManager :=
  (newRoutingManager "novanet" (some ⟨65001, "10.0.0.1"⟩)).run ⟨id, id⟩ events

theorem reconcile_idempotent_example :
    ∃ r', reconcile ⟨id, id⟩ sortedOrders (exampleManager peerAndNetwork).store
        ((exampleManager peerAndNetwork).reconciler.begin neverFails) = .ok () r' ∧
      Settled (exampleManager peerAndNetwork).desired r' := by
  have hrun : Outcome (reconcile ⟨id, id⟩ sortedOrders (exampleManager peerAndNetwork).store)
      ((exampleManager peerAndNetwork).reconciler.begin neverFails) (fun _ => True)
      fun _ => False := by
    decide +kernel
  obtain ⟨_, r', hr', -⟩ := hrun.exists_ok
  exact ⟨r', hr', (reconcile_idempotent "novanet" (some ⟨65001, "10.0.0.1"⟩) peerAndNetwork
    neverFails hr').1⟩

end Idempotent

end NovaNet
