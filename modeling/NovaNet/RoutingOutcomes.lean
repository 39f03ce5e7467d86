import NovaNet.RoutingFamilies
import NovaNet.RoutingRendering

/-! What the application and the removal of one intent can do, over an FRR whose calls may
fail: the state after a success, and after an error that came half way. -/

namespace NovaNet

open ErrorState KeyedConfig LastWrite List Outcome FrrLine
open FrrClient (send)

namespace Reconciler

def after (r : Reconciler) (c : FrrConfig) (sent : List (List VtyCommand)) : Reconciler :=
  { r with frr := r.frr.after c sent }

def Ready (r : Reconciler) : Prop := NovaNet.Ready r.frr.localAs r.frr.running

def Quiet (r : Reconciler) : Prop := ∀ n commands, r.frr.fails n commands = false

theorem Ready.after {r : Reconciler} (h : r.Ready) {c : FrrConfig}
    (hc : c .routerBgp = r.frr.running .routerBgp) (s : VtyBatches) :
    (r.after c s).Ready := ⟨h.1, hc.trans h.2⟩

theorem Quiet.succeeds {r : Reconciler} (h : r.Quiet) {q : FrrRequest} (hq : q.Ok r.frr.localAs) :
    q.Succeeds r.frr := ⟨hq, fun n => h n _⟩

end Reconciler

theorem not_quiet {r : Reconciler} {q : FrrRequest} {V : Prop} (hfail : ¬ q.Succeeds r.frr)
    (hq : V → q.Ok r.frr.localAs) : ¬ (r.Quiet ∧ V) := fun h => hfail (h.1.succeeds (hq h.2))

section Calls

variable {names : FrrNames} {q : FrrRequest} {g : FrrConfig → FrrConfig} {r : Reconciler}
  {Q E : Reconciler → Prop}

theorem callFrr_outcome (hq : q.Does names g) (hr : r.Ready) {context : String}
    (hok : q.Ok r.frr.localAs → ∀ s, Q (r.after (g r.frr.running) s))
    (herr : ¬ q.Succeeds r.frr → ∀ s, E (r.after r.frr.running s)) :
    Outcome (callFrr context (send names q)) r Q E := by
  refine callFrr_lift ((FrrClient.send_outcome hq hr).imp ?_ ?_)
  · rintro _ ⟨hchecks, s, rfl⟩
    exact hok hchecks s
  · rintro _ ⟨hfails, s, rfl⟩
    exact herr hfails s

theorem tryFrr_outcome (hq : q.Does names g) (hr : r.Ready)
    (hok : q.Ok r.frr.localAs → ∀ s, Q (r.after (g r.frr.running) s))
    (herr : ¬ q.Succeeds r.frr → ∀ s, Q (r.after r.frr.running s)) :
    Outcome (tryFrr (send names q)) r Q E := by
  refine tryFrr_lift ((FrrClient.send_outcome hq hr).imp ?_ ?_)
  · rintro _ ⟨hchecks, s, rfl⟩
    exact hok hchecks s
  · rintro _ ⟨hfails, s, rfl⟩
    exact herr hfails s

end Calls

section Global

variable {names : FrrNames}

def Reconciler.configured (r : Reconciler) (g : BgpGlobalConfig) (s : List (List VtyCommand)) :
    Reconciler :=
  { forgetInstance r.frr.localAs g.localAs r with
    bgpConfigured := true
    frr := { r.frr.after (writeAll (globalLines g.localAs g.routerId)
      (keptInstance r.frr.localAs g.localAs r.frr.running)) s with localAs := g.localAs } }

theorem Reconciler.configured_same {r : Reconciler} {g : BgpGlobalConfig} (s : VtyBatches)
    (h : r.frr.localAs = 0 ∨ r.frr.localAs = g.localAs) :
    r.configured g s = { r with
      bgpConfigured := true
      frr := { r.frr.after (writeAll (globalLines g.localAs g.routerId) r.frr.running) s with
        localAs := g.localAs } } := by
  have hforget : forgetInstance r.frr.localAs g.localAs r = r :=
    if_neg fun hnew => h.elim hnew.1 hnew.2
  rw [Reconciler.configured, hforget, keptInstance, if_pos h]

theorem ensureBgpGlobal_outcome {r : Reconciler} {Q E : Reconciler → Prop}
    (hr : LiveInstance r.frr.localAs r.frr.running) (hidle : r.bgpConfigured = true → Q r)
    (hunset : r.bgpConfigured = false → (∀ g, r.bgpGlobal = some g → g.localAs = 0) → E r)
    (hok : r.bgpConfigured = false → ∀ g s, r.bgpGlobal = some g → g.localAs ≠ 0 →
      VtySafe g.routerId → Q (r.configured g s))
    (hfail : r.bgpConfigured = false → ∀ g s, r.bgpGlobal = some g → g.localAs ≠ 0 →
      ¬ (VtySafe g.routerId ∧ r.Quiet) → E (r.after r.frr.running s))
    (hhalf : r.bgpConfigured = false → ∀ g s, r.bgpGlobal = some g → r.frr.localAs ≠ 0 →
      r.frr.localAs ≠ g.localAs →
      ¬ (∀ n, r.frr.fails n (bgpGlobalCommands g.localAs g.routerId) = false) →
      E (r.after (keptInstance r.frr.localAs g.localAs r.frr.running) s)) :
    Outcome (ensureBgpGlobal names) r Q E := by
  refine ensureBgpGlobal_split hidle hunset fun hconf g hg has => callFrr_lift
    ((FrrClient.reconfigureBgpGlobal_outcome names g.routerId has hr).imp ?_ ?_)
  · rintro _ ⟨hsafe, s, rfl⟩
    have hgoal := hok hconf g s hg has hsafe
    unfold Reconciler.configured forgetInstance at hgoal
    unfold forgetInstance
    by_cases h : r.frr.localAs ≠ 0 ∧ r.frr.localAs ≠ g.localAs
    · simpa only [if_pos h] using hgoal
    · simpa only [if_neg h] using hgoal
  · rintro _ ⟨s, ⟨rfl, h⟩ | ⟨hold, hne, rfl, h⟩⟩
    · exact hfail hconf g s hg has h
    · exact hhalf hconf g s hg hold hne h

end Global

section Peers

variable {names : FrrNames}

/-- Only lines of one neighbor change, and a configured neighbor stays configured. -/
structure Touches (names : FrrNames) (addr : String) (c c' : FrrConfig) : Prop where
  other : ∀ i, ¬ PeerOwns names addr i → c' i = c i
  stays : (c (.neighbor (names.addr addr) .remoteAs)).isSome = true →
    (c' (.neighbor (names.addr addr) .remoteAs)).isSome = true

open Touches

theorem Touches.refl (addr : String) (c : FrrConfig) : Touches names addr c c :=
  ⟨fun _ _ => rfl, id⟩

variable {r r' : Reconciler} {p : PeerIntent} {c c' : FrrConfig} {addr : String} {i : FrrLine}
  {as : Nat}

theorem Touches.trans {c'' : FrrConfig} (h : Touches names addr c c')
    (h' : Touches names addr c' c'') : Touches names addr c c'' :=
  ⟨fun i hi => (h'.other i hi).trans (h.other i hi), fun hc => h'.stays (h.stays hc)⟩

theorem Touches.writeAll {l : FrrSettings} (hl : ∀ e ∈ l, PeerOwns names addr e.1) (c : FrrConfig) :
    Touches names addr c (writeAll l c) :=
  ⟨fun _ hi => writeAll_of_unwritten (fun e he heq => hi (heq.subst (hl e he))) c,
    fun hc => writeAll_isSome hc⟩

theorem Touches.clear_bfdLine (names : FrrNames) (addr : String) (c : FrrConfig) :
    Touches names addr c (clear (· = bfdLine names addr) c) := by
  refine ⟨fun i hi => if_neg ?_, fun hc => ?_⟩
  · rintro rfl
    exact hi rfl
  · rwa [clear, if_neg (by simp [bfdLine])]

theorem Touches.routerBgp (h : Touches names addr c c') :
    c' .routerBgp = c .routerBgp := h.other _ (by simp [PeerOwns, object])

def PeerIntent.linked (p : PeerIntent) (r : Reconciler) : Reconciler :=
  { r with
    peerManagedBfd := insert p.neighborAddress r.peerManagedBfd
    appliedBfd := r.appliedBfd.insert p.neighborAddress p.session }

open PeerIntent

def PeerIntent.appliedState (names : FrrNames) (p : PeerIntent) (r : Reconciler)
    (s : List (List VtyCommand)) : Reconciler :=
  let c := writeAll (p.settings names) r.frr.running
  if p.bfdEnabled then
    p.linked (r.after (writeAll (p.session.lines names ++ [(bfdLine names p.neighborAddress, [])]) c) s)
  else if p.neighborAddress ∈ r.peerManagedBfd then
    forgetPeerBfd p.neighborAddress (r.after (clear (·.session? = some (names.addr p.neighborAddress, ""))
      (clear (· = bfdLine names p.neighborAddress) c)) s)
  else r.after (clear (· = bfdLine names p.neighborAddress) c) s

/-- The state after an application that did not come to its end: some lines of the neighbor
changed, and the BFD session may stand already. -/
def PeerIntent.HalfApplied (names : FrrNames) (p : PeerIntent) (r r' : Reconciler) : Prop :=
  ∃ c s, Touches names p.neighborAddress r.frr.running c ∧
    (r' = r.after c s ∨ p.bfdEnabled = true ∧
      (∃ n, r.frr.fails n ((setNeighborBfd p.neighborAddress true).commands r.frr.localAs) = true) ∧
        r' = p.linked (r.after (writeAll (p.session.lines names) c) s))

theorem forM_callFrr_outcome {α : Type} {context : α → String} {q : α → FrrRequest}
    {lines : α → FrrSettings} {l : List α} (hq : ∀ a ∈ l, (q a).Does names (writeAll (lines a)))
    (hl : ∀ a ∈ l, ∀ e ∈ lines a, PeerOwns names addr e.1) (hr : r.Ready) :
    Outcome (forM l fun a => callFrr (context a) (send names (q a))) r
      (fun r' => ∃ s, r' = r.after (writeAll (l.flatMap lines) r.frr.running) s)
      fun r' => (∃ a ∈ l, ¬ (q a).Succeeds r.frr) ∧
        ∃ c s, Touches names addr r.frr.running c ∧ r' = r.after c s := by
  -- the turns done so far have written their lines
  have hloop := outcome_forM (x := fun a => callFrr (context a) (send names (q a))) (l := l)
    (s := r) (E := fun r' => (∃ a ∈ l, ¬ (q a).Succeeds r.frr) ∧
        ∃ c s, Touches names addr r.frr.running c ∧ r' = r.after c s)
    (I := fun rest r' => ∃ done s, done ++ rest = l ∧
      r' = r.after (writeAll (done.flatMap lines) r.frr.running) s) ?_ ⟨[], r.frr.sent, rfl, rfl⟩
  · refine hloop.imp ?_ fun _ h => h
    rintro r' ⟨done, s, hdone, rfl⟩
    rw [append_nil] at hdone
    exact ⟨s, by rw [hdone]⟩
  · rintro a rest r' ⟨done, s, hdone, rfl⟩
    have ha : a ∈ l := by simp [← hdone]
    have howns : ∀ e ∈ done.flatMap lines, PeerOwns names addr e.1 := by
      rw [forall_mem_flatMap]
      exact fun b hb => hl b (by simp [← hdone, hb])
    have htouch := writeAll howns r.frr.running
    refine callFrr_outcome (hq a ha) (hr.after htouch.routerBgp s) (fun _ s' => ?_) fun hfail s' => ?_
    · refine ⟨done ++ [a], s', by simp [← hdone], ?_⟩
      rw [flatMap_append, writeAll_append, flatMap_singleton]
      rfl
    · exact ⟨⟨a, ha, hfail⟩, _, s', htouch, rfl⟩

theorem isAddress_of_addNeighbor
    (h : (addNeighbor p.neighborAddress p.remoteAs p.keepalive p.holdTime p.neighborConfig).Ok as) :
    IsAddress p.neighborAddress :=
  validateIpAddress_ok_iff.mp (firstError_eq_none.mp h _ mem_cons_self)

theorem addNeighbor_valid (hp : p.Valid) (has : as ≠ 0) :
    (addNeighbor p.neighborAddress p.remoteAs p.keepalive p.holdTime p.neighborConfig).Ok as :=
  addNeighbor_ok has hp.1 hp.2.1 hp.2.2.1 hp.2.2.2

theorem PeerIntent.session_object (p : PeerIntent) : ∀ e ∈ p.session.lines names, e.1 ≠ .routerBgp := by
  intro e he heq
  have hobj : e.1.object = .session (names.addr p.neighborAddress) :=
    bfdOwns_of_session (p.session.owns_lines names e he)
  rw [heq] at hobj
  simp [object] at hobj

theorem linkPeerBfd_outcome (hr : r.Ready) :
    Outcome (linkPeerBfd names p) r
      (fun r' => ∃ s, r' = p.linked (r.after (writeAll
        (p.session.lines names ++ [(bfdLine names p.neighborAddress, [])]) r.frr.running) s))
      fun r' => ∃ s,
        r' = r.after r.frr.running s ∧ ¬ (r.Quiet ∧ IsAddress p.neighborAddress) ∨
        r' = p.linked (r.after (writeAll (p.session.lines names) r.frr.running) s) ∧
          (IsAddress p.neighborAddress → ∃ n, r.frr.fails n
            ((setNeighborBfd p.neighborAddress true).commands r.frr.localAs) = true) := by
  refine bind (callFrr_outcome (addBfdPeer_does _ _ _ _ _) hr (fun _ s => ?_)
    fun hfail s => ⟨s, .inl ⟨rfl, not_quiet hfail fun h => bfdPeer_ok rfl h (by decide)⟩⟩)
  refine bind (outcome_modify ?_)
  have hready : (p.linked (r.after (writeAll (p.session.lines names) r.frr.running) s)).Ready :=
    hr.after (writeAll_of_unwritten p.session_object _) s
  refine callFrr_outcome (setNeighborBfd_true _) hready (fun _ s' => ⟨s', ?_⟩)
    fun hfail s' => ⟨s', .inr ⟨rfl, fun haddr => ?_⟩⟩
  · rw [writeAll_append]
    rfl
  · by_contra hquiet
    exact hfail ⟨checksAddress_ok rfl haddr, fun n => Bool.eq_false_iff.mpr fun hn => hquiet ⟨n, hn⟩⟩

theorem unlinkPeerBfd_outcome (hr : r.Ready) :
    Outcome (unlinkPeerBfd names p) r
      (fun r' => ∃ s, r' =
        if p.neighborAddress ∈ r.peerManagedBfd then
          forgetPeerBfd p.neighborAddress (r.after
            (clear (·.session? = some (names.addr p.neighborAddress, ""))
              (clear (· = bfdLine names p.neighborAddress) r.frr.running)) s)
        else r.after (clear (· = bfdLine names p.neighborAddress) r.frr.running) s)
      fun r' => ¬ (r.Quiet ∧ IsAddress p.neighborAddress) ∧ ∃ c s,
        Touches names p.neighborAddress r.frr.running c ∧ r' = r.after c s := by
  have htouch := clear_bfdLine names p.neighborAddress r.frr.running
  refine bind (callFrr_outcome (setNeighborBfd_false _) hr (fun _ s => ?_)
    fun hfail s => ⟨not_quiet hfail fun h => checksAddress_ok rfl h, _, s, refl _ _, rfl⟩)
  refine outcome_get_bind (outcome_if (fun hm => ?_) fun hm => ?_)
  · refine bind (callFrr_outcome (removeBfdPeer_does _ _) (hr.after htouch.routerBgp s)
      (fun _ s' => ?_) fun hfail s' =>
        ⟨not_quiet hfail fun h => bfdPeer_ok rfl h (by decide), _, s', htouch, rfl⟩)
    refine outcome_modify ⟨s', ?_⟩
    exact (if_pos hm).symm
  · exact outcome_pure ⟨s, (if_neg hm).symm⟩

theorem PeerIntent.neighborLines_owns (names : FrrNames) (p : PeerIntent) :
    ∀ e ∈ neighborLines names p.neighborAddress p.remoteAs p.keepalive p.holdTime p.neighborConfig,
      PeerOwns names p.neighborAddress e.1 :=
  forall_mem_neighborLines fun _ _ _ => rfl

theorem PeerIntent.activate_owns (names : FrrNames) (p : PeerIntent) (afi : String) :
    ∀ e ∈ familyLines (activateLines names p.neighborAddress) afi,
      PeerOwns names p.neighborAddress e.1 :=
  forall_mem_familyLines (by simp [activateLines, PeerOwns, object]) afi

theorem PeerIntent.maxPrefix_owns (names : FrrNames) (p : PeerIntent) (afi : String) :
    ∀ e ∈ familyLines (maxPrefixLines names p.neighborAddress p.maxPfx) afi,
      PeerOwns names p.neighborAddress e.1 :=
  forall_mem_familyLines (by simp [maxPrefixLines, PeerOwns, object]) afi

theorem applyPeerIntent_settings (hr : r.Ready) {Q E : Reconciler → Prop}
    (hearly : ∀ c s, ¬ (r.Quiet ∧ p.Valid) → Touches names p.neighborAddress r.frr.running c →
      E (r.after c s))
    (hbfd : IsAddress p.neighborAddress → ∀ s, Outcome
      (if p.bfdEnabled then linkPeerBfd names p else unlinkPeerBfd names p)
      (r.after (writeAll (p.settings names) r.frr.running) s) Q E) :
    Outcome (applyPeerIntent names p) r Q E := by
  refine bind (callFrr_outcome (addNeighbor_does _ _ _ _ _) hr (fun hok s => ?_)
    fun hfail s => hearly _ s (not_quiet hfail fun h => addNeighbor_valid h hr.1) (refl _ _))
  have htouch₁ := writeAll (p.neighborLines_owns names) r.frr.running
  have hready₁ := hr.after htouch₁.routerBgp s
  refine bind ((forM_callFrr_outcome (fun afi hafi => ?_)
    (fun afi _ => p.activate_owns names afi) hready₁).imp ?_ ?_)
  · obtain ⟨af, haf⟩ := p.afiOf_mem_afiNames hafi
    rw [familyLines, haf]
    exact activateNeighborAfi_does _ haf
  · rintro _ ⟨s₂, rfl⟩
    have htouch₂ := htouch₁.trans (writeAll (forall_mem_flatMap.mpr
      fun afi (_ : afi ∈ p.afiNames) => p.activate_owns names afi) _)
    refine bind ((forM_callFrr_outcome (fun afi hafi => ?_)
      (fun afi _ => p.maxPrefix_owns names afi) (hr.after htouch₂.routerBgp s₂)).imp ?_ ?_)
    · obtain ⟨af, haf⟩ := p.afiOf_mem_afiNames hafi
      rw [familyLines, haf]
      exact setNeighborMaxPrefix_does _ _ haf
    · rintro _ ⟨s₃, rfl⟩
      have hbfd' := hbfd (isAddress_of_addNeighbor hok) s₃
      rwa [settings, writeAll_append, writeAll_append] at hbfd'
    · rintro _ ⟨⟨afi, hafi, hfail⟩, c, s', htouch, rfl⟩
      obtain ⟨af, haf⟩ := p.afiOf_mem_afiNames hafi
      exact hearly c s' (not_quiet hfail fun h => neighborAfi_ok rfl h.1 haf) (htouch₂.trans htouch)
  · rintro _ ⟨⟨afi, hafi, hfail⟩, c, s', htouch, rfl⟩
    obtain ⟨af, haf⟩ := p.afiOf_mem_afiNames hafi
    exact hearly c s' (not_quiet hfail fun h => neighborAfi_ok rfl h.1 haf) (htouch₁.trans htouch)

theorem applyPeerIntent_outcome (hr : r.Ready) :
    Outcome (applyPeerIntent names p) r
      (fun r' => IsAddress p.neighborAddress ∧ ∃ s, r' = p.appliedState names r s)
      fun r' => ¬ (r.Quiet ∧ p.Valid) ∧ p.HalfApplied names r r' := by
  refine applyPeerIntent_settings hr
    (fun c s hfail htouch => ⟨hfail, c, s, htouch, .inl rfl⟩) fun haddr s => ?_
  have htouch := writeAll (p.owns_settings names) r.frr.running
  have hready := hr.after htouch.routerBgp s
  refine outcome_if (fun hbfd => ?_) fun hbfd => ?_
  · refine (linkPeerBfd_outcome hready).imp ?_ ?_
    · rintro _ ⟨s', rfl⟩
      exact ⟨haddr, s', by rw [appliedState, if_pos hbfd]; rfl⟩
    · rintro _ ⟨s', ⟨rfl, hfail⟩ | ⟨rfl, hfail⟩⟩
      · exact ⟨fun h => hfail ⟨h.1, h.2.1⟩, _, s', htouch, .inl rfl⟩
      · obtain ⟨n, hn⟩ := hfail haddr
        exact ⟨fun h => Bool.noConfusion ((h.1 n _).symm.trans hn), _, s', htouch,
          .inr ⟨hbfd, ⟨n, hn⟩, rfl⟩⟩
  · refine (unlinkPeerBfd_outcome hready).imp ?_ ?_
    · rintro _ ⟨s', rfl⟩
      exact ⟨haddr, s', by rw [appliedState, if_neg hbfd]; rfl⟩
    · rintro _ ⟨hfail, c, s', htouch', rfl⟩
      exact ⟨fun h => hfail ⟨h.1, h.2.1⟩, c, s', htouch.trans htouch', .inl rfl⟩

def PeerIntent.Unlinked (names : FrrNames) (p : PeerIntent) (r : Reconciler) (c : FrrConfig) :
    Prop :=
  if p.neighborAddress ∈ r.peerManagedBfd then
    c = clear (·.session? = some (names.addr p.neighborAddress, "")) r.frr.running ∨
      c = r.frr.running ∧ ¬ (removeBfdPeer p.neighborAddress "").Succeeds r.frr
  else c = r.frr.running

def PeerIntent.unlinkedState (p : PeerIntent) (r : Reconciler) (c : FrrConfig)
    (s : List (List VtyCommand)) : Reconciler :=
  let r' := if p.neighborAddress ∈ r.peerManagedBfd then forgetPeerBfd p.neighborAddress r else r
  { r' with frr := r.frr.after c s }

theorem Touches.clear_session (h : Touches names addr c c') (x : String × String) :
    Touches names addr (clear (·.session? = some x) c) (clear (·.session? = some x) c') := by
  refine ⟨fun i hi => ?_, fun hc => ?_⟩
  · unfold clear
    rw [h.other i hi]
  · rw [clear, if_neg (by simp [session?])] at hc ⊢
    exact h.stays hc

theorem Touches.clear_neighbor (h : Touches names addr c c') :
    clear (·.object = .neighbor (names.addr addr)) c' =
      clear (·.object = .neighbor (names.addr addr)) c := by
  funext i
  by_cases hi : i.object = .neighbor (names.addr addr)
  · simp [clear, hi]
  · simp [clear, hi, h.other i hi]

theorem clear_session_other {iface : String} (hi : ¬ BfdOwns names addr i) (c : FrrConfig) :
    clear (·.session? = some (names.addr addr, iface)) c i = c i :=
  if_neg fun h => hi (bfdOwns_of_session h)

theorem PeerIntent.Unlinked.other (h : p.Unlinked names r c)
    (hi : ¬ BfdOwns names p.neighborAddress i) : c i = r.frr.running i := by
  unfold Unlinked at h
  split_ifs at h
  · rcases h with rfl | ⟨rfl, -⟩
    · exact clear_session_other hi _
    · rfl
  · rw [h]

theorem PeerIntent.Unlinked.routerBgp (h : p.Unlinked names r c) :
    c .routerBgp = r.frr.running .routerBgp := h.other (by simp [BfdOwns, object])

theorem removeNeighbor_outcome {Q E : Reconciler → Prop} (hr : r.Ready) (s : VtyBatches)
    (hc : p.Unlinked names r c) (htouch : Touches names p.neighborAddress c c')
    (hok : ∀ s, Q (p.unlinkedState r (clear (·.object = .neighbor (names.addr p.neighborAddress)) c) s))
    (herr : ¬ (r.Quiet ∧ IsAddress p.neighborAddress) → ∀ s, E (p.unlinkedState r c' s)) :
    Outcome (callFrr ("remove neighbor " ++ p.neighborAddress)
        (send names (removeNeighbor p.neighborAddress))) (p.unlinkedState r c' s) Q E := by
  have hready : (p.unlinkedState r c' s).Ready :=
    ⟨hr.1, (htouch.routerBgp.trans hc.routerBgp).trans hr.2⟩
  refine callFrr_outcome (removeNeighbor_does _) hready (fun _ s' => ?_)
    fun hfail s' => herr (not_quiet (r := r) hfail fun h => checksAddress_ok rfl h) s'
  have hgone := hok s'
  rwa [← htouch.clear_neighbor] at hgone

theorem removePeer_outcome (hr : r.Ready) :
    Outcome (removePeer names p) r
      (fun r' => ∃ c s, p.Unlinked names r c ∧ r' =
        p.unlinkedState r (clear (·.object = .neighbor (names.addr p.neighborAddress)) c) s)
      fun r' => ¬ (r.Quiet ∧ IsAddress p.neighborAddress) ∧ ∃ c c' s, p.Unlinked names r c ∧
        Touches names p.neighborAddress c c' ∧ r' = p.unlinkedState r c' s := by
  refine outcome_get_bind (outcome_if (fun hm => ?_) fun hm => ?_)
  · -- the neighbor may or may not have stopped using BFD
    have hsession : ∀ {c} s, Touches names p.neighborAddress r.frr.running c →
        Outcome (tryFrr (send names (removeBfdPeer p.neighborAddress ""))) (r.after c s)
          (fun r' => ∃ c c' s, p.Unlinked names r c ∧ Touches names p.neighborAddress c c' ∧
            r' = r.after c' s) fun _ => False := by
      intro c s htouch
      refine tryFrr_outcome (removeBfdPeer_does _ _) (hr.after htouch.routerBgp s)
        (fun _ s' => ⟨_, _, s', ?_, htouch.clear_session _, rfl⟩)
        fun hfail s' => ⟨_, c, s', ?_, htouch, rfl⟩
      · rw [PeerIntent.Unlinked, if_pos hm]
        exact .inl rfl
      · rw [PeerIntent.Unlinked, if_pos hm]
        exact .inr ⟨rfl, hfail⟩
    have hforget : ∀ c s, forgetPeerBfd p.neighborAddress (r.after c s) = p.unlinkedState r c s := by
      intro c s
      simp only [unlinkedState, if_pos hm]
      rfl
    have hunset : Outcome (tryFrr (send names (setNeighborBfd p.neighborAddress false))) r
        (fun r' => ∃ c s, Touches names p.neighborAddress r.frr.running c ∧ r' = r.after c s)
        fun _ => False :=
      tryFrr_outcome (setNeighborBfd_false _) hr
        (fun _ s => ⟨_, s, clear_bfdLine names _ _, rfl⟩)
        fun _ s => ⟨_, s, refl _ _, rfl⟩
    refine bind (hunset.imp ?_ fun _ h => h.elim)
    rintro _ ⟨c, s, htouch, rfl⟩
    refine bind ((hsession s htouch).imp ?_ fun _ h => h.elim)
    rintro _ ⟨c, c', s', hc, htouch', rfl⟩
    refine bind (outcome_modify ?_)
    rw [hforget]
    exact removeNeighbor_outcome hr s' hc htouch' (fun s => ⟨c, s, hc, rfl⟩)
      fun hfail s => ⟨hfail, c, c', s, hc, htouch', rfl⟩
  · have hsame : p.unlinkedState r r.frr.running r.frr.sent = r := by
      simp only [unlinkedState, if_neg hm]
      rfl
    have hnone : p.Unlinked names r r.frr.running := by
      rw [PeerIntent.Unlinked, if_neg hm]
    exact (congrArg (Outcome _ · _ _) hsame).mp (removeNeighbor_outcome hr r.frr.sent hnone
      (refl _ _) (fun s => ⟨_, s, hnone, rfl⟩) fun hfail s => ⟨hfail, _, _, s, hnone, refl _ _, rfl⟩)

/-- What a turn at a peer leaves alone: the lines of other things, and all records but those
of BFD. -/
structure PeerTurn (names : FrrNames) (addr : String) (r r' : Reconciler) : Prop where
  client : ∃ c s, r'.frr = r.frr.after c s
  other : ∀ i, ¬ PeerOwns names addr i → ¬ BfdOwns names addr i → r'.frr.running i = r.frr.running i
  books : r' = { r with
    frr := r'.frr, peerManagedBfd := r'.peerManagedBfd, appliedBfd := r'.appliedBfd }

open PeerTurn

def HasNeighbor (names : FrrNames) (c : FrrConfig) (addr : String) : Prop :=
  (c (.neighbor (names.addr addr) .remoteAs)).isSome = true

theorem PeerTurn.after {s : VtyBatches} (hfrr : r'.frr = r.frr.after c s)
    (hc : ∀ i, ¬ PeerOwns names addr i → ¬ BfdOwns names addr i → c i = r.frr.running i)
    (hbooks : r' = { r with
      frr := r'.frr, peerManagedBfd := r'.peerManagedBfd, appliedBfd := r'.appliedBfd }) :
    PeerTurn names addr r r' :=
  ⟨⟨c, s, hfrr⟩, fun i hi hi' => by rw [hfrr]; exact hc i hi hi', hbooks⟩

theorem PeerTurn.exists_eq (h : PeerTurn names addr r r') :
    ∃ c s managed bfd, r' = { r with
      frr := r.frr.after c s, peerManagedBfd := managed, appliedBfd := bfd } := by
  obtain ⟨c, s, hfrr⟩ := h.client
  exact ⟨c, s, _, _, h.books.trans (by rw [hfrr])⟩

theorem session_unwritten (hi : ¬ BfdOwns names p.neighborAddress i) (c : FrrConfig) :
    writeAll (p.session.lines names) c i = c i :=
  writeAll_of_unwritten (fun e he heq =>
    hi (heq.subst (bfdOwns_of_session (p.session.owns_lines names e he)))) c

theorem PeerIntent.appliedState_turn (names : FrrNames) (p : PeerIntent) (r : Reconciler)
    (s : VtyBatches) : PeerTurn names p.neighborAddress r (p.appliedState names r s) ∧
      HasNeighbor names (p.appliedState names r s).frr.running p.neighborAddress := by
  have htouch := writeAll (p.owns_settings names) r.frr.running
  have hset : HasNeighbor names (writeAll (p.settings names) r.frr.running) p.neighborAddress := by
    unfold HasNeighbor
    rw [writeAll_apply, Option.isSome_or, p.written_remoteAs names, Bool.true_or]
  have hunlink := htouch.trans (clear_bfdLine names p.neighborAddress _)
  have hunset := (clear_bfdLine names p.neighborAddress
    (writeAll (p.settings names) r.frr.running)).stays hset
  unfold appliedState
  dsimp only
  split_ifs with hbfd hm
  · refine ⟨after rfl (fun i hi hi' => ?_) rfl, ?_⟩
    · rw [writeAll_append, writeAll_of_unwritten, session_unwritten hi']
      · exact htouch.other i hi
      · rintro _ he rfl
        rw [List.mem_singleton.mp he] at hi
        exact hi rfl
    · exact writeAll_isSome hset
  · refine ⟨after rfl (fun i hi hi' => ?_) rfl, ?_⟩
    · rw [clear_session_other hi']
      exact hunlink.other i hi
    · exact hunset
  · exact ⟨after rfl (fun i hi _ => hunlink.other i hi) rfl, hunset⟩

theorem PeerIntent.HalfApplied.turn (h : p.HalfApplied names r r') :
    PeerTurn names p.neighborAddress r r' ∧
      (HasNeighbor names r.frr.running p.neighborAddress →
        HasNeighbor names r'.frr.running p.neighborAddress) := by
  obtain ⟨c, s, htouch, rfl | ⟨-, -, rfl⟩⟩ := h
  · exact ⟨after rfl (fun i hi _ => htouch.other i hi) rfl, htouch.stays⟩
  · refine ⟨after rfl (fun i hi hi' => ?_) rfl, fun hc => ?_⟩
    · rw [session_unwritten hi']
      exact htouch.other i hi
    · exact writeAll_isSome (htouch.stays hc)

theorem PeerIntent.unlinkedState_turn (hc : p.Unlinked names r c)
    (hc' : ∀ i, ¬ PeerOwns names p.neighborAddress i → c' i = c i) (s : VtyBatches) :
    PeerTurn names p.neighborAddress r (p.unlinkedState r c' s) := by
  refine after rfl (fun i hi hi' => (hc' i hi).trans (hc.other hi')) ?_
  unfold unlinkedState
  dsimp only
  split_ifs <;> rfl

end Peers

section Prefixes

variable {names : FrrNames}

def InRouteMap (pfx : String) (i : FrrLine) : Prop := i.object = .routeMap (routeMapName pfx)

def Loses (pfx : String) (c c' : FrrConfig) : Prop :=
  ∀ i, c' i = c i ∨ InRouteMap pfx i ∧ c' i = none

theorem Loses.refl (pfx : String) (c : FrrConfig) : Loses pfx c c := fun _ => .inl rfl

variable {p : PrefixIntent} {r : Reconciler} {old : Option PrefixIntent} {c c' : FrrConfig}
  {pfx : String}

theorem Loses.trans {c'' : FrrConfig} (h : Loses pfx c c') (h' : Loses pfx c' c'') :
    Loses pfx c c'' := fun i =>
  (h' i).elim (fun heq => heq ▸ h i) .inr

theorem Loses.clear_routeMap (pfx : String) (c : FrrConfig) :
    Loses pfx c (clear (·.object = .routeMap (routeMapName pfx)) c) := by
  intro i
  by_cases hi : i.object = .routeMap (routeMapName pfx)
  · exact .inr ⟨hi, if_pos hi⟩
  · exact .inl (if_neg hi)

theorem Loses.other (h : Loses pfx c c') {i : FrrLine} (hi : ¬ InRouteMap pfx i) : c' i = c i :=
  (h i).resolve_right fun hin => hi hin.1

theorem Loses.routerBgp (h : Loses pfx c c') :
    c' .routerBgp = c .routerBgp := h.other (by simp [InRouteMap, object])

theorem vtySafe_routeMapName (h : VtySafe pfx) : VtySafe (routeMapName pfx) := by
  intro r hr
  rw [routeMapName, String.toList_append, mem_append] at hr
  rcases hr with hr | hr
  · exact (show VtySafe "NR-PFX-" by decide) r hr
  · rw [String.toList_ofList, List.mem_map] at hr
    obtain ⟨r', hr', rfl⟩ := hr
    by_cases hsep : r' = '/' ∨ r' = ':'
    · rw [if_pos hsep]
      decide
    · rw [if_neg hsep]
      exact h r' hr'

theorem dropRouteMap_outcome (hr : r.Ready) :
    Outcome (dropRouteMap names p) r
      (fun r' => ∃ c s, Loses p.pfx r.frr.running c ∧
        (r.Quiet → VtySafe p.pfx → p.HasAttributes → ∀ i, InRouteMap p.pfx i → c i = none) ∧
        r' = r.after c s)
      fun _ => False := by
  refine outcome_if (fun _ => ?_) fun ha => ?_
  · refine tryFrr_outcome (removeRouteMap_does _) hr
      (fun _ s => ⟨_, s, Loses.clear_routeMap _ _, fun _ _ _ i hi => if_pos hi, rfl⟩)
      fun hfail s => ⟨_, s, Loses.refl _ _, fun hquiet hsafe => ?_, rfl⟩
    refine absurd (hquiet.succeeds ?_) hfail
    exact sanitized_ok [("frr: remove route-map: name", routeMapName p.pfx)] rfl
      (by simpa using vtySafe_routeMapName hsafe)
  · exact outcome_pure ⟨_, r.frr.sent, Loses.refl _ _, fun _ _ ha' => absurd ha' ha, rfl⟩

theorem PrefixIntent.lines_of_bgp (hbgp : p.protocol = .bgp) :
    p.lines names = p.mapLines ++ [(p.networkLine names,
      if p.HasAttributes then ["route-map", routeMapName p.pfx] else [])] := by
  rw [lines, if_neg (not_not.mpr hbgp)]

open PrefixIntent

theorem advertisePrefixIntent_outcome (hbgp : p.protocol = .bgp) (hr : r.Ready) :
    Outcome (advertisePrefixIntent names p) r
      (fun r' => ∃ c s, Loses p.pfx r.frr.running c ∧
        (p.HasAttributes → ∀ i, InRouteMap p.pfx i → c i = none) ∧
        r' = r.after (writeAll (p.lines names) c) s)
      fun r' => ¬ (r.Quiet ∧ p.Valid) ∧ ∃ c s,
        (∀ i, ¬ InRouteMap p.pfx i → c i = r.frr.running i) ∧ r' = r.after c s := by
  have hafi := afiOf_detectAfi p.pfx
  refine outcome_if (fun ha => ?_) fun ha => ?_
  · have hother : ∀ i, ¬ InRouteMap p.pfx i →
        writeAll (routeMapLines (routeMapName p.pfx) p.setCmds)
          (clear (·.object = .routeMap (routeMapName p.pfx)) r.frr.running) i =
        r.frr.running i := by
      intro i hi
      rw [writeAll_of_unwritten fun e he heq => hi (heq.subst (routeMapLines_object _ _ e he))]
      exact if_neg hi
    refine bind (callFrr_outcome (configureRouteMap_does _ _) hr (fun _ s => ?_)
      fun hfail s => ⟨not_quiet hfail fun h => ?_, _, s, fun _ _ => rfl, rfl⟩)
    · refine callFrr_outcome (advertiseNetworkWithRouteMap_does _ _ hafi)
        (hr.after (hother _ (by simp [InRouteMap, object])) s) (fun _ s' => ?_)
        fun hfail s' => ⟨not_quiet hfail fun h => ?_, _, s', hother, rfl⟩
      · refine ⟨_, s', Loses.clear_routeMap p.pfx _, fun _ i hi => if_pos hi, ?_⟩
        rw [lines_of_bgp hbgp, mapLines, if_pos ha, if_pos ha, writeAll_append]
        rfl
      · have hsafe := (h.2 hbgp).1
        refine firstError_eq_none.mpr ?_
        simpa [advertiseNetworkWithRouteMap, sanitizeVtyParam_ok_iff, resolveAfiCli_ok_iff, hafi]
          using ⟨hsafe, vtySafe_routeMapName hsafe⟩
    · obtain ⟨hsafe, hcmds⟩ := h.2 hbgp
      exact configureRouteMap_ok_iff.mpr ⟨vtySafe_routeMapName hsafe, hcmds⟩
  · refine callFrr_outcome (advertiseNetwork_does _ hafi) hr
      (fun _ s => ⟨_, s, Loses.refl _ _, fun h => absurd h ha, ?_⟩)
      fun hfail s => ⟨not_quiet hfail fun h => ?_, _, s, fun _ _ => rfl, rfl⟩
    · rw [lines_of_bgp hbgp, mapLines, if_neg ha, if_neg ha]
      rfl
    · refine firstError_eq_none.mpr ?_
      simpa [advertiseNetwork, sanitizeVtyParam_ok_iff, resolveAfiCli_ok_iff, hafi] using (h.2 hbgp).1

theorem PrefixIntent.lines_of_not_bgp (hbgp : p.protocol ≠ .bgp) : p.lines names = [] := if_pos hbgp

theorem dropOld_outcome (hold : ∀ q ∈ old, q.key = p.key) (hr : r.Ready) :
    Outcome (forM old.toList fun q : PrefixIntent =>
        if q.protocol = .bgp then dropRouteMap names q else pure () : RoutingCall) r
      (fun r' => ∃ c s, Loses p.pfx r.frr.running c ∧
        ((p.protocol ≠ .bgp → c = r.frr.running) ∧
          (p.protocol = .bgp → r.Quiet → VtySafe p.pfx → (∃ q ∈ old, q.HasAttributes) →
            ∀ i, InRouteMap p.pfx i → c i = none)) ∧
        r' = r.after c s)
      fun _ => False := by
  cases old with
  | none => exact outcome_pure ⟨_, r.frr.sent, Loses.refl _ _, ⟨fun _ => rfl, by simp⟩, rfl⟩
  | some q =>
    have hkey := hold q rfl
    have hpfx : q.pfx = p.pfx := congrArg Prod.snd hkey
    have hproto : q.protocol = p.protocol := congrArg Prod.fst hkey
    rw [Option.toList_some, forM_cons]
    refine bind (outcome_if (fun hbgp => ?_) fun hbgp => ?_)
    · refine (dropRouteMap_outcome hr).imp ?_ fun _ h => h
      rintro _ ⟨c, s, hloses, hgone, rfl⟩
      rw [hpfx] at hloses hgone
      exact outcome_pure ⟨c, s, hloses,
        ⟨fun h => absurd (hproto.symm.trans hbgp) h, fun _ => by simpa using hgone⟩, rfl⟩
    · exact outcome_pure (outcome_pure ⟨_, r.frr.sent, Loses.refl _ _,
        ⟨fun _ => rfl, fun h => absurd (hproto.trans h) hbgp⟩, rfl⟩)

theorem replacePrefixIntent_outcome (hold : ∀ q ∈ old, q.key = p.key) (hr : r.Ready) :
    Outcome (replacePrefixIntent names old p) r
      (fun r' => ∃ c s, Loses p.pfx r.frr.running c ∧
        ((p.protocol ≠ .bgp → c = r.frr.running) ∧
          (p.protocol = .bgp → r.Quiet → p.Valid →
            (p.HasAttributes ∨ ∃ q ∈ old, q.HasAttributes) →
            ∀ i, InRouteMap p.pfx i → c i = none)) ∧
        r' = r.after (writeAll (p.lines names) c) s)
      fun r' => ¬ (r.Quiet ∧ p.Valid) ∧ ∃ c s,
        (∀ i, ¬ InRouteMap p.pfx i → c i = r.frr.running i) ∧ r' = r.after c s := by
  refine bind ((dropOld_outcome hold hr).imp ?_ fun _ h => h.elim)
  rintro _ ⟨c, s, hloses, ⟨hkept, hgone⟩, rfl⟩
  have hready := hr.after hloses.routerBgp s
  unfold applyPrefixIntent
  cases hproto : p.protocol with
  | bgp =>
    refine (advertisePrefixIntent_outcome hproto hready).imp ?_ ?_
    · rintro _ ⟨c', s', hloses', hgone', rfl⟩
      refine ⟨c', s', hloses.trans hloses',
        ⟨fun h => absurd rfl h, fun _ hquiet hvalid hattrs i hi => ?_⟩, rfl⟩
      rcases hattrs with ha | hold
      · exact hgone' ha i hi
      · have hnone := hgone hproto hquiet (hvalid.2 hproto).1 hold i hi
        exact (hloses' i).elim (fun heq => heq.trans hnone) fun h => h.2
    · rintro _ ⟨hfail, c', s', hother, rfl⟩
      exact ⟨hfail, c', s', fun i hi => (hother i hi).trans (hloses.other hi), rfl⟩
  | ospf =>
    refine outcome_pure ⟨c, s, hloses,
      ⟨fun _ => hkept (by rw [hproto]; decide), fun h => absurd h (by decide)⟩, ?_⟩
    rw [lines_of_not_bgp (by simp [hproto])]
    rfl
  | unspecified =>
    exact outcome_throw ⟨fun h => h.2.1 hproto, c, s, fun i hi => hloses.other hi, rfl⟩

theorem removePrefixFromFrr_outcome (hr : r.Ready) :
    Outcome (removePrefixFromFrr names p) r
      (fun r' => ∃ c s,
        Loses p.pfx (clear (fun i => p.protocol = .bgp ∧ i = p.networkLine names) r.frr.running) c ∧
        ((p.protocol ≠ .bgp → c = r.frr.running) ∧
          (p.protocol = .bgp → r.Quiet → p.Valid → p.HasAttributes →
            ∀ i, InRouteMap p.pfx i → c i = none)) ∧
        r' = r.after c s)
      fun r' => ¬ (r.Quiet ∧ p.Valid) ∧ ∃ s, r' = r.after r.frr.running s := by
  unfold removePrefixFromFrr
  cases hproto : p.protocol with
  | bgp =>
    have hnet : clear (fun i => RouteProtocol.bgp = .bgp ∧ i = p.networkLine names) r.frr.running =
        clear (· = p.networkLine names) r.frr.running := by
      funext i
      simp [clear]
    rw [hnet]
    refine bind (callFrr_outcome (withdrawNetwork_does _ (afiOf_detectAfi p.pfx)) hr
      (fun _ s => ?_) fun hfail s => ⟨not_quiet hfail fun h => ?_, s, rfl⟩)
    · refine (dropRouteMap_outcome (hr.after (if_neg (by simp)) s)).imp ?_ fun _ h => h.elim
      rintro _ ⟨c, s', hloses, hgone, rfl⟩
      exact ⟨c, s', hloses, ⟨fun h => absurd rfl h,
        fun _ hquiet hvalid => hgone hquiet (hvalid.2 hproto).1⟩, rfl⟩
    · refine firstError_eq_none.mpr ?_
      simpa [withdrawNetwork, sanitizeVtyParam_ok_iff, resolveAfiCli_ok_iff, afiOf_detectAfi]
        using (h.2 hproto).1
  | ospf =>
    have hnet : clear (fun i => RouteProtocol.ospf = .bgp ∧ i = p.networkLine names)
        r.frr.running = r.frr.running := by
      funext i
      simp [clear]
    rw [hnet]
    exact outcome_pure ⟨_, r.frr.sent, Loses.refl _ _,
      ⟨fun _ => rfl, fun h => absurd h (by decide)⟩, rfl⟩
  | unspecified => exact outcome_throw ⟨fun h => h.2.1 hproto, r.frr.sent, rfl⟩

end Prefixes

section Sessions

variable {names : FrrNames}

variable {r : Reconciler} {o : OspfIntent} {b : BfdIntent}

theorem applyBfdIntent_outcome (hr : r.Ready) :
    Outcome (applyBfdIntent names b) r
      (fun r' => ∃ s, r' = r.after (writeAll (b.lines names) r.frr.running) s)
      fun r' => ¬ (r.Quiet ∧ b.Valid) ∧ ∃ s, r' = r.after r.frr.running s :=
  callFrr_outcome (addBfdPeer_does _ _ _ _ _) hr (fun _ s => ⟨s, rfl⟩) fun hfail s =>
    ⟨not_quiet hfail fun h => bfdPeer_ok rfl h.1 h.2, s, rfl⟩

theorem removeBfdFromFrr_outcome (hr : r.Ready) :
    Outcome (removeBfdFromFrr names b) r
      (fun r' => ∃ s, r' = r.after
        (clear (·.session? = some (names.addr b.peerAddress, b.interfaceName)) r.frr.running) s)
      fun r' => ¬ (r.Quiet ∧ b.Valid) ∧ ∃ s, r' = r.after r.frr.running s :=
  callFrr_outcome (removeBfdPeer_does _ _) hr (fun _ s => ⟨s, rfl⟩) fun hfail s =>
    ⟨not_quiet hfail fun h => bfdPeer_ok rfl h.1 h.2, s, rfl⟩

theorem OspfIntent.enableRequest_does (o : OspfIntent) :
    o.enableRequest.Does names (writeAll o.lines) := by
  unfold enableRequest lines
  cases o.ipv6 with
  | false => exact enableOspfInterface_does _ _ _ _ _ _
  | true => exact enableOspfv3Interface_does _ _ _ _

theorem OspfIntent.disableRequest_does (o : OspfIntent) :
    o.disableRequest.Does names (clear fun l => l = .ospf o.ipv6 o.interfaceName .area ∨
      o.passive = true ∧ l = .ospf o.ipv6 o.interfaceName .passive) := by
  unfold disableRequest
  cases o.ipv6 with
  | false | true => exact ospfRequest_does_unset _ _ _ _ _

theorem OspfIntent.requests_ok (ho : o.Valid) (as : Nat) :
    o.enableRequest.Ok as ∧ o.disableRequest.Ok as := by
  obtain ⟨hiface, harea⟩ := ho
  unfold enableRequest disableRequest
  cases o.ipv6 with
  | false | true =>
    constructor <;> exact sanitized_ok [(_, o.interfaceName), (_, o.areaId)] rfl
      (by simpa using ⟨hiface, harea⟩)

theorem applyOspfIntent_outcome (hr : r.Ready) :
    Outcome (applyOspfIntent names o) r
      (fun r' => ∃ s, r' = r.after (writeAll o.lines r.frr.running) s)
      fun r' => ¬ (r.Quiet ∧ o.Valid) ∧ ∃ s, r' = r.after r.frr.running s :=
  callFrr_outcome o.enableRequest_does hr (fun _ s => ⟨s, rfl⟩) fun hfail s =>
    ⟨not_quiet hfail fun h => (OspfIntent.requests_ok h _).1, s, rfl⟩

theorem removeOspfFromFrr_outcome (hr : r.Ready) :
    Outcome (removeOspfFromFrr names o) r
      (fun r' => ∃ s, r' = r.after (clear (fun l => l = .ospf o.ipv6 o.interfaceName .area ∨
        o.passive = true ∧ l = .ospf o.ipv6 o.interfaceName .passive) r.frr.running) s)
      fun r' => ¬ (r.Quiet ∧ o.Valid) ∧ ∃ s, r' = r.after r.frr.running s :=
  callFrr_outcome o.disableRequest_does hr (fun _ s => ⟨s, rfl⟩) fun hfail s =>
    ⟨not_quiet hfail fun h => (OspfIntent.requests_ok h _).2, s, rfl⟩

end Sessions

end NovaNet
