import NovaNet.RoutingCalls
import NovaNet.RoutingOutcomes
import NovaNet.RoutingSettled

/-! The flags of the BFD sessions that came with a peer. A flag keeps the session out of the
clean-up, so it has to go with the peer; three of the five calls do not see to that. -/

namespace NovaNet

open ErrorState Finmap KeyedConfig LastWrite Reconciler Outcome PeerIntent
open FrrClient (send)

structure PeerBooks where
  flagged : Bool
  session : Option BfdIntent
  peer : Option PeerIntent

namespace PeerBooks

def HasBfdPeer (b : PeerBooks) : Prop := ∃ p, b.peer = some p ∧ p.bfdEnabled = true

def Backed (b : PeerBooks) : Prop := b.flagged = true → b.session.isSome = true ∧ b.HasBfdPeer

end PeerBooks

open PeerBooks

/-- The batch that tells BGP to use BFD for the address fails at some time. -/
def EnablingFails (fails : VtyFaults) (addr : String) : Prop :=
  ∃ n as, fails n ((setNeighborBfd addr true).commands as) = true

namespace Reconciler

def books (r : Reconciler) (addr : String) : PeerBooks :=
  ⟨decide (addr ∈ r.peerManagedBfd), r.appliedBfd.lookup addr, r.appliedPeers.lookup addr⟩

def FlagsBacked (r : Reconciler) : Prop :=
  ∀ addr ∈ r.peerManagedBfd, addr ∈ r.appliedBfd ∧
    ∃ p, r.appliedPeers.lookup addr = some p ∧ p.bfdEnabled = true

theorem flagsBacked_iff {r : Reconciler} : r.FlagsBacked ↔ ∀ addr, (r.books addr).Backed := by
  refine forall_congr' fun addr => ?_
  simp only [PeerBooks.Backed, PeerBooks.HasBfdPeer, books, decide_eq_true_eq, lookup_isSome]

/-- The next cycle gives the running instance another AS, and forgets the applied peers. -/
def ChangesAs (r : Reconciler) : Prop :=
  r.bgpConfigured = false ∧ ∃ g, r.bgpGlobal = some g ∧ g.localAs ≠ 0 ∧ r.frr.localAs ≠ 0 ∧
    r.frr.localAs ≠ g.localAs

end Reconciler

attribute [local simp] books

section Entering

variable {names : FrrNames}

/-- The reconciler once FRR has entered the instance, which is made if there is none. -/
def Reconciler.entered (r : Reconciler) : Reconciler :=
  r.after (enterBgp r.frr.localAs r.frr.running) r.frr.sent

theorem ready_enterBgp {as : Nat} (has : as ≠ 0) (c : FrrConfig) : Ready as (enterBgp as c) := by
  refine ⟨has, ?_⟩
  rw [enterBgp, writeAll_apply, written_cons, written_nil, Option.none_or, if_pos rfl, Option.some_or]

theorem runCommands_entered {as : Nat} {c : FrrConfig} (h : AcceptsAs as c)
    (cmds : List VtyCommand) : runCommands names (.routerBgp as :: cmds) .config (enterBgp as c) =
      runCommands names (.routerBgp as :: cmds) .config c := by
  have hready := ready_enterBgp h.1 c
  rw [runCommands_routerBgp, if_pos hready.accepts, hready.enterBgp, runCommands_routerBgp, if_pos h]

theorem send_entered (names : FrrNames) {q : FrrRequest} {cmds : List VtyCommand} {f : FrrClient}
    (hq : q.commands f.localAs = .routerBgp f.localAs :: cmds) :
    (∃ e s, send names q f = .error e (f.after f.running s)) ∨
      f.localAs ≠ 0 ∧
        send names q (f.after (enterBgp f.localAs f.running) f.sent) = send names q f := by
  unfold send FrrClient.checked
  cases hcheck : firstError (q.checks f.localAs) with
  | some e => exact .inl ⟨e, f.sent, rfl⟩
  | none =>
    dsimp only
    rw [hq]
    unfold FrrClient.runConfig
    cases hfail : f.fails f.sent.length (.routerBgp f.localAs :: cmds) with
    | true => exact .inl ⟨_, _, rfl⟩
    | false =>
      rw [if_neg Bool.false_ne_true]
      cases hrun : runCommands names (.routerBgp f.localAs :: cmds) .config f.running with
      | none => exact .inl ⟨_, _, rfl⟩
      | some c =>
        have haccepts : AcceptsAs f.localAs f.running := by
          by_contra hno
          simp [runCommands_routerBgp, if_neg hno] at hrun
        refine .inr ⟨haccepts.1, ?_⟩
        simp only [FrrClient.after, hcheck, hq, hfail, Bool.false_eq_true, if_false,
          runCommands_entered haccepts, hrun]

theorem callFrr_congr {r : Reconciler} (r' : Reconciler) {x : FrrCall} (context : String)
    (hx : x r'.frr = x r.frr) (hr : ∀ f, { r' with frr := f } = { r with frr := f }) :
    callFrr context x r' = callFrr context x r := by
  unfold callFrr
  rw [hx]
  cases x r.frr with
  | ok u f | error e f => exact congrArg _ (hr f)

theorem applyPeerIntent_entered {p : PeerIntent} {r : Reconciler} {Q E : Reconciler → Prop}
    (hfail : ∀ s, E (r.after r.frr.running s))
    (hready : r.entered.Ready → Outcome (applyPeerIntent names p) r.entered Q E) :
    Outcome (applyPeerIntent names p) r Q E := by
  have hfirst : (addNeighbor p.neighborAddress p.remoteAs p.keepalive p.holdTime
      p.neighborConfig).commands r.frr.localAs = .routerBgp r.frr.localAs :: _ := rfl
  rcases send_entered names hfirst with ⟨e, s, hsend⟩ | ⟨has, hsend⟩
  · refine bind (callFrr_lift ?_)
    unfold Outcome
    rw [hsend]
    exact hfail s
  · have hsame : applyPeerIntent names p r.entered = applyPeerIntent names p r := by
      have hcall := fun context => callFrr_congr r.entered context hsend fun _ => rfl
      unfold applyPeerIntent
      change EStateM.bind _ _ _ = EStateM.bind _ _ _
      unfold EStateM.bind
      rw [hcall]
    have houtcome := hready (ready_enterBgp has _)
    unfold Outcome at houtcome ⊢
    rwa [hsame] at houtcome

end Entering

def OnlyFrr (b r : Reconciler) : Prop := ∃ f, r = { b with frr := f }

theorem OnlyFrr.ignoresFrr (b : Reconciler) : IgnoresFrr (OnlyFrr b) := by
  rintro _ f' ⟨f, rfl⟩
  exact ⟨f', rfl⟩

theorem tryFrr_onlyFrr {b r : Reconciler} (h : OnlyFrr b r) (x : FrrCall) :
    Outcome (tryFrr x) r (OnlyFrr b) fun _ => False :=
  tryFrr_lift (outcome_intro (fun _ f _ => OnlyFrr.ignoresFrr b r f h)
    fun _ f _ => OnlyFrr.ignoresFrr b r f h)

section PeerCalls

variable {names : FrrNames} {p : PeerIntent} {r : Reconciler}

def PeerIntent.bookedState (p : PeerIntent) (r : Reconciler) : Reconciler :=
  if p.bfdEnabled then p.linked r
  else if p.neighborAddress ∈ r.peerManagedBfd then forgetPeerBfd p.neighborAddress r
  else r

/-- An application that fails leaves the records alone, unless it fails at the very last call of
a peer with BFD. -/
theorem applyPeerIntent_books : Outcome (applyPeerIntent names p) r
    (fun r' => ∃ c s, r' = (p.bookedState r).after c s)
    fun r' => (∃ c s, r' = r.after c s) ∨ p.bfdEnabled = true ∧
      EnablingFails r.frr.fails p.neighborAddress ∧ ∃ c s, r' = (p.linked r).after c s := by
  refine applyPeerIntent_entered (fun s => .inl ⟨_, s, rfl⟩) fun hr =>
    (applyPeerIntent_outcome hr).imp ?_ ?_
  · rintro _ ⟨-, s, rfl⟩
    unfold appliedState bookedState
    by_cases hbfd : p.bfdEnabled = true
    · exact ⟨_, s, by rw [if_pos hbfd, if_pos hbfd]; rfl⟩
    · rw [if_neg hbfd, if_neg hbfd]
      by_cases hm : p.neighborAddress ∈ r.peerManagedBfd
      · exact ⟨_, s, by rw [if_pos hm]; exact if_pos hm⟩
      · exact ⟨_, s, by rw [if_neg hm]; exact if_neg hm⟩
  · rintro _ ⟨-, c, s, -, rfl | ⟨hbfd, ⟨n, hn⟩, rfl⟩⟩
    · exact .inl ⟨c, s, rfl⟩
    · exact .inr ⟨hbfd, ⟨n, _, hn⟩, _, s, rfl⟩

def PeerIntent.releasedState (p : PeerIntent) (r : Reconciler) : Reconciler :=
  if p.neighborAddress ∈ r.peerManagedBfd then forgetPeerBfd p.neighborAddress r else r

theorem removePeer_books : Outcome (removePeer names p) r (OnlyFrr (p.releasedState r))
    (OnlyFrr (p.releasedState r)) := by
  have hlast : Keeps (callFrr ("remove neighbor " ++ p.neighborAddress)
      (send names (removeNeighbor p.neighborAddress))) (OnlyFrr (p.releasedState r)) :=
    callFrr_keeps (OnlyFrr.ignoresFrr _) _ _
  have hself : OnlyFrr r r := ⟨r.frr, rfl⟩
  refine outcome_get_bind (outcome_if (fun hm => ?_) fun hm => ?_)
  · have hreleased : p.releasedState r = forgetPeerBfd p.neighborAddress r := if_pos hm
    refine bind ((tryFrr_onlyFrr hself _).imp (fun r₁ hr₁ => ?_) fun _ h => h.elim)
    refine bind ((tryFrr_onlyFrr hr₁ _).imp (fun r₂ hr₂ => ?_) fun _ h => h.elim)
    obtain ⟨f, rfl⟩ := hr₂
    exact bind (outcome_modify (hlast _ ⟨f, by rw [hreleased]; rfl⟩))
  · have hreleased : p.releasedState r = r := if_neg hm
    exact hlast r (by rw [hreleased]; exact hself)

end PeerCalls

section Books

variable {p : PeerIntent} {r : Reconciler} {addr : String}

theorem books_linked_ne (h : addr ≠ p.neighborAddress) : (p.linked r).books addr = r.books addr := by
  simp [linked, h]

theorem books_forgetPeerBfd_ne {k : String} (h : addr ≠ k) :
    (forgetPeerBfd k r).books addr = r.books addr := by
  simp [forgetPeerBfd, h]

theorem books_forgetPeerBfd_self (r : Reconciler) (k : String) :
    ((forgetPeerBfd k r).books k).flagged = false := by
  simp [forgetPeerBfd]

theorem books_bookedState_ne (h : addr ≠ p.neighborAddress) :
    (p.bookedState r).books addr = r.books addr := by
  unfold bookedState
  split_ifs
  · exact books_linked_ne h
  · exact books_forgetPeerBfd_ne h
  · rfl

theorem bookedState_keeps (p : PeerIntent) (r : Reconciler) :
    (p.bookedState r).appliedPeers = r.appliedPeers ∧ (p.bookedState r).frr = r.frr := by
  unfold bookedState
  split_ifs <;> exact ⟨rfl, rfl⟩

theorem books_releasedState_ne (h : addr ≠ p.neighborAddress) :
    (p.releasedState r).books addr = r.books addr := by
  unfold releasedState
  split_ifs
  · exact books_forgetPeerBfd_ne h
  · rfl

theorem books_releasedState_self (p : PeerIntent) (r : Reconciler) :
    ((p.releasedState r).books p.neighborAddress).flagged = false := by
  unfold releasedState
  split_ifs with hm
  · exact books_forgetPeerBfd_self r _
  · simpa using hm

theorem PeerBooks.backed_of_not_flagged {b : PeerBooks} (h : b.flagged = false) : b.Backed :=
  fun hflagged => Bool.noConfusion (h.symm.trans hflagged)

theorem backed_linked (h : (r.books p.neighborAddress).HasBfdPeer) :
    ((p.linked r).books p.neighborAddress).Backed := by
  refine fun _ => ⟨?_, h⟩
  simp [linked]

def Reconciler.recordPeer (p : PeerIntent) (r : Reconciler) : Reconciler :=
  { r with appliedPeers := r.appliedPeers.insert p.neighborAddress p }

theorem books_recordPeer_ne (h : addr ≠ p.neighborAddress) :
    (r.recordPeer p).books addr = r.books addr := by
  rw [books, recordPeer, lookup_insert_of_ne _ h]
  rfl

theorem backed_recordPeer (p : PeerIntent) (r : Reconciler) :
    (((p.bookedState r).recordPeer p).books p.neighborAddress).Backed := by
  have hpeer : (((p.bookedState r).recordPeer p).books p.neighborAddress).peer = some p := by
    simp [recordPeer]
  unfold bookedState at hpeer ⊢
  split_ifs at hpeer ⊢ with hbfd hm
  · refine fun _ => ⟨?_, p, hpeer, hbfd⟩
    simp [recordPeer, linked]
  · exact backed_of_not_flagged (books_forgetPeerBfd_self r _)
  · exact backed_of_not_flagged (decide_eq_false hm)

end Books

/-- The invariant of the calls. Beside the flags, the peers stand under their addresses. -/
structure Backing (r : Reconciler) : Prop where
  keyed : Keyed neighborAddress (fun _ => True) r.appliedPeers
  backed : ∀ addr, (r.books addr).Backed

open Backing

theorem Backing.ignoresFrr : IgnoresFrr Backing := fun _ _ h => ⟨h.keyed, h.backed⟩

theorem Backing.update {r r' : Reconciler} (h : Backing r) (addr : String)
    (hkeyed : Keyed neighborAddress (fun _ => True) r'.appliedPeers)
    (hown : (r'.books addr).Backed) (hother : ∀ a ≠ addr, r'.books a = r.books a) : Backing r' := by
  refine ⟨hkeyed, fun a => ?_⟩
  by_cases ha : a = addr
  · rw [ha]
    exact hown
  · rw [hother a ha]
    exact h.backed a

section PeerCycle

variable {names : FrrNames} {p : PeerIntent} {r : Reconciler} {fails : VtyFaults} {changed : Prop}

/-- What the applications of a cycle find. The instance runs in a cycle that has changed its AS. -/
structure Applying (fails : VtyFaults) (changed : Prop) (r : Reconciler) :
    Prop where
  keyed : Keyed neighborAddress (fun _ => True) r.appliedPeers
  client : r.frr.fails = fails
  ready : changed → r.Ready

/-- The application of a peer leaves a backed flag: the flag is backed, or the peer has just been
forgotten and nothing keeps it from being applied again; and where BFD cannot be enabled there is
a peer with BFD already. -/
structure PeerIntent.Backs (fails : VtyFaults) (changed : Prop)
    (p : PeerIntent) (b : PeerBooks) : Prop where
  flag : b.Backed ∨ changed ∧ b.peer = none ∧ (∀ n commands, fails n commands = false) ∧ p.Valid
  enabling : p.bfdEnabled = true → EnablingFails fails p.neighborAddress → b.HasBfdPeer

theorem applyPeerIntent_ready (hr : changed → r.Ready) : Outcome (applyPeerIntent names p) r
    (fun r' => changed → r'.Ready)
    fun r' => changed → r'.Ready ∧ ¬ (r.Quiet ∧ p.Valid) := by
  by_cases hchanged : changed
  · have hready := hr hchanged
    have hkeeps {r' : Reconciler} (h : PeerTurn names p.neighborAddress r r') : r'.Ready := by
      obtain ⟨c, s, hc⟩ := h.client
      have hline := h.other .routerBgp (by simp [PeerOwns, FrrLine.object])
        (by simp [BfdOwns, FrrLine.object])
      refine ⟨?_, ?_⟩
      · rw [hc]
        exact hready.1
      · rw [hline, hready.2, hc]
        rfl
    refine (applyPeerIntent_outcome hready).imp ?_ ?_
    · rintro _ ⟨-, s, rfl⟩ -
      exact hkeeps (p.appliedState_turn names r s).1
    · rintro _ ⟨hfail, hhalf⟩ -
      exact ⟨hkeeps hhalf.turn.1, hfail⟩
  · exact applyPeerIntent_books.imp (fun _ _ h => absurd h hchanged) fun _ _ h => absurd h hchanged

theorem applyPeerIntent_turn (hr : Applying fails changed r) : Outcome (applyPeerIntent names p) r
    (fun r' => Turn (Applying fails changed) books
      (fun b b' => p.Backs fails changed b → b'.Backed) p.neighborAddress r (r'.recordPeer p))
    (Turn (Applying fails changed) books
      (fun b b' => p.Backs fails changed b → b'.Backed) p.neighborAddress r) := by
  refine (applyPeerIntent_books.and (applyPeerIntent_ready hr.ready)).imp ?_ ?_
  · rintro _ ⟨⟨c, s, rfl⟩, hready⟩
    obtain ⟨hpeers, hfrr⟩ := bookedState_keeps p r
    refine ⟨⟨?_, ?_, hready⟩, fun _ => backed_recordPeer p r, fun a ha => ?_⟩
    · change Keyed _ _ ((p.bookedState r).appliedPeers.insert p.neighborAddress p)
      rw [hpeers]
      exact hr.keyed.insert trivial
    · change (p.bookedState r).frr.fails = fails
      rw [hfrr]
      exact hr.client
    · exact (books_recordPeer_ne ha).trans (books_bookedState_ne ha)
  · rintro _ ⟨⟨c, s, rfl⟩ | ⟨hbfd, hfail, c, s, rfl⟩, hready⟩
    · refine ⟨⟨hr.keyed, hr.client, fun h => (hready h).1⟩, fun hbacks => ?_, fun _ _ => rfl⟩
      rcases hbacks.flag with hb | ⟨hchanged, -, hquiet, hvalid⟩
      · exact hb
      · exact absurd ⟨by rw [Reconciler.Quiet, hr.client]; exact hquiet, hvalid⟩ (hready hchanged).2
    · refine ⟨⟨hr.keyed, hr.client, fun h => (hready h).1⟩, fun hbacks => ?_, fun a ha => ?_⟩
      · rw [hr.client] at hfail
        exact backed_linked (hbacks.enabling hbfd hfail)
      · exact books_linked_ne ha

theorem applyPeers_eachKey (names : FrrNames) {m : PeerMap}
    (o : IterOrder String)
    (hm : Keyed neighborAddress (fun _ => True) m) (hr : Applying fails changed r) :
    EachKey (Applying fails changed) books
      (fun k b b' => ∀ p, m.lookup k = some p → p.Backs fails changed b → b'.Backed)
      (fun k b b' => ∀ p, m.lookup k = some p → p.Backs fails changed b → b'.Backed)
      (o.enum [0] m.keys) r (forEachKey ((peerFamily names).applyKey m) (o.enum [0] m.keys) r) := by
  refine forEachKey_spec (fun k _ r hr => ?_) (o.nodup_enum _ _) hr
  refine Family.applyKey_outcome (fun hidle => ⟨hr, fun p hp hbacks => ?_, fun _ _ => rfl⟩)
    fun p hp _ => ?_
  · -- the peer is applied as it is desired, so it has not been forgotten
    rcases hbacks.flag with hb | ⟨-, hnone, -⟩
    · exact hb
    · have hsame : m.lookup k = r.appliedPeers.lookup k := by
        rcases hidle with h | h
        · simp [hp] at h
        · exact h
      rw [hp] at hsame
      exact absurd (hsame.trans hnone) (Option.some_ne_none p)
  · obtain ⟨rfl, -⟩ := hm k p hp
    have hown {b b' : PeerBooks} (h : p.Backs fails changed b → b'.Backed) :
        ∀ p', m.lookup p.neighborAddress = some p' → p'.Backs fails changed b → b'.Backed := by
      intro p' hp'
      obtain rfl := Option.some.inj (hp.symm.trans hp')
      exact h
    exact (applyPeerIntent_turn hr).imp (fun _ h => ⟨h.inv, hown h.own, h.frame⟩)
      fun _ h => ⟨h.inv, hown h.own, h.frame⟩

theorem removePeerKey_keeps (names : FrrNames) (m : PeerMap)
    (k : String) : Keeps ((peerFamily names).removeKey m k) Backing := by
  intro r hr
  refine Family.removeKey_outcome (fun _ => hr) fun p hp _ _ => ?_
  obtain ⟨rfl, -⟩ := hr.keyed k p hp
  have hpeers : (p.releasedState r).appliedPeers = r.appliedPeers := by
    unfold releasedState
    split_ifs <;> rfl
  have hflag := backed_of_not_flagged (books_releasedState_self p r)
  refine removePeer_books.imp ?_ ?_
  · rintro _ ⟨f, rfl⟩
    refine hr.update p.neighborAddress ?_ ?_ fun a ha => ?_
    · change Keyed _ _ ((p.releasedState r).appliedPeers.erase p.neighborAddress)
      rw [hpeers]
      exact hr.keyed.erase _
    · exact backed_of_not_flagged (books_releasedState_self p r)
    · refine Eq.trans ?_ (books_releasedState_ne ha)
      change mk _ _ (Finmap.lookup a ((p.releasedState r).appliedPeers.erase p.neighborAddress)) = _
      rw [lookup_erase_ne ha]
      rfl
  · rintro _ ⟨f, rfl⟩
    refine hr.update p.neighborAddress ?_ hflag fun a ha => books_releasedState_ne ha
    change Keyed _ _ (p.releasedState r).appliedPeers
    rw [hpeers]
    exact hr.keyed

theorem reconcilePeers_backing {o : RoutingOrders} {desired : List PeerIntent}
    (hr : Applying fails changed r)
    (hdesired : ∀ addr p, ((peerFamily names).desiredMap desired).lookup addr = some p →
      p.Backs fails changed (r.books addr))
    (hother : ∀ addr, ((peerFamily names).desiredMap desired).lookup addr = none →
      (r.books addr).Backed) :
    Outcome (reconcilePeers names o desired) r Backing Backing := by
  have hkeyed : Keyed neighborAddress (fun _ => True) ((peerFamily names).desiredMap desired) :=
    fun k p hp => ⟨Family.key_of_desiredMap (F := peerFamily names) hp, trivial⟩
  have hadd := applyPeers_eachKey names o.texts hkeyed hr
  have hbacking : Backing (forEachKey ((peerFamily names).applyKey
      ((peerFamily names).desiredMap desired))
      (o.texts.enum [0] ((peerFamily names).desiredMap desired).keys) r).2 := by
    refine ⟨hadd.inv.keyed, fun addr => ?_⟩
    cases hp : ((peerFamily names).desiredMap desired).lookup addr with
    | none =>
      rw [hadd.frame addr]
      · exact hother addr hp
      · rw [o.texts.mem_enum, Finmap.mem_keys, ← lookup_isSome, hp]
        exact Bool.false_ne_true
    | some p =>
      have hvisit : addr ∈ o.texts.enum [0] ((peerFamily names).desiredMap desired).keys :=
        (o.texts.mem_enum _ _ _).mpr (Finmap.mem_keys.mpr (mem_of_lookup_eq_some hp))
      rcases hadd.own addr hvisit with h | ⟨h, -⟩ <;> exact h p hp (hdesired addr p hp)
  have hrem (ks : List String) := forEachKey_keeps (fun k (_ : k ∈ ks) =>
    removePeerKey_keeps names ((peerFamily names).desiredMap desired) k) hbacking
  exact collectErrors_keeps rfl (hrem _)

end PeerCycle

section OtherFamilies

variable {names : FrrNames} {o : RoutingOrders} {r : Reconciler}

theorem Backing.insertBfd (h : Backing r) (k : String) (b : BfdIntent) :
    Backing { r with appliedBfd := r.appliedBfd.insert k b } := by
  refine h.update k h.keyed (fun hflagged => ⟨?_, (h.backed k hflagged).2⟩) fun a ha => ?_
  · simp
  · rw [books, lookup_insert_of_ne _ ha]
    rfl

theorem Backing.eraseBfd (h : Backing r) {k : String} (hk : k ∉ r.peerManagedBfd) :
    Backing { r with appliedBfd := r.appliedBfd.erase k } := by
  refine h.update k h.keyed (backed_of_not_flagged (decide_eq_false hk)) fun a ha => ?_
  rw [books, lookup_erase_ne ha]
  rfl

theorem reconcilePrefixes_backing (desired : List PrefixIntent) :
    Keeps (reconcilePrefixes names o desired) Backing :=
  Family.reconcile_keeps _ (fun _ _ h => ⟨h.keyed, h.backed⟩)
    (replacePrefixIntent_keeps ignoresFrr.keptByCalls)
    (removePrefixFromFrr_keeps ignoresFrr.keptByCalls)

theorem reconcileOspf_backing (desired : List OspfIntent) :
    Keeps (reconcileOspf names o desired) Backing :=
  Family.reconcile_keeps _ (fun _ _ h => ⟨h.keyed, h.backed⟩)
    (fun _ _ => callFrr_keeps ignoresFrr _ _) fun _ => callFrr_keeps ignoresFrr _ _

theorem reconcileBfd_backing (desired : List BfdIntent) :
    Keeps (reconcileBfd names o desired) Backing := by
  refine Family.reconcile_invariant _
    ⟨fun k b r _ _ hr => (callFrr_keeps ignoresFrr _ _ r hr).imp
      (fun _ h => h.insertBfd k b) fun _ h => h, fun k b r _ _ hkept hr => ?_⟩
  have hk : k ∉ r.peerManagedBfd := of_decide_eq_false hkept
  have hI : IgnoresFrr fun r' => Backing r' ∧ k ∉ r'.peerManagedBfd :=
    fun r' f h => ⟨ignoresFrr r' f h.1, h.2⟩
  exact (callFrr_keeps hI _ _ r ⟨hr, hk⟩).imp (fun _ h => h.1.eraseBfd h.2) fun _ h => h.1

end OtherFamilies

section Global

variable {names : FrrNames} {r : Reconciler}

theorem ready_of_bgpGlobalCommands {as : Nat} {routerId : String} {c c' : FrrConfig}
    (h : runCommands names (bgpGlobalCommands as routerId) .config c = some c') : Ready as c' := by
  have haccepts : AcceptsAs as c := by
    by_contra hno
    simp [bgpGlobalCommands, runCommands_routerBgp, if_neg hno] at h
  rw [bgpGlobalCommands_run names haccepts, Option.some.injEq] at h
  refine ⟨haccepts.1, ?_⟩
  rw [← h, writeAll_apply]
  rfl

theorem reconfigureBgpGlobal_ready (names : FrrNames) (oldAs newAs : Nat) (routerId : String)
    (f : FrrClient) :
    Outcome (FrrClient.reconfigureBgpGlobal names oldAs newAs routerId) f
      (fun f' => f'.fails = f.fails ∧ (oldAs ≠ newAs → Ready f'.localAs f'.running))
      fun f' => f'.fails = f.fails := by
  refine FrrClient.checked_outcome (fun _ => ?_) fun _ => rfl
  refine outcome_if (fun heq => ?_) fun _ => ?_
  · refine (FrrClient.runConfig_outcome names _ _ f).imp ?_ ?_
    · rintro _ ⟨c, s, -, rfl⟩
      exact ⟨rfl, fun hne => absurd heq hne⟩
    · rintro _ ⟨-, s, rfl⟩
      rfl
  · have hnew : ∀ f₁ : FrrClient, f₁.fails = f.fails →
        Outcome (FrrClient.configureBgpGlobal names newAs routerId) f₁
          (fun f' => f'.fails = f.fails ∧ (oldAs ≠ newAs → Ready f'.localAs f'.running))
          fun f' => f'.fails = f.fails := by
      intro f₁ hf₁
      refine bind (FrrClient.checked_outcome (fun _ => ?_) fun _ => hf₁)
      refine (FrrClient.runConfig_outcome names _ _ f₁).imp ?_ ?_
      · rintro _ ⟨c, s, hc, rfl⟩
        exact outcome_modify ⟨hf₁, fun _ => ready_of_bgpGlobalCommands hc⟩
      · rintro _ ⟨-, s, rfl⟩
        exact hf₁
    refine bind (outcome_if (fun _ => outcome_pure (hnew f rfl)) fun _ => ?_)
    refine (FrrClient.runConfig_outcome names _ _ f).imp ?_ ?_
    · rintro _ ⟨c, s, -, rfl⟩
      exact hnew _ rfl
    · rintro _ ⟨-, s, rfl⟩
      rfl

/-- Before the families have their turn: the records of the flags and the sessions stand, those
of the peers are forgotten with the old instance. -/
structure Reconciler.Started (r r' : Reconciler) : Prop where
  fails : r'.frr.fails = r.frr.fails
  ready : r.ChangesAs → r'.Ready
  managed : r'.peerManagedBfd = r.peerManagedBfd
  bfd : r'.appliedBfd = r.appliedBfd
  kept : ¬ r.ChangesAs → r'.appliedPeers = r.appliedPeers
  forgot : r.ChangesAs → r'.appliedPeers = ∅

theorem ensureBgpGlobal_books (r : Reconciler) :
    Outcome (ensureBgpGlobal names) r r.Started (OnlyFrr r) := by
  refine ensureBgpGlobal_split (fun hconf => ?_) (fun _ _ => ⟨r.frr, rfl⟩)
    fun hconf g hg has => callFrr_lift
      ((reconfigureBgpGlobal_ready names r.frr.localAs g.localAs g.routerId r.frr).imp ?_ ?_)
  · have hno : ¬ r.ChangesAs := fun h => Bool.noConfusion (hconf.symm.trans h.1)
    exact ⟨rfl, fun h => absurd h hno, rfl, rfl, fun _ => rfl, fun h => absurd h hno⟩
  · rintro f ⟨hfails, hinstance⟩
    have hchange : r.ChangesAs ↔ r.frr.localAs ≠ 0 ∧ r.frr.localAs ≠ g.localAs := by
      simp [Reconciler.ChangesAs, hconf, hg, has]
    have hready h := hinstance (hchange.mp h).2
    unfold forgetInstance
    by_cases hnew : r.frr.localAs ≠ 0 ∧ r.frr.localAs ≠ g.localAs
    · rw [if_pos hnew]
      exact ⟨hfails, hready, rfl, rfl, fun h => absurd (hchange.mpr hnew) h, fun _ => rfl⟩
    · rw [if_neg hnew]
      exact ⟨hfails, hready, rfl, rfl, fun _ => rfl, fun h => absurd (hchange.mp h) hnew⟩
  · exact fun f _ => ⟨f, rfl⟩

end Global

/-- The condition on a cycle: where BFD cannot be enabled for a desired peer, one with BFD is
applied and stays; and when the AS changes, every flagged address is applied again. -/
structure CarefulCycle (names : FrrNames) (o : RoutingOrders) (store : IntentStore)
    (fails : VtyFaults) (r : Reconciler) : Prop where
  enabling : ∀ addr p,
    ((peerFamily names).desiredMap (store.getPeerIntents o)).lookup addr = some p →
    p.bfdEnabled = true → EnablingFails fails addr →
    ¬ r.ChangesAs ∧ ∃ q, r.appliedPeers.lookup addr = some q ∧ q.bfdEnabled = true
  flags : r.ChangesAs → ∀ addr ∈ r.peerManagedBfd, (∀ n commands, fails n commands = false) ∧
    ∃ p, ((peerFamily names).desiredMap (store.getPeerIntents o)).lookup addr = some p ∧ p.Valid

section Calls

variable {names : FrrNames} {o : RoutingOrders} {store : IntentStore} {r : Reconciler}

theorem reconcilePeers_careful {r' : Reconciler} (hr : Backing r)
    (hcare : CarefulCycle names o store r.frr.fails r) (hstart : r.Started r') :
    Outcome (reconcilePeers names o (store.getPeerIntents o)) r' Backing Backing := by
  by_cases hchange : r.ChangesAs
  · have hnone : ∀ addr, (r'.books addr).peer = none := by
      intro addr
      change r'.appliedPeers.lookup addr = none
      rw [hstart.forgot hchange, lookup_empty]
    have hflag : ∀ addr, (r'.books addr).flagged = true → addr ∈ r.peerManagedBfd := by
      intro addr h
      rw [← hstart.managed]
      exact of_decide_eq_true h
    have hkeyed : Keyed neighborAddress (fun _ => True) r'.appliedPeers := by
      rw [hstart.forgot hchange]
      exact Keyed.empty
    refine reconcilePeers_backing ⟨hkeyed, hstart.fails, hstart.ready⟩
      (fun addr p hp => ⟨?_, fun henabled hfail => ?_⟩) fun addr hno hflagged => ?_
    · rw [or_iff_not_imp_left]
      intro hunbacked
      obtain ⟨hflagged, -⟩ := Classical.not_imp.mp hunbacked
      obtain ⟨hquiet, p', hp', hvalid⟩ := hcare.flags hchange addr (hflag addr hflagged)
      obtain rfl := Option.some.inj (hp.symm.trans hp')
      exact ⟨hchange, hnone addr, hquiet, hvalid⟩
    · obtain rfl := Family.key_of_desiredMap (F := peerFamily names) hp
      exact absurd hchange (hcare.enabling _ p hp henabled hfail).1
    · obtain ⟨-, p, hp, -⟩ := hcare.flags hchange addr (hflag addr hflagged)
      simp [hno] at hp
  · have hsame : ∀ addr, r'.books addr = r.books addr := by
      intro addr
      rw [books, hstart.managed, hstart.bfd, hstart.kept hchange]
      rfl
    have hkeyed : Keyed neighborAddress (fun _ => True) r'.appliedPeers := by
      rw [hstart.kept hchange]
      exact hr.keyed
    refine reconcilePeers_backing ⟨hkeyed, hstart.fails, hstart.ready⟩
      (fun addr p hp => ⟨.inl ?_, fun henabled hfail => ?_⟩) fun addr _ => ?_
    · rw [hsame]
      exact hr.backed addr
    · obtain rfl := Family.key_of_desiredMap (F := peerFamily names) hp
      rw [hsame]
      exact (hcare.enabling _ p hp henabled hfail).2
    · rw [hsame]
      exact hr.backed addr

theorem reconcile_backing (hr : Backing r) (hcare : CarefulCycle names o store r.frr.fails r) :
    Outcome (reconcile names o store) r Backing Backing := by
  by_cases hfrr : r.hasFrr = true
  · refine reconcile_outcome hfrr
      ((ensureBgpGlobal_books r).imp (fun _ => reconcilePeers_careful hr hcare) ?_) fun r' h => ?_
    · rintro _ ⟨f, rfl⟩
      exact ignoresFrr r f hr
    · exact reconcileFamilies_keeps (fun _ h => h) (reconcilePrefixes_backing _)
        (reconcileBfd_backing _) (reconcileOspf_backing _) h
  · unfold Outcome reconcile
    rwa [if_neg hfrr]

theorem recorded_backing {x : RoutingCall} {record : Reconciler → Reconciler}
    (h : Outcome x r (fun r' => Backing (record r')) Backing) :
    Backing (intentStateAfter (recorded x record) r) := by
  unfold intentStateAfter recorded
  cases hx : x r with
  | ok u r' => exact h.of_ok hx
  | error e r' => exact h.of_error hx

theorem applyIntent_backing (hr : Backing r) (intentType : String) (value : IntentValue)
    (hcare : ∀ p, intentType = "peer" → value = .peer p → p.bfdEnabled = true →
      EnablingFails r.frr.fails p.neighborAddress →
      ∃ q, r.appliedPeers.lookup p.neighborAddress = some q ∧ q.bfdEnabled = true) :
    Backing (intentStateAfter (applyIntent names intentType value) r) := by
  unfold applyIntent
  split_ifs with hpeer hpfx hbfd hospf
  · cases value with
    | peer p =>
      have hr' : Applying r.frr.fails False r := ⟨hr.keyed, rfl, False.elim⟩
      have hbacks : p.Backs r.frr.fails False (r.books p.neighborAddress) :=
        ⟨.inl (hr.backed _), fun henabled hfail => hcare p hpeer rfl henabled hfail⟩
      refine recorded_backing ((applyPeerIntent_turn hr').imp (fun r' h => ?_) fun r' h => ?_)
      · exact hr.update _ h.inv.keyed (h.own hbacks) fun a ha => h.frame a ha
      · exact hr.update _ h.inv.keyed (h.own hbacks) fun a ha => h.frame a ha
    | _ => exact hr
  · cases value with
    | pfx p =>
      exact recorded_backing ((applyPrefixIntent_keeps ignoresFrr.keptByCalls p r hr).imp
        (fun _ h => ⟨h.keyed, h.backed⟩) fun _ h => h)
    | _ => exact hr
  · cases value with
    | bfd b =>
      exact recorded_backing ((callFrr_keeps ignoresFrr _ _ r hr).imp
        (fun _ h => h.insertBfd _ b) fun _ h => h)
    | _ => exact hr
  · cases value with
    | ospf o =>
      exact recorded_backing ((callFrr_keeps ignoresFrr _ _ r hr).imp
        (fun _ h => ⟨h.keyed, h.backed⟩) fun _ h => h)
    | _ => exact hr
  · exact hr

theorem Backing.erasePeer (h : Backing r) {k : String} (hk : k ∉ r.peerManagedBfd) :
    Backing { r with appliedPeers := r.appliedPeers.erase k } := by
  refine h.update k (h.keyed.erase k) (backed_of_not_flagged (decide_eq_false hk)) fun a ha => ?_
  rw [books, lookup_erase_ne ha]
  rfl

theorem removeFound_backing {α : Type} {what key : String} {found : Option α}
    {call : α → RoutingCall} {record : Reconciler → Reconciler} (hr : Backing r)
    (h : ∀ a, found = some a → Outcome (call a) r (fun r' => Backing (record r')) Backing) :
    Backing (intentStateAfter (removeFound what key found call record) r) := by
  cases found with
  | none => exact hr
  | some a => exact recorded_backing (h a rfl)

theorem removeIntent_backing (hr : Backing r) (intentType key : String)
    (hcare : intentType = "peer" ∨ intentType = "bfd" → key ∉ r.peerManagedBfd) :
    Backing (intentStateAfter (removeIntent names intentType key) r) := by
  have hunflagged (hk : key ∉ r.peerManagedBfd) (context : String) (q : FrrRequest) :
      Outcome (callFrr context (send names q)) r
        (fun r' => Backing r' ∧ key ∉ r'.peerManagedBfd)
        fun r' => Backing r' ∧ key ∉ r'.peerManagedBfd :=
    callFrr_keeps (fun r' f h => ⟨ignoresFrr r' f h.1, h.2⟩) _ _ r ⟨hr, hk⟩
  unfold removeIntent
  split_ifs with hpeer hpfx hbfd hospf
  · exact removeFound_backing hr fun p _ => (hunflagged (hcare (.inl hpeer)) _ _).imp
      (fun _ h => h.1.erasePeer h.2) fun _ h => h.1
  · exact removeFound_backing hr fun p _ =>
      (removePrefixFromFrr_keeps ignoresFrr.keptByCalls p r hr).imp
        (fun _ h => ⟨h.keyed, h.backed⟩) fun _ h => h
  · exact removeFound_backing hr fun b _ => (hunflagged (hcare (.inr hbfd)) _ _).imp
      (fun _ h => h.1.eraseBfd h.2) fun _ h => h.1
  · exact removeFound_backing hr fun o _ =>
      (callFrr_keeps ignoresFrr _ _ r hr).imp (fun _ h => ⟨h.keyed, h.backed⟩) fun _ h => h
  · exact hr

structure Unflagged (r : Reconciler) : Prop where
  keyed : Keyed neighborAddress (fun _ => True) r.appliedPeers
  unflagged : r.peerManagedBfd = ∅

theorem Unflagged.ignoresFrr : IgnoresFrr Unflagged := fun _ _ h => ⟨h.keyed, h.unflagged⟩

theorem Unflagged.backing (h : Unflagged r) : Backing r := by
  refine ⟨h.keyed, fun addr => backed_of_not_flagged (decide_eq_false ?_)⟩
  rw [h.unflagged]
  exact Finset.notMem_empty addr

theorem withdrawKey_keeps {κ α : Type} [DecidableEq κ] {I : Reconciler → Prop}
    {applied : Reconciler → Finmap fun _ : κ => α} {call : α → RoutingCall}
    {forget : κ → Reconciler → Reconciler} (hcall : ∀ a, Keeps (call a) I)
    (hforget : ∀ k r, I r → I (forget k r)) (k : κ) :
    Keeps (withdrawKey applied call forget k) I := by
  intro r hr
  unfold Outcome withdrawKey
  cases (applied r).lookup k with
  | none => exact hr
  | some a => exact (hcall a).bind (keeps_modify (hforget k)) r hr

theorem withdrawPrefixKey_keeps (k : PrefixKey) : Keeps (withdrawPrefixKey names k) Unflagged := by
  have hcall (context : String) (q : FrrRequest) :
      Keeps (callFrr context (send names q)) Unflagged := callFrr_keeps Unflagged.ignoresFrr _ _
  have hforget : ∀ r, Unflagged r → Unflagged (forgetPrefix k r) :=
    fun _ h => ⟨h.keyed, h.unflagged⟩
  intro r hr
  unfold Outcome withdrawPrefixKey
  cases r.appliedPrefixes.lookup k with
  | none => exact hr
  | some p =>
    dsimp only
    by_cases hbgp : p.protocol = .bgp
    · rw [if_pos hbgp]
      exact (hcall _ _).bind ((keeps_modify hforget).bind ((hcall _ _).ite (keeps_pure _))) r hr
    · rw [if_neg hbgp]
      exact hforget r hr

theorem withdrawAll_unflagged (hr : Unflagged r) : Unflagged (withdrawAll names o r).2 := by
  have hcall (context : String) (q : FrrRequest) :
      Keeps (callFrr context (send names q)) Unflagged := callFrr_keeps Unflagged.ignoresFrr _ _
  unfold withdrawAll
  by_cases hfrr : r.hasFrr = true
  · rw [if_pos hfrr]
    refine forEachKey_keeps (fun k _ => ?_) (forEachKey_keeps (fun k _ => ?_)
      (forEachKey_keeps (fun k _ => ?_) (forEachKey_keeps (fun k _ => withdrawPrefixKey_keeps k) hr)))
    · refine withdrawKey_keeps (fun _ => hcall _ _) ?_ k
      exact fun k _ h => ⟨h.keyed.erase k, h.unflagged⟩
    · refine withdrawKey_keeps (fun _ => hcall _ _) ?_ k
      exact fun _ _ h => ⟨h.keyed, h.unflagged⟩
    · refine withdrawKey_keeps (fun _ => hcall _ _) ?_ k
      exact fun _ _ h => ⟨h.keyed, h.unflagged⟩
  · rwa [if_neg hfrr]

end Calls

section Runs

variable {names : FrrNames} {r : Reconciler}

/-- The condition on a call, in the state before it: nothing is taken away behind a flag, and
no peer is left without BFD half way. -/
def Reconciler.Careful (names : FrrNames) (r : Reconciler) : ReconcilerCall → Prop
  | .reconcile o store fails => CarefulCycle names o store fails r
  | .applyIntent intentType value fails => ∀ p, intentType = "peer" → value = .peer p →
      p.bfdEnabled = true → EnablingFails fails p.neighborAddress →
      ∃ q, r.appliedPeers.lookup p.neighborAddress = some q ∧ q.bfdEnabled = true
  | .removeIntent intentType key _ =>
      intentType = "peer" ∨ intentType = "bfd" → key ∉ r.peerManagedBfd
  | .withdrawAll _ _ => r.peerManagedBfd = ∅
  | .updateBgpGlobal _ _ => True

def CarefulRun (names : FrrNames) : Reconciler → List ReconcilerCall → Prop
  | _, [] => True
  | r, c :: cs => r.Careful names c ∧ CarefulRun names (r.call names c) cs

theorem call_backing (hr : Backing r) {c : ReconcilerCall} (hcare : r.Careful names c) :
    Backing (r.call names c) := by
  have hbegin (fails : VtyFaults) : Backing (r.begin fails) :=
    ignoresFrr r _ hr
  cases c with
  | reconcile o store fails =>
    exact outcome_stateAfter (reconcile_backing (hbegin fails) ⟨hcare.enabling, hcare.flags⟩)
  | applyIntent intentType value fails =>
    exact applyIntent_backing (hbegin fails) intentType value hcare
  | removeIntent intentType key fails =>
    exact removeIntent_backing (hbegin fails) intentType key hcare
  | withdrawAll o fails =>
    exact (withdrawAll_unflagged ⟨(hbegin fails).keyed, hcare⟩).backing
  | updateBgpGlobal localAs routerId => exact ⟨hr.keyed, hr.backed⟩

theorem calls_backing (hr : Backing r) {cs : List ReconcilerCall} (h : CarefulRun names r cs) :
    Backing (r.calls names cs) := by
  induction cs generalizing r with
  | nil => exact hr
  | cons c cs ih => exact ih (call_backing hr h.1) h.2

/-- After every run of careful calls, every flagged address has its session and its peer. -/
theorem peer_managed_bfd_backed (names : FrrNames) (frr : FrrClient)
    (bgpGlobal : Option BgpGlobalConfig) (cs : List ReconcilerCall)
    (h : CarefulRun names (newReconciler frr bgpGlobal) cs) :
    ((newReconciler frr bgpGlobal).calls names cs).FlagsBacked := by
  have hnew : Backing (newReconciler frr bgpGlobal) := Unflagged.backing ⟨Keyed.empty, rfl⟩
  exact flagsBacked_iff.mpr (calls_backing hnew h).backed

def bfdPeer : PeerIntent := RoutingManager.peerOf "10.0.0.2" 65002 (some ⟨true, 300, 300, 3⟩)

def oneBfdPeer : List ReconcilerCall :=
  [.reconcile sortedOrders ∅ neverFails, .applyIntent "peer" (.peer bfdPeer) neverFails]

theorem not_enablingFails_neverFails (addr : String) : ¬ EnablingFails neverFails addr :=
  fun ⟨_, _, h⟩ => Bool.false_ne_true h

def exampleReconciler (cs : List ReconcilerCall) : Reconciler :=
  (newReconciler newFrrClient (some ⟨65001, "10.0.0.1"⟩)).calls ⟨id, id⟩ cs

theorem peer_managed_bfd_backed_example :
    "10.0.0.2" ∈ (exampleReconciler oneBfdPeer).peerManagedBfd ∧
      (exampleReconciler oneBfdPeer).FlagsBacked := by
  refine ⟨by decide +kernel, peer_managed_bfd_backed _ _ _ _ ⟨⟨?_, ?_⟩, ?_, trivial⟩⟩
  · exact fun addr _ _ _ hfail => absurd hfail (not_enablingFails_neverFails addr)
  · exact fun _ addr haddr => absurd haddr (Finset.notMem_empty addr)
  · exact fun p _ _ _ hfail => absurd hfail (not_enablingFails_neverFails _)

def bfdPeerRemoved : List ReconcilerCall :=
  oneBfdPeer ++ [.removeIntent "peer" "10.0.0.2" neverFails]

/-- RemoveIntent takes the peer away and leaves the flag, which no later cycle clears. -/
theorem peer_managed_bfd_left_behind :
    "10.0.0.2" ∈ (exampleReconciler bfdPeerRemoved).peerManagedBfd ∧
      "10.0.0.2" ∉ (exampleReconciler bfdPeerRemoved).appliedPeers ∧
      "10.0.0.2" ∈ (exampleReconciler
        (bfdPeerRemoved ++ [.reconcile sortedOrders ∅ neverFails])).appliedBfd := by
  decide +kernel

end Runs

end NovaNet
