import NovaNet.RoutingEvents
import NovaNet.TunnelWatcher

/-! The native mode (internal/agent/setup_routing.go): the agent sets up BGP and then polls the
node list for its peers. The loop remembers by name the nodes that have a peer. -/

namespace NovaNet

open LastWrite List RoutingManager

structure ExternalPeer where
  neighborAddress : String
  remoteAs : Nat
  bfdEnabled : Bool
  bfdMinRxMs : Nat
  bfdMinTxMs : Nat
  bfdDetectMultiplier : Nat

structure RoutingConfig where
  peers : List ExternalPeer
  bfdEnabled : Bool
  bfdMinRxMs : Nat
  bfdMinTxMs : Nat
  bfdDetectMult : Nat

namespace RoutingConfig

def orDefault (n default : Nat) : Nat := if n = 0 then default else n

def peerBfd (cfg : RoutingConfig) (p : ExternalPeer) : BfdOptions :=
  if p.bfdEnabled then
    ⟨true, orDefault p.bfdMinRxMs cfg.bfdMinRxMs, orDefault p.bfdMinTxMs cfg.bfdMinTxMs,
      orDefault p.bfdDetectMultiplier cfg.bfdDetectMult⟩
  else ⟨false, 0, 0, 0⟩

def bfdOpts (cfg : RoutingConfig) : Option BfdOptions :=
  if cfg.bfdEnabled then some ⟨true, cfg.bfdMinRxMs, cfg.bfdMinTxMs, cfg.bfdDetectMult⟩ else none

end RoutingConfig

def nodeAs : Net.IP → Nat
  | .v4 addr => 64512 + addr.toNat / 256 % 256 * 256 + addr.toNat % 256
  | .v6 addr => 64512 + addr.toNat / 256 % 256 * 256 + addr.toNat % 256

structure NativeEnv where
  selfNode : String
  nodeIp : Net.IP
  podCidr : String
  cfg : RoutingConfig

structure NativeWatcher where
  manager : RoutingManager
  peered : Finset String

namespace NativeWatcher

/-- InitNativeMode up to the first poll. A configured peer that is refused is logged; without the
prefix of the node the agent ends. -/
def init (env : NativeEnv) : Except (String × IntentError) NativeWatcher := do
  let m := newRoutingManager "novanet" none
  let m := { m with
    reconciler := updateBgpGlobal (nodeAs env.nodeIp) env.nodeIp.string m.reconciler }
  let m ← m.advertisePrefix env.podCidr
  let m := env.cfg.peers.foldl (fun m p => m.orSame
    (m.applyPeer p.neighborAddress p.remoteAs (some (env.cfg.peerBfd p)))) m
  .ok ⟨m, ∅⟩

variable (env : NativeEnv)

def pollNode (w : NativeWatcher) (n : ClusterNode) : NativeWatcher :=
  if n.name = env.selfNode then w
  else if nodeInternalIp n = "" ∨ n.name ∈ w.peered then w
  else
    match Net.parseIp (nodeInternalIp n) with
    | none => w
    | some ip =>
      match w.manager.applyPeer (nodeInternalIp n) (nodeAs ip) env.cfg.bfdOpts with
      | .error _ => w
      | .ok m => ⟨m, insert n.name w.peered⟩

def poll (w : NativeWatcher) (nodes : List ClusterNode) : NativeWatcher :=
  nodes.foldl (pollNode env) w

def run (w : NativeWatcher) (polls : List (List ClusterNode)) : NativeWatcher :=
  polls.foldl (poll env) w

abbrev peers (w : NativeWatcher) : Finmap fun _ : String => PeerIntent := w.manager.desired.peers

end NativeWatcher

def NativeEnv.Other (env : NativeEnv) (n : ClusterNode) : Prop :=
  n.name ≠ env.selfNode ∧ (Net.parseIp (nodeInternalIp n)).isSome = true

instance (env : NativeEnv) : DecidablePred env.Other := fun _ => inferInstanceAs (Decidable (_ ∧ _))

def PeersDerived (peers : PeerMap) : Prop :=
  ∀ a p, peers.lookup a = some p → ∃ ip, Net.parseIp a = some ip ∧ p.remoteAs = nodeAs ip

structure PeersFollow (env : NativeEnv) (nodes : List ClusterNode) (m : RoutingManager) : Prop where
  addresses : ∀ a, a ∈ m.desired.peers ↔ ∃ n ∈ nodes, env.Other n ∧ nodeInternalIp n = a
  derived : PeersDerived m.desired.peers
  external : ∃ g, m.reconciler.bgpGlobal = some g ∧
    ∀ a p, m.desired.peers.lookup a = some p → p.remoteAs ≠ g.localAs

namespace NativeWatcher

/-- A poll that the loop can follow. No peer is that of an address that has gone, a node with a
peer has kept its address, and no other node ends in the bytes of the own address. -/
structure Steady (env : NativeEnv) (w : NativeWatcher) (nodes : List ClusterNode) : Prop where
  stays : ∀ a ∈ w.peers.keys, ∃ n ∈ nodes, env.Other n ∧ nodeInternalIp n = a
  kept : ∀ n ∈ nodes, env.Other n → n.name ∈ w.peered → nodeInternalIp n ∈ w.peers
  apart : ∀ n ∈ nodes, env.Other n → ∀ ip ∈ Net.parseIp (nodeInternalIp n),
    nodeAs ip ≠ nodeAs env.nodeIp

instance (env : NativeEnv) (w : NativeWatcher) (nodes : List ClusterNode) :
    Decidable (w.Steady env nodes) :=
  decidable_of_iff (_ ∧ _ ∧ _) ⟨fun h => Steady.mk h.1 h.2.1 h.2.2, fun h => ⟨h.stays, h.kept, h.apart⟩⟩

def SteadyRun (env : NativeEnv) (w : NativeWatcher) : List (List ClusterNode) → Prop
  | [] => True
  | nodes :: polls => w.Steady env nodes ∧ SteadyRun env (w.poll env nodes) polls

instance decidableSteadyRun (env : NativeEnv) :
    ∀ (w : NativeWatcher) (polls : List (List ClusterNode)), Decidable (w.SteadyRun env polls)
  | _, [] => isTrue trivial
  | w, nodes :: polls =>
    have := decidableSteadyRun env (w.poll env nodes) polls
    inferInstanceAs (Decidable (_ ∧ _))

variable {env : NativeEnv} {w : NativeWatcher}

structure SameSettings (m m' : RoutingManager) : Prop where
  owner : m'.owner = m.owner
  reconciler : m'.reconciler = m.reconciler

theorem applyPeer_ok {m : RoutingManager} (howner : m.owner ≠ "") {a : String} (ha : a ≠ "")
    (as : Nat) (bfd : Option BfdOptions) : ∃ m', m.applyPeer a as bfd = .ok m' ∧
      SameSettings m m' ∧
      m'.desired.peers = m.desired.peers.insert a (peerOf a as bfd) := by
  have hset : m.applyPeer a as bfd = .ok { m with
      store := m.store.insert m.owner { m.desired with
        peers := m.desired.peers.insert a (peerOf a as bfd) } } := by
    simp [applyPeer, update, IntentStore.setPeerIntent,
      IntentStore.setIntent, IntentStore.notEmpty, howner, ha, peerOf,
      desired]
    rfl
  refine ⟨_, hset, ⟨rfl, rfl⟩, ?_⟩
  simp [desired]

def newPeer (env : NativeEnv) (known : Finset String) (n : ClusterNode) :
    Option (String × PeerIntent) :=
  if n.name ≠ env.selfNode ∧ n.name ∉ known then
    (Net.parseIp (nodeInternalIp n)).map fun ip =>
      (nodeInternalIp n, peerOf (nodeInternalIp n) (nodeAs ip) env.cfg.bfdOpts)
  else none

variable {known : Finset String} {nodes : List ClusterNode}

theorem newPeer_of_other {n : ClusterNode} (h : env.Other n) (hnew : n.name ∉ known) :
    ∃ ip, Net.parseIp (nodeInternalIp n) = some ip ∧ newPeer env known n = some (nodeInternalIp n,
      peerOf (nodeInternalIp n) (nodeAs ip) env.cfg.bfdOpts) := by
  obtain ⟨ip, hip⟩ := Option.isSome_iff_exists.mp h.2
  exact ⟨ip, hip, by rw [newPeer, if_pos ⟨h.1, hnew⟩, hip]; rfl⟩

theorem newPeer_eq_some {n : ClusterNode} {e : String × PeerIntent}
    (h : newPeer env known n = some e) : env.Other n ∧ n.name ∉ known ∧ e.1 = nodeInternalIp n ∧
      ∃ ip, Net.parseIp e.1 = some ip ∧ e.2.remoteAs = nodeAs ip := by
  obtain ⟨⟨hself, hnew⟩, hpeer⟩ := Option.ite_none_right_eq_some.mp h
  obtain ⟨ip, hip, rfl⟩ := Option.map_eq_some_iff.mp hpeer
  exact ⟨⟨hself, by rw [hip]; rfl⟩, hnew, rfl, ip, hip, rfl⟩

theorem pollNode_of_newPeer (howner : w.manager.owner ≠ "") {n : ClusterNode}
    {e : String × PeerIntent} (h : newPeer env w.peered n = some e) :
    (pollNode env w n).peered = insert n.name w.peered ∧
      SameSettings w.manager (pollNode env w n).manager ∧
      (pollNode env w n).peers = w.peers.insert e.1 e.2 := by
  obtain ⟨hother, hnew, -⟩ := newPeer_eq_some h
  obtain ⟨ip, hip, hpeer⟩ := newPeer_of_other hother hnew
  have hne : nodeInternalIp n ≠ "" := by
    intro hempty
    simp [hempty, NodeWatcher.parseIp_empty] at hip
  obtain ⟨m', hm', hsame, hpeers⟩ := applyPeer_ok howner hne (nodeAs ip) env.cfg.bfdOpts
  have hstep : pollNode env w n = ⟨m', insert n.name w.peered⟩ := by
    unfold pollNode
    rw [if_neg hother.1, if_neg (not_or.mpr ⟨hne, hnew⟩), hip]
    simp only [hm']
  rw [hpeer] at h
  cases h
  rw [hstep]
  exact ⟨rfl, hsame, hpeers⟩

theorem pollNode_of_none {n : ClusterNode} (h : newPeer env w.peered n = none) :
    pollNode env w n = w := by
  unfold pollNode
  split
  · rfl
  · rename_i hself
    split
    · rfl
    · rename_i hskip
      rw [newPeer, if_pos ⟨hself, (not_or.mp hskip).2⟩, Option.map_eq_none_iff] at h
      rw [h]

/-- A poll adds the new peers; the names in its list are different, so that what it adds is
known beforehand. -/
theorem poll_peers (env : NativeEnv) (hnames : (nodes.map ClusterNode.name).Nodup) (howner : w.manager.owner ≠ "")
    (hknown : ∀ n ∈ nodes, n.name ∈ w.peered ↔ n.name ∈ known) :
    SameSettings w.manager (w.poll env nodes).manager ∧
      (w.poll env nodes).peers = assign w.peers (nodes.filterMap (newPeer env known)) := by
  induction nodes generalizing w with
  | nil => exact ⟨⟨rfl, rfl⟩, rfl⟩
  | cons n nodes ih =>
    obtain ⟨hn, hrest⟩ := nodup_cons.mp hnames
    obtain ⟨hnknown, hknown⟩ := forall_mem_cons.mp hknown
    have hnew : newPeer env w.peered n = newPeer env known n := by
      simp only [newPeer, hnknown]
    change SameSettings w.manager ((pollNode env w n).poll env nodes).manager ∧
      ((pollNode env w n).poll env nodes).peers = _
    rw [filterMap_cons]
    cases he : newPeer env known n with
    | none =>
      rw [pollNode_of_none (hnew.trans he)]
      exact ih hrest howner hknown
    | some e =>
      obtain ⟨hpeered, hsame, hpeers⟩ := pollNode_of_newPeer howner (hnew.trans he)
      have hknown' : ∀ n' ∈ nodes, n'.name ∈ (pollNode env w n).peered ↔ n'.name ∈ known := by
        intro n' hn'
        have hne : n'.name ≠ n.name := fun heq => hn (heq ▸ List.mem_map_of_mem hn')
        rw [hpeered, Finset.mem_insert, or_iff_right hne, hknown n' hn']
      obtain ⟨hsame', hpeers'⟩ := ih hrest (by rwa [hsame.owner]) hknown'
      refine ⟨⟨hsame'.owner.trans hsame.owner, hsame'.reconciler.trans hsame.reconciler⟩, ?_⟩
      rw [hpeers', hpeers]
      rfl

/-- What holds between polls. The AS numbers are derived once a poll has been made: it replaces
the peers that the configuration put at the address of a node. -/
structure Inv (env : NativeEnv) (w : NativeWatcher) : Prop where
  owner : w.manager.owner ≠ ""
  localAs : ∃ g, w.manager.reconciler.bgpGlobal = some g ∧ g.localAs = nodeAs env.nodeIp
  derived : w.peered = ∅ ∨ PeersDerived w.peers

theorem poll_peersFollow (h : w.Inv env) (hnames : (nodes.map ClusterNode.name).Nodup)
    (hsteady : w.Steady env nodes) : PeersFollow env nodes (w.poll env nodes).manager := by
  obtain ⟨hsame, hpeers⟩ := poll_peers env hnames h.owner fun _ _ => Iff.rfl
  have hadded : ∀ n ∈ nodes, env.Other n → n.name ∉ w.peered →
      ∃ e ∈ nodes.filterMap (newPeer env w.peered), e.1 = nodeInternalIp n := by
    intro n hn hother hnew
    obtain ⟨ip, -, hpeer⟩ := newPeer_of_other hother hnew
    exact ⟨_, mem_filterMap.mpr ⟨n, hn, hpeer⟩, rfl⟩
  have haddresses : ∀ a, a ∈ (w.poll env nodes).peers ↔
      ∃ n ∈ nodes, env.Other n ∧ nodeInternalIp n = a := by
    intro a
    rw [hpeers, mem_assign]
    constructor
    · rintro (hold | ⟨e, he, rfl⟩)
      · exact hsteady.stays a (Finmap.mem_keys.mpr hold)
      · obtain ⟨n, hn, hpeer⟩ := mem_filterMap.mp he
        obtain ⟨hother, -, haddr, -⟩ := newPeer_eq_some hpeer
        exact ⟨n, hn, hother, haddr.symm⟩
    · rintro ⟨n, hn, hother, rfl⟩
      by_cases hknown : n.name ∈ w.peered
      · exact .inl (hsteady.kept n hn hother hknown)
      · exact .inr (hadded n hn hother hknown)
  have hderived : PeersDerived (w.poll env nodes).peers := by
    intro a p hp
    rw [hpeers, lookup_assign] at hp
    rcases Option.or_eq_some_iff.mp hp with hwritten | ⟨hunwritten, hold⟩
    · obtain ⟨n, hn, hpeer⟩ := mem_filterMap.mp (mem_of_written hwritten)
      exact (newPeer_eq_some hpeer).2.2.2
    · -- a peer that the poll leaves is that of a node with a peer, so an earlier poll set it
      have ha : a ∈ w.peers := Finmap.mem_of_lookup_eq_some hold
      obtain ⟨n, hn, hother, rfl⟩ := hsteady.stays a (Finmap.mem_keys.mpr ha)
      have hknown : n.name ∈ w.peered := by
        by_contra hnew
        obtain ⟨e, he, haddr⟩ := hadded n hn hother hnew
        exact written_eq_none_iff.mp hunwritten e he haddr
      have hpolled : w.peered ≠ ∅ := Finset.ne_empty_of_mem hknown
      exact (h.derived.resolve_left hpolled) _ p hold
  obtain ⟨g, hg, has⟩ := h.localAs
  refine ⟨haddresses, hderived, g, by rw [hsame.reconciler, hg], fun a p hp => ?_⟩
  have ha : a ∈ (w.poll env nodes).peers := Finmap.mem_of_lookup_eq_some hp
  obtain ⟨n, hn, hother, rfl⟩ := (haddresses a).mp ha
  obtain ⟨ip, hip, hremote⟩ := hderived _ p hp
  rw [hremote, has]
  exact hsteady.apart n hn hother ip hip

theorem poll_inv (h : w.Inv env) (hnames : (nodes.map ClusterNode.name).Nodup)
    (hsteady : w.Steady env nodes) : (w.poll env nodes).Inv env := by
  have hsame := (poll_peers env hnames h.owner fun _ _ => Iff.rfl).1
  have hfollow := poll_peersFollow h hnames hsteady
  exact ⟨by rw [hsame.owner]; exact h.owner, by rw [hsame.reconciler]; exact h.localAs,
    .inr hfollow.derived⟩

theorem run_inv {polls : List (List ClusterNode)} (h : w.Inv env)
    (hnames : ∀ nodes ∈ polls, (nodes.map ClusterNode.name).Nodup)
    (hsteady : w.SteadyRun env polls) : (w.run env polls).Inv env := by
  induction polls generalizing w with
  | nil => exact h
  | cons nodes polls ih =>
    obtain ⟨hnodes, hrest⟩ := forall_mem_cons.mp hnames
    exact ih (poll_inv h hnodes hsteady.1) hrest hsteady.2

theorem steadyRun_append {polls polls' : List (List ClusterNode)} :
    w.SteadyRun env (polls ++ polls') ↔
      w.SteadyRun env polls ∧ (w.run env polls).SteadyRun env polls' := by
  induction polls generalizing w with
  | nil => simp [SteadyRun, run]
  | cons nodes polls ih =>
    rw [cons_append, SteadyRun, SteadyRun, ih, and_assoc]
    rfl

theorem update_same {m m' : RoutingManager} {context : String}
    {call : IntentStore → Except IntentError IntentStore} (h : m.update context call = .ok m') :
    SameSettings m m' := by
  unfold update at h
  split at h
  · cases h
    exact ⟨rfl, rfl⟩
  · cases h

theorem foldl_applyPeer_same (cfg : RoutingConfig) (l : List ExternalPeer) (m : RoutingManager) :
    SameSettings m (l.foldl (fun m p => m.orSame
      (m.applyPeer p.neighborAddress p.remoteAs (some (cfg.peerBfd p)))) m) := by
  induction l generalizing m with
  | nil => exact ⟨rfl, rfl⟩
  | cons p l ih =>
    rw [foldl_cons]
    cases hp : m.applyPeer p.neighborAddress p.remoteAs (some (cfg.peerBfd p)) with
    | error e => exact ih m
    | ok m' =>
      have hsame := update_same hp
      have hrest := ih m'
      exact ⟨hrest.owner.trans hsame.owner, hrest.reconciler.trans hsame.reconciler⟩

theorem init_inv (h : init env = .ok w) : w.Inv env := by
  cases hadv : advertisePrefix { newRoutingManager "novanet" none with
      reconciler := updateBgpGlobal (nodeAs env.nodeIp) env.nodeIp.string
        (newRoutingManager "novanet" none).reconciler } env.podCidr with
  | error e =>
    simp only [init, hadv] at h
    cases h
  | ok m =>
    simp only [init, hadv] at h
    cases h
    have hsame := update_same hadv
    have hpeers := foldl_applyPeer_same env.cfg env.cfg.peers m
    refine ⟨?_, ⟨⟨nodeAs env.nodeIp, env.nodeIp.string⟩, ?_, rfl⟩, .inl rfl⟩
    · rw [hpeers.owner, hsame.owner]
      change "novanet" ≠ ""
      decide
    · rw [hpeers.reconciler, hsame.reconciler]
      rfl

end NativeWatcher

/-- In a run of steady polls the peer intents after each poll, here the last of any such run, are
those of the other nodes in its list. -/
theorem peers_follow_nodes (env : NativeEnv) (w : NativeWatcher)
    (hinit : NativeWatcher.init env = .ok w) (polls : List (List ClusterNode))
    (nodes : List ClusterNode)
    (hnames : ∀ l ∈ polls ++ [nodes], (l.map ClusterNode.name).Nodup)
    (hsteady : w.SteadyRun env (polls ++ [nodes])) :
    PeersFollow env nodes (w.run env (polls ++ [nodes])).manager := by
  obtain ⟨hbefore, hlast⟩ := NativeWatcher.steadyRun_append.mp hsteady
  obtain ⟨hnames, hnodes⟩ := forall_mem_append.mp hnames
  have hinv := NativeWatcher.run_inv (NativeWatcher.init_inv hinit) hnames hbefore
  rw [NativeWatcher.run, foldl_append]
  exact NativeWatcher.poll_peersFollow hinv (hnodes _ mem_cons_self) hlast.1

section Example

def nativeEnv : NativeEnv := ⟨"self", .v4 0x0a000005, "10.42.0.0/24", ⟨[], false, 0, 0, 0⟩⟩

def nativeAfter (polls : List (List ClusterNode)) : Option NativeWatcher :=
  (NativeWatcher.init nativeEnv).toOption.map fun w => w.run nativeEnv polls

def peersAfter (polls : List (List ClusterNode)) : Option (List (String × Nat)) :=
  (nativeAfter polls).map fun w => (IterOrder.sorted.enum [] w.peers.keys).filterMap fun a =>
    (w.peers.lookup a).map fun p => (a, p.remoteAs)

/-- The peer of a node that has gone or has changed its address stays, the new address gets none,
and a node of another network with the same last two bytes gets the local AS. -/
theorem peers_miss_renumbering :
    peersAfter [[nodeAt "b" "10.0.0.2"], [nodeAt "b" "10.0.0.3"]] = some [("10.0.0.2", 64514)] ∧
    peersAfter [[nodeAt "b" "10.0.0.2"], []] = some [("10.0.0.2", 64514)] ∧
    peersAfter [[nodeAt "b" "10.1.0.5"]] = some [("10.1.0.5", nodeAs nativeEnv.nodeIp)] := by
  decide +kernel

theorem peers_follow_nodes_example :
    ∃ w, NativeWatcher.init nativeEnv = .ok w ∧ PeersFollow nativeEnv
      [nodeAt "self" "10.0.0.5", nodeAt "b" "10.0.0.2", nodeAt "c" "10.0.0.3"]
      (w.run nativeEnv [[nodeAt "b" "10.0.0.2"],
        [nodeAt "self" "10.0.0.5", nodeAt "b" "10.0.0.2", nodeAt "c" "10.0.0.3"]]).manager :=
  ⟨_, rfl, peers_follow_nodes nativeEnv _ rfl [[nodeAt "b" "10.0.0.2"]] _ (by decide)
    (by decide +kernel)⟩

end Example

end NovaNet
