import NovaNet.Grpc
import NovaNet.IterOrder
import NovaNet.LastWrite
import Mathlib.Data.String.Basic

/-! The node watcher of the overlay mode (internal/agent/setup_routing.go) with the tunnel
manager (internal/tunnel/manager.go) and the tunnel calls of the dataplane. The manager knows a
tunnel by the name of its node, the dataplane by the address. -/

namespace NovaNet

open Finmap List Net Option

section Nodes

inductive NodeAddressType where
  | hostname
  | internalIp
  | externalIp
  | internalDns
  | externalDns
  deriving DecidableEq

structure NodeAddress where
  type : NodeAddressType
  address : String

structure ClusterNode where
  name : String
  podCidr : String
  addresses : List NodeAddress

def nodeInternalIp (n : ClusterNode) : String :=
  ((n.addresses.find? (·.type = .internalIp)).map NodeAddress.address).getD ""

end Nodes

inductive TunnelProtocol where
  | geneve
  | vxlan

def TunnelProtocol.interfaceName : TunnelProtocol → String
  | .geneve => "nv_geneve"
  | .vxlan => "nvx0"

structure TunnelInfo where
  nodeName : String
  nodeIp : String
  podCidr : String
  interfaceName : String
  ifindex : Nat

/-- One interface serves all tunnels; it is created with the first. -/
structure TunnelManager where
  protocol : TunnelProtocol
  tunnelIfName : String
  tunnelIfindex : Nat
  tunnels : Finmap fun _ : String => TunnelInfo

def newTunnelManager (protocol : TunnelProtocol) : TunnelManager := ⟨protocol, "", 0, ∅⟩

inductive TunnelError where
  | invalidNodeIp (nodeIp : String)

namespace TunnelManager

def ensureTunnelInterface (created : Nat) (m : TunnelManager) : TunnelManager :=
  if m.tunnelIfindex ≠ 0 then m
  else { m with tunnelIfName := m.protocol.interfaceName, tunnelIfindex := created }

def removeTunnel (nodeName : String) (m : TunnelManager) : TunnelManager :=
  { m with tunnels := m.tunnels.erase nodeName }

/-- The watcher's manager has no dataplane client of its own. -/
def addTunnel (created : Nat) (nodeName nodeIp podCidr : String) (m : TunnelManager) :
    Except TunnelError TunnelManager :=
  match parseIp nodeIp with
  | none => .error (.invalidNodeIp nodeIp)
  | some _ =>
    let m := (m.removeTunnel nodeName).ensureTunnelInterface created
    .ok { m with
      tunnels := m.tunnels.insert nodeName
        ⟨nodeName, nodeIp, podCidr, m.tunnelIfName, m.tunnelIfindex⟩ }

def listTunnels (o : IterOrder String) (m : TunnelManager) : List TunnelInfo :=
  (o.enum [] m.tunnels.keys).filterMap m.tunnels.lookup

end TunnelManager

open TunnelManager

structure TunnelEntry where
  ifindex : UInt32
  vni : UInt32
  deriving DecidableEq

abbrev TunnelMap := Finmap fun _ : Net.IP => TunnelEntry

def upsertTunnel (nodeIp : String) (entry : TunnelEntry) (tunnels : TunnelMap) :
    Except GrpcError TunnelMap := do
  let ip ← parseIpField nodeIp
  .ok (tunnels.insert ip entry)

def deleteTunnel (nodeIp : String) (tunnels : TunnelMap) : Except GrpcError TunnelMap := do
  let ip ← parseIpField nodeIp
  .ok (tunnels.erase ip)

def orLogged (tunnels : TunnelMap) (r : Except GrpcError TunnelMap) : TunnelMap :=
  match r with
  | .ok tunnels' => tunnels'
  | .error _ => tunnels

structure NodeWatcher where
  manager : TunnelManager
  tunnels : TunnelMap

def newNodeWatcher (protocol : TunnelProtocol) : NodeWatcher := ⟨newTunnelManager protocol, ∅⟩

/-- What the watcher meets: its own node and the index of the tunnel interface. -/
structure WatchEnv where
  selfNode : String
  created : Nat

namespace NodeWatcher

variable (env : WatchEnv)

def ensureTunnel (nodeName nodeIp podCidr : String) (parsed : Net.IP) (nw : NodeWatcher) :
    NodeWatcher :=
  match nw.manager.tunnels.lookup nodeName with
  | some _ => nw
  | none =>
    match nw.manager.addTunnel env.created nodeName nodeIp podCidr with
    | .error _ => nw
    | .ok m =>
      match m.tunnels.lookup nodeName with
      | none => { nw with manager := m }
      | some info =>
        ⟨m, orLogged nw.tunnels (upsertTunnel parsed.string ⟨UInt32.ofNat info.ifindex, 1⟩ nw.tunnels)⟩

def reconcileNode (s : NodeWatcher × Finset String) (n : ClusterNode) : NodeWatcher × Finset String :=
  if n.name = env.selfNode ∨ n.podCidr = "" ∨ nodeInternalIp n = "" then s
  else
    match parseIp (nodeInternalIp n) with
    | none => s
    | some ip => (s.1.ensureTunnel env n.name (nodeInternalIp n) n.podCidr ip, insert n.name s.2)

def reconcileNodes (nodes : List ClusterNode) (nw : NodeWatcher) : NodeWatcher × Finset String :=
  nodes.foldl (reconcileNode env) (nw, ∅)

def cleanupTunnel (seen : Finset String) (nw : NodeWatcher) (t : TunnelInfo) : NodeWatcher :=
  if t.nodeName ∈ seen then nw
  else
    ⟨nw.manager.removeTunnel t.nodeName,
      if t.nodeIp ≠ "" then orLogged nw.tunnels (deleteTunnel t.nodeIp nw.tunnels)
      else nw.tunnels⟩

def cleanupStaleTunnels (o : IterOrder String) (seen : Finset String) (nw : NodeWatcher) :
    NodeWatcher :=
  (nw.manager.listTunnels o).foldl (cleanupTunnel seen) nw

def round (nw : NodeWatcher) (r : List ClusterNode × IterOrder String) : NodeWatcher :=
  (nw.reconcileNodes env r.1).1.cleanupStaleTunnels r.2 (nw.reconcileNodes env r.1).2

def run (nw : NodeWatcher) (rounds : List (List ClusterNode × IterOrder String)) : NodeWatcher :=
  rounds.foldl (round env) nw

end NodeWatcher

def addressOf (s : String) : Option Net.IP := (parseIp s).map Net.IP.normalize

def WatchEnv.Remote (env : WatchEnv) (n : ClusterNode) : Prop :=
  n.name ≠ env.selfNode ∧ n.podCidr ≠ "" ∧ (parseIp (nodeInternalIp n)).isSome = true

instance (env : WatchEnv) : DecidablePred env.Remote := fun _ => inferInstanceAs (Decidable (_ ∧ _))

def TunnelsMatch (env : WatchEnv) (nodes : List ClusterNode) (tunnels : TunnelMap) : Prop :=
  ∀ ip, ip ∈ tunnels ↔ ∃ n ∈ nodes, env.Remote n ∧ addressOf (nodeInternalIp n) = some ip

namespace NodeWatcher

/-- A round that the watcher can follow. A node with a tunnel has kept its address; and the
address of a node that has gone is no other's now, and its text is the one that is printed. -/
structure Steady (env : WatchEnv) (nw : NodeWatcher) (nodes : List ClusterNode) : Prop where
  kept : ∀ n ∈ nodes, env.Remote n → ∀ t ∈ nw.manager.tunnels.lookup n.name,
    addressOf t.nodeIp = addressOf (nodeInternalIp n)
  gone : ∀ k ∈ nw.manager.tunnels.keys, ∀ t ∈ nw.manager.tunnels.lookup k,
    (∀ n ∈ nodes, env.Remote n → n.name ≠ k) → parseIp t.nodeIp = addressOf t.nodeIp ∧
      ∀ n ∈ nodes, env.Remote n → addressOf (nodeInternalIp n) ≠ addressOf t.nodeIp

instance (env : WatchEnv) (nw : NodeWatcher) (nodes : List ClusterNode) :
    Decidable (nw.Steady env nodes) :=
  decidable_of_iff (_ ∧ _) ⟨fun h => Steady.mk h.1 h.2, fun h => ⟨h.kept, h.gone⟩⟩

def SteadyRun (env : WatchEnv) (nw : NodeWatcher) : List (List ClusterNode × IterOrder String) → Prop
  | [] => True
  | r :: rounds => nw.Steady env r.1 ∧ SteadyRun env (nw.round env r) rounds

instance decidableSteadyRun (env : WatchEnv) : ∀ (nw : NodeWatcher)
    (rounds : List (List ClusterNode × IterOrder String)), Decidable (nw.SteadyRun env rounds)
  | _, [] => isTrue trivial
  | nw, r :: rounds =>
    have := decidableSteadyRun env (nw.round env r) rounds
    inferInstanceAs (Decidable (_ ∧ _))

structure Recorded (nw : NodeWatcher) : Prop where
  named : ∀ k t, nw.manager.tunnels.lookup k = some t → t.nodeName = k
  valid : ∀ k t, nw.manager.tunnels.lookup k = some t → (parseIp t.nodeIp).isSome = true
  keys : ∀ ip, ip ∈ nw.tunnels ↔
    ∃ k t, nw.manager.tunnels.lookup k = some t ∧ addressOf t.nodeIp = some ip

variable {env : WatchEnv} {nw nw' : NodeWatcher} {nodes : List ClusterNode}

theorem parseIp_empty : parseIp "" = none := by decide

variable {rounds : List (List ClusterNode × IterOrder String)} {n : ClusterNode} {ip : Net.IP}

theorem nonempty_of_remote (h : env.Remote n) : nodeInternalIp n ≠ "" := by
  intro he
  have hsome := h.2.2
  simp [he, parseIp_empty] at hsome

theorem tunnels_ensureTunnelInterface (created : Nat) (m : TunnelManager) :
    (m.ensureTunnelInterface created).tunnels = m.tunnels := by
  unfold ensureTunnelInterface
  split <;> rfl

theorem addTunnel_valid (created : Nat) (nodeName podCidr : String) (m : TunnelManager)
    {nodeIp : String} (hip : parseIp nodeIp = some ip) :
    ∃ m' t, m.addTunnel created nodeName nodeIp podCidr = .ok m' ∧ t.nodeName = nodeName ∧
      t.nodeIp = nodeIp ∧
      ∀ k, m'.tunnels.lookup k = if k = nodeName then some t else m.tunnels.lookup k := by
  unfold addTunnel
  rw [hip]
  refine ⟨_, ⟨nodeName, nodeIp, podCidr,
    ((m.removeTunnel nodeName).ensureTunnelInterface created).tunnelIfName,
    ((m.removeTunnel nodeName).ensureTunnelInterface created).tunnelIfindex⟩,
    rfl, rfl, rfl, fun k => ?_⟩
  simp only [tunnels_ensureTunnelInterface, removeTunnel]
  by_cases hk : k = nodeName
  · rw [if_pos hk, hk, lookup_insert]
  · rw [if_neg hk, lookup_insert_of_ne _ hk, lookup_erase_ne hk]

structure AddsTunnel (n : ClusterNode) (nw nw' : NodeWatcher) : Prop where
  record : ∃ t, t.nodeName = n.name ∧ t.nodeIp = nodeInternalIp n ∧
    ∀ k, nw'.manager.tunnels.lookup k =
      if k = n.name then some t else nw.manager.tunnels.lookup k
  keys : ∀ ip, ip ∈ nw'.tunnels ↔ addressOf (nodeInternalIp n) = some ip ∨ ip ∈ nw.tunnels

theorem ensureTunnel_new (env : WatchEnv) (hip : parseIp (nodeInternalIp n) = some ip)
    (hnew : nw.manager.tunnels.lookup n.name = none) :
    AddsTunnel n nw (nw.ensureTunnel env n.name (nodeInternalIp n) n.podCidr ip) := by
  have haddr : addressOf (nodeInternalIp n) = some ip.normalize := by rw [addressOf, hip]; rfl
  obtain ⟨m', t, hadd, hname, hnodeIp, hlookup⟩ :=
    addTunnel_valid env.created n.name n.podCidr nw.manager hip
  have hown : m'.tunnels.lookup n.name = some t := by rw [hlookup, if_pos rfl]
  have hresult : nw.ensureTunnel env n.name (nodeInternalIp n) n.podCidr ip =
      ⟨m', nw.tunnels.insert ip.normalize ⟨UInt32.ofNat t.ifindex, 1⟩⟩ := by
    rw [ensureTunnel, hnew]
    simp only [hadd, hown, upsertTunnel, parseIpField_string]
    rfl
  rw [hresult]
  refine ⟨⟨t, hname, hnodeIp, hlookup⟩, fun ip' => ?_⟩
  rw [haddr, some.injEq]
  exact mem_insert.trans (or_congr_left eq_comm)

theorem Recorded.adds (h : nw.Recorded) (hadds : AddsTunnel n nw nw')
    (hvalid : (parseIp (nodeInternalIp n)).isSome = true)
    (hnew : nw.manager.tunnels.lookup n.name = none) : nw'.Recorded := by
  obtain ⟨t, hname, hip, hlookup⟩ := hadds.record
  refine ⟨fun k t' hk => ?_, fun k t' hk => ?_, fun ip => ?_⟩
  · rw [hlookup] at hk
    split at hk
    · rename_i heq
      rw [← some.inj hk, hname, heq]
    · exact h.named k t' hk
  · rw [hlookup] at hk
    split at hk
    · rwa [← some.inj hk, hip]
    · exact h.valid k t' hk
  · rw [hadds.keys, h.keys]
    constructor
    · rintro (haddr | ⟨k, t', hk, haddr⟩)
      · exact ⟨n.name, t, by rw [hlookup, if_pos rfl], by rw [hip, haddr]⟩
      · have hne : k ≠ n.name := fun heq => by rw [heq, hnew] at hk; cases hk
        exact ⟨k, t', by rw [hlookup, if_neg hne, hk], haddr⟩
    · rintro ⟨k, t', hk, haddr⟩
      rw [hlookup] at hk
      split at hk
      · rw [← some.inj hk, hip] at haddr
        exact .inl haddr
      · exact .inr ⟨k, t', hk, haddr⟩

theorem Recorded.ensureTunnel (h : nw.Recorded) (env : WatchEnv)
    (hip : parseIp (nodeInternalIp n) = some ip)
    (hkept : ∀ t, nw.manager.tunnels.lookup n.name = some t →
      addressOf t.nodeIp = addressOf (nodeInternalIp n)) :
    ∃ nw' t, nw.ensureTunnel env n.name (nodeInternalIp n) n.podCidr ip = nw' ∧ nw'.Recorded ∧
      nw'.manager.tunnels.lookup n.name = some t ∧
      addressOf t.nodeIp = addressOf (nodeInternalIp n) ∧
      ∀ k, k ≠ n.name → nw'.manager.tunnels.lookup k = nw.manager.tunnels.lookup k := by
  cases hold : nw.manager.tunnels.lookup n.name with
  | some t =>
    exact ⟨nw, t, by rw [NodeWatcher.ensureTunnel, hold], h, hold, hkept t hold, fun _ _ => rfl⟩
  | none =>
    have hadds := ensureTunnel_new env hip hold
    obtain ⟨t, -, hnodeIp, hlookup⟩ := hadds.record
    exact ⟨_, t, rfl, h.adds hadds (by rw [hip]; rfl) hold, by rw [hlookup, if_pos rfl],
      by rw [hnodeIp], fun k hk => by rw [hlookup, if_neg hk]⟩

structure Reconciled (env : WatchEnv) (nw : NodeWatcher) (done : List ClusterNode)
    (s : NodeWatcher × Finset String) : Prop where
  recorded : s.1.Recorded
  seen : ∀ name, name ∈ s.2 ↔ ∃ n ∈ done, env.Remote n ∧ n.name = name
  listed : ∀ n ∈ done, env.Remote n → ∃ t, s.1.manager.tunnels.lookup n.name = some t ∧
    addressOf t.nodeIp = addressOf (nodeInternalIp n)
  others : ∀ k, (∀ n ∈ done, env.Remote n → n.name ≠ k) →
    s.1.manager.tunnels.lookup k = nw.manager.tunnels.lookup k

theorem reconcileNode_of_not_remote (h : ¬ env.Remote n) (s : NodeWatcher × Finset String) :
    reconcileNode env s n = s := by
  unfold reconcileNode
  split
  · rfl
  · rename_i hskip
    rw [not_or, not_or] at hskip
    cases hip : parseIp (nodeInternalIp n) with
    | none => rfl
    | some ip => exact absurd ⟨hskip.1, hskip.2.1, by rw [hip]; rfl⟩ h

theorem reconcileNode_of_remote (h : env.Remote n) (s : NodeWatcher × Finset String) :
    ∃ ip, parseIp (nodeInternalIp n) = some ip ∧
      reconcileNode env s n =
        (s.1.ensureTunnel env n.name (nodeInternalIp n) n.podCidr ip, insert n.name s.2) := by
  obtain ⟨ip, hip⟩ := isSome_iff_exists.mp h.2.2
  refine ⟨ip, hip, ?_⟩
  unfold reconcileNode
  rw [if_neg (by simp [h.1, h.2.1, nonempty_of_remote h]), hip]

theorem Reconciled.step {done : List ClusterNode} {s : NodeWatcher × Finset String}
    (h : Reconciled env nw done s) (hnew : ∀ n' ∈ done, n'.name ≠ n.name)
    (hkept : env.Remote n → ∀ t, nw.manager.tunnels.lookup n.name = some t →
      addressOf t.nodeIp = addressOf (nodeInternalIp n)) :
    Reconciled env nw (done ++ [n]) (reconcileNode env s n) := by
  by_cases hremote : env.Remote n
  · obtain ⟨ip, hip, hstep⟩ := reconcileNode_of_remote hremote s
    have hsame := h.others n.name fun n' hn' _ => hnew n' hn'
    obtain ⟨nw', t, hensure, hrec, ht, haddr, hothers⟩ :=
      h.recorded.ensureTunnel env hip fun t ht => hkept hremote t (hsame.symm.trans ht)
    rw [hstep, hensure]
    refine ⟨hrec, fun name => ?_, fun n' hn' hr' => ?_, fun k hk => ?_⟩
    · rw [Finset.mem_insert, h.seen, or_comm]
      simp only [mem_append, List.mem_singleton, or_and_right, exists_or]
      refine or_congr_right ⟨fun heq => ⟨n, rfl, hremote, heq.symm⟩, ?_⟩
      rintro ⟨_, rfl, _, heq⟩
      exact heq.symm
    · rcases mem_append.mp hn' with hn' | hn'
      · rw [hothers _ (hnew n' hn')]
        exact h.listed n' hn' hr'
      · rw [List.mem_singleton.mp hn']
        exact ⟨t, ht, haddr⟩
    · rw [hothers k fun heq => hk n (by simp) hremote heq.symm]
      exact h.others k fun n' hn' => hk n' (mem_append_left _ hn')
  · rw [reconcileNode_of_not_remote hremote]
    have hold (n') (hn' : n' ∈ done ++ [n]) (hr' : env.Remote n') : n' ∈ done := by
      rcases mem_append.mp hn' with hn' | hn'
      · exact hn'
      · exact absurd (List.mem_singleton.mp hn' ▸ hr') hremote
    refine ⟨h.recorded, fun name => ?_, fun n' hn' hr' => h.listed n' (hold n' hn' hr') hr',
      fun k hk => h.others k fun n' hn' => hk n' (mem_append_left _ hn')⟩
    rw [h.seen]
    constructor
    · rintro ⟨n', hn', hrest⟩
      exact ⟨n', mem_append_left _ hn', hrest⟩
    · rintro ⟨n', hn', hr', heq⟩
      exact ⟨n', hold n' hn' hr', hr', heq⟩

theorem reconcileNodes_reconciled (h : nw.Recorded) (hnames : (nodes.map ClusterNode.name).Nodup)
    (hsteady : nw.Steady env nodes) : Reconciled env nw nodes (nw.reconcileNodes env nodes) := by
  have hloop : ∀ (rest done : List ClusterNode) (s : NodeWatcher × Finset String),
      Reconciled env nw done s → done ++ rest = nodes →
      Reconciled env nw nodes (rest.foldl (reconcileNode env) s) := by
    intro rest
    induction rest with
    | nil =>
      intro done s hs hsplit
      rw [append_nil] at hsplit
      exact hsplit ▸ hs
    | cons n rest ih =>
      intro done s hs hsplit
      have hnodup := hnames
      rw [← hsplit, map_append, nodup_append] at hnodup
      refine ih (done ++ [n]) _ (hs.step (fun n' hn' heq => ?_) fun hr t ht => ?_) (by simp [hsplit])
      · exact hnodup.2.2 _ (List.mem_map_of_mem hn') _ (by simp) heq
      · exact hsteady.kept n (by rw [← hsplit]; simp) hr t ht
  exact hloop nodes [] _ ⟨h, by simp, by simp, fun _ _ => rfl⟩ rfl

variable {s : NodeWatcher × Finset String} {o : IterOrder String}

theorem Reconciled.addresses (h : Reconciled env nw nodes s) :
    (∃ k t, k ∈ s.2 ∧ s.1.manager.tunnels.lookup k = some t ∧ addressOf t.nodeIp = some ip) ↔
      ∃ n ∈ nodes, env.Remote n ∧ addressOf (nodeInternalIp n) = some ip := by
  constructor
  · rintro ⟨k, t, hseen, hk, haddr⟩
    obtain ⟨n, hn, hr, rfl⟩ := (h.seen k).mp hseen
    obtain ⟨t', ht', haddr'⟩ := h.listed n hn hr
    rw [hk, some.injEq] at ht'
    exact ⟨n, hn, hr, by rw [← haddr', ← ht', haddr]⟩
  · rintro ⟨n, hn, hr, haddr⟩
    obtain ⟨t, ht, haddr'⟩ := h.listed n hn hr
    exact ⟨n.name, t, (h.seen _).mpr ⟨n, hn, hr, rfl⟩, ht, by rw [haddr', haddr]⟩

theorem mem_deleteTunnel {tunnels : TunnelMap} (nodeIp : String) :
    ip ∈ orLogged tunnels (deleteTunnel nodeIp tunnels) ↔ parseIp nodeIp ≠ some ip ∧ ip ∈ tunnels := by
  unfold deleteTunnel parseIpField
  cases hip : parseIp nodeIp with
  | none =>
    change ip ∈ tunnels ↔ _
    simp
  | some ip' =>
    change ip ∈ tunnels.erase ip' ↔ _
    rw [mem_erase, Ne, Ne, some.injEq, eq_comm]

theorem foldl_cleanupTunnel (seen : Finset String) (l : List TunnelInfo) (nw : NodeWatcher) :
    (∀ k, (l.foldl (cleanupTunnel seen) nw).manager.tunnels.lookup k =
      if k ∉ seen ∧ ∃ t ∈ l, t.nodeName = k then none else nw.manager.tunnels.lookup k) ∧
    ∀ ip, ip ∈ (l.foldl (cleanupTunnel seen) nw).tunnels ↔ ip ∈ nw.tunnels ∧
      ∀ t ∈ l, t.nodeName ∉ seen → parseIp t.nodeIp ≠ some ip := by
  induction l generalizing nw with
  | nil => simp
  | cons t l ih =>
    obtain ⟨ihlookup, ihkeys⟩ := ih (cleanupTunnel seen nw t)
    rw [foldl_cons]
    by_cases hseen : t.nodeName ∈ seen
    · have hidle : cleanupTunnel seen nw t = nw := if_pos hseen
      rw [hidle] at ihlookup ihkeys ⊢
      refine ⟨fun k => ?_, fun ip => ?_⟩
      · rw [ihlookup]
        refine if_congr (and_congr_right fun hk => ?_) rfl rfl
        have hne : t.nodeName ≠ k := fun heq => hk (heq ▸ hseen)
        simp [hne]
      · rw [ihkeys, forall_mem_cons]
        simp [hseen]
    · have hstep : cleanupTunnel seen nw t = ⟨nw.manager.removeTunnel t.nodeName,
          if t.nodeIp ≠ "" then orLogged nw.tunnels (deleteTunnel t.nodeIp nw.tunnels)
          else nw.tunnels⟩ := if_neg hseen
      refine ⟨fun k => ?_, fun ip => ?_⟩
      · rw [ihlookup, hstep]
        change (if _ then none else (nw.manager.tunnels.erase t.nodeName).lookup k) = _
        by_cases hk : k = t.nodeName
        · rw [hk, lookup_erase, ite_self, if_pos ⟨hseen, t, mem_cons_self, rfl⟩]
        · rw [lookup_erase_ne hk]
          refine if_congr (and_congr_right fun _ => ?_) rfl rfl
          simp [Ne.symm hk]
      · have hkeys : ip ∈ (cleanupTunnel seen nw t).tunnels ↔
            parseIp t.nodeIp ≠ some ip ∧ ip ∈ nw.tunnels := by
          rw [hstep]
          change ip ∈ (if _ then _ else _ : TunnelMap) ↔ _
          by_cases hempty : t.nodeIp = ""
          · rw [if_neg (not_not_intro hempty), hempty, parseIp_empty]
            simp
          · rw [if_pos hempty, mem_deleteTunnel]
        rw [ihkeys, hkeys, forall_mem_cons]
        tauto

theorem mem_listTunnels {m : TunnelManager} {t : TunnelInfo} :
    t ∈ m.listTunnels o ↔ ∃ k, m.tunnels.lookup k = some t := by
  unfold listTunnels
  simp only [mem_filterMap, IterOrder.mem_enum, Finmap.mem_keys]
  constructor
  · rintro ⟨k, -, hk⟩
    exact ⟨k, hk⟩
  · rintro ⟨k, hk⟩
    exact ⟨k, mem_of_lookup_eq_some hk, hk⟩

theorem Reconciled.cleanup_tunnelsMatch (h : Reconciled env nw nodes s)
    (hsteady : nw.Steady env nodes) :
    TunnelsMatch env nodes (s.1.cleanupStaleTunnels o s.2).tunnels := by
  have hgone : ∀ k t, s.1.manager.tunnels.lookup k = some t → k ∉ s.2 →
      parseIp t.nodeIp = addressOf t.nodeIp ∧
        ∀ n ∈ nodes, env.Remote n → addressOf (nodeInternalIp n) ≠ addressOf t.nodeIp := by
    intro k t hk hseen
    have hother : ∀ n ∈ nodes, env.Remote n → n.name ≠ k :=
      fun n hn hr heq => hseen ((h.seen k).mpr ⟨n, hn, hr, heq⟩)
    have hold := (h.others k hother).symm.trans hk
    exact hsteady.gone k (mem_of_lookup_eq_some hold) t hold hother
  intro ip
  refine ((foldl_cleanupTunnel s.2 (s.1.manager.listTunnels o) s.1).2 ip).trans ?_
  rw [h.recorded.keys]
  constructor
  · rintro ⟨⟨k, t, hk, haddr⟩, hkept⟩
    by_cases hseen : k ∈ s.2
    · exact h.addresses.mp ⟨k, t, hseen, hk, haddr⟩
    · have hname := h.recorded.named k t hk
      refine absurd ?_ (hkept t (mem_listTunnels.mpr ⟨k, hk⟩) (by rwa [hname]))
      rw [(hgone k t hk hseen).1, haddr]
  · rintro ⟨n, hn, hr, haddr⟩
    obtain ⟨k, t, -, hk, hip⟩ := h.addresses.mpr ⟨n, hn, hr, haddr⟩
    refine ⟨⟨k, t, hk, hip⟩, fun t' ht' hseen hparse => ?_⟩
    obtain ⟨k, hk⟩ := mem_listTunnels.mp ht'
    rw [h.recorded.named k t' hk] at hseen
    obtain ⟨hprinted, hfree⟩ := hgone k t' hk hseen
    exact hfree n hn hr (by rw [haddr, ← hprinted, hparse])

theorem Reconciled.cleanup_recorded (h : Reconciled env nw nodes s)
    (hsteady : nw.Steady env nodes) : (s.1.cleanupStaleTunnels o s.2).Recorded := by
  have hlookup : ∀ k t, (s.1.cleanupStaleTunnels o s.2).manager.tunnels.lookup k = some t ↔
      k ∈ s.2 ∧ s.1.manager.tunnels.lookup k = some t := by
    intro k t
    have hclean := (foldl_cleanupTunnel s.2 (s.1.manager.listTunnels o) s.1).1 k
    refine (Eq.congr_left hclean).trans ?_
    by_cases hseen : k ∈ s.2
    · rw [if_neg fun hc => hc.1 hseen]
      exact (and_iff_right hseen).symm
    · refine ⟨fun hk => ?_, fun hk => absurd hk.1 hseen⟩
      split at hk
      · cases hk
      · rename_i hcond
        exact absurd ⟨hseen, t, mem_listTunnels.mpr ⟨k, hk⟩, h.recorded.named k t hk⟩ hcond
  refine ⟨fun k t hk => h.recorded.named k t ((hlookup k t).mp hk).2,
    fun k t hk => h.recorded.valid k t ((hlookup k t).mp hk).2, fun ip => ?_⟩
  rw [h.cleanup_tunnelsMatch hsteady ip, ← h.addresses]
  simp only [hlookup, and_assoc]

theorem run_recorded (h : nw.Recorded) (hnames : ∀ r ∈ rounds, (r.1.map ClusterNode.name).Nodup)
    (hsteady : nw.SteadyRun env rounds) : (nw.run env rounds).Recorded := by
  induction rounds generalizing nw with
  | nil => exact h
  | cons r rounds ih =>
    obtain ⟨hr, hrest⟩ := forall_mem_cons.mp hnames
    have hround := reconcileNodes_reconciled h hr hsteady.1
    exact ih (hround.cleanup_recorded hsteady.1) hrest hsteady.2

theorem steadyRun_append {rounds' : List (List ClusterNode × IterOrder String)} :
    nw.SteadyRun env (rounds ++ rounds') ↔
      nw.SteadyRun env rounds ∧ (nw.run env rounds).SteadyRun env rounds' := by
  induction rounds generalizing nw with
  | nil => simp [SteadyRun, run]
  | cons r rounds ih =>
    rw [cons_append, SteadyRun, SteadyRun, ih, and_assoc]
    rfl

end NodeWatcher

/-- In a run of steady rounds TUNNELS holds after each round, here the last of any such run,
exactly the addresses of the remote nodes in its list. -/
theorem tunnels_follow_nodes (env : WatchEnv) (protocol : TunnelProtocol)
    (rounds : List (List ClusterNode × IterOrder String)) (nodes : List ClusterNode)
    (o : IterOrder String)
    (hnames : ∀ r ∈ rounds ++ [(nodes, o)], (r.1.map ClusterNode.name).Nodup)
    (hsteady : (newNodeWatcher protocol).SteadyRun env (rounds ++ [(nodes, o)])) :
    TunnelsMatch env nodes ((newNodeWatcher protocol).run env (rounds ++ [(nodes, o)])).tunnels := by
  obtain ⟨hbefore, hlast⟩ := NodeWatcher.steadyRun_append.mp hsteady
  obtain ⟨hnames, hnodes⟩ := forall_mem_append.mp hnames
  have hstart : (newNodeWatcher protocol).Recorded :=
    ⟨by simp [newNodeWatcher, newTunnelManager], by simp [newNodeWatcher, newTunnelManager],
      by simp [newNodeWatcher, newTunnelManager, notMem_empty]⟩
  have hrecorded := NodeWatcher.run_recorded hstart hnames hbefore
  rw [NodeWatcher.run, foldl_append]
  have hround := NodeWatcher.reconcileNodes_reconciled hrecorded (hnodes _ mem_cons_self) hlast.1
  exact hround.cleanup_tunnelsMatch hlast.1

section Example

def nodeAt (name ip : String) : ClusterNode := ⟨name, "10.42.1.0/24", [⟨.internalIp, ip⟩]⟩

def watchEnv : WatchEnv := ⟨"self", 7⟩

def tunnelsAfter (rounds : List (List ClusterNode)) : Finset Net.IP :=
  ((newNodeWatcher .geneve).run watchEnv (rounds.map fun nodes => (nodes, .sorted))).tunnels.keys

def steadyRounds : List (List ClusterNode) :=
  [[nodeAt "self" "10.0.0.1", nodeAt "b" "10.0.0.2"],
    [nodeAt "self" "10.0.0.1", nodeAt "b" "10.0.0.2", nodeAt "c" "10.0.0.3"],
    [nodeAt "c" "10.0.0.3", nodeAt "d" "10.0.0.4"]]

/-- A node that changes its address keeps the old tunnel and gets no new one; and a node that
takes the address of one that left loses its tunnel with it. -/
theorem tunnels_miss_renumbering :
    tunnelsAfter [[nodeAt "b" "10.0.0.2"], [nodeAt "b" "10.0.0.3"]] = {.v4 0x0a000002} ∧
    tunnelsAfter [[nodeAt "b" "10.0.0.2"], [nodeAt "c" "10.0.0.2"]] = ∅ := by
  decide +kernel

theorem tunnels_follow_nodes_example : TunnelsMatch watchEnv
    [nodeAt "c" "10.0.0.3", nodeAt "d" "10.0.0.4"] ((newNodeWatcher .geneve).run watchEnv
      (steadyRounds.map fun nodes => (nodes, .sorted))).tunnels :=
  tunnels_follow_nodes watchEnv .geneve ((steadyRounds.take 2).map fun nodes => (nodes, .sorted))
    _ .sorted (by decide) (by decide +kernel)

end Example

end NovaNet
