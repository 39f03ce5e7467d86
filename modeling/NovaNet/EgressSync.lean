import NovaNet.Dataplane
import NovaNet.Compiler

/-! Syncing the CIDR rules: the egress manager of the agent, the two requests of the
dataplane, and the loop that ties them together. -/

namespace NovaNet

open Finmap LastWrite List Option Net

inductive EgressAction where
  | deny
  | allow
  | snat
  deriving DecidableEq

def EgressAction.number : EgressAction → UInt8
  | .deny => 0
  | .allow => 1
  | .snat => 2

structure EgressRule where
  name : String
  srcIdentity : UInt64
  dstCIDR : String
  protocol : UInt8
  dstPort : UInt16
  action : UInt8

structure CompiledEgressRule where
  namespace_ : String
  name : String
  srcIdentity : UInt64
  dstCIDR : Net.IPNet
  protocol : UInt8
  dstPort : UInt16
  action : UInt8
  deriving DecidableEq

def ruleKey (ns name : String) : String := ns ++ "/" ++ name

/-- Every rule is stored under the key of its own namespace and name. -/
structure EgressManager where
  masquerade : Bool
  rules : Finmap fun _ : String => CompiledEgressRule
  keyed : ∀ key r, rules.lookup key = some r → ruleKey r.namespace_ r.name = key

namespace EgressManager

theorem keyed_empty (key : String) (r : CompiledEgressRule)
    (h : (∅ : Finmap fun _ : String => CompiledEgressRule).lookup key = some r) :
    ruleKey r.namespace_ r.name = key := nomatch h

def store (m : EgressManager) (r : CompiledEgressRule) : EgressManager where
  masquerade := m.masquerade
  rules := m.rules.insert (ruleKey r.namespace_ r.name) r
  keyed := by
    intro key x hx
    rcases lookup_insert_eq_some hx with ⟨rfl, rfl⟩ | ⟨-, hold⟩
    · rfl
    · exact m.keyed key x hold

def addEgressRule (m : EgressManager) (ns : String) (rule : EgressRule) : Option EgressManager :=
  (parseCIDR rule.dstCIDR).map fun cidr =>
    m.store
      { namespace_ := ns, name := rule.name, srcIdentity := rule.srcIdentity, dstCIDR := cidr
        protocol := rule.protocol, dstPort := rule.dstPort, action := rule.action }

def removeEgressRule (m : EgressManager) (ns name : String) : EgressManager where
  masquerade := m.masquerade
  rules := m.rules.erase (ruleKey ns name)
  keyed := by
    intro key x hx
    exact m.keyed key x (lookup_erase_eq_some hx).2

def getRules (m : EgressManager) (o : IterOrder String) : List CompiledEgressRule :=
  (o.enum [] m.rules.keys).filterMap fun key => m.rules.lookup key

end EgressManager

theorem mem_getRules {m : EgressManager} {o : IterOrder String} {r : CompiledEgressRule} :
    r ∈ m.getRules o ↔ m.rules.lookup (ruleKey r.namespace_ r.name) = some r := by
  simp only [EgressManager.getRules, mem_filterMap, o.mem_enum, Finmap.mem_keys]
  constructor
  · rintro ⟨key, -, hkey⟩
    rw [m.keyed key r hkey]
    exact hkey
  · intro h
    exact ⟨_, mem_of_lookup_eq_some h, h⟩

structure EgressKeyV6 where
  srcIdentity : UInt32
  dstIp : BitVec 128
  dstPrefixLen : UInt8
  deriving DecidableEq

structure EgressValueV6 where
  action : UInt8
  snatIp : BitVec 128
  deriving DecidableEq

/-- The IPv6 map is absent when the programs were built without it. -/
structure EgressMaps where
  v4 : EgressMap
  v6 : Option (Finmap fun _ : EgressKeyV6 => EgressValueV6)

inductive RpcError where
  | invalidIp (text : String)
  | familyMismatch
  | mapNotLoaded
  | keyNotFound
  deriving DecidableEq

structure UpsertEgressPolicyRequest where
  srcIdentity : UInt32
  dstCidr : String
  dstCidrPrefixLen : UInt32
  protocol : UInt32
  dstPort : UInt32
  action : EgressAction
  snatIp : String

structure DeleteEgressPolicyRequest where
  srcIdentity : UInt32
  dstCidr : String
  dstCidrPrefixLen : UInt32

namespace EgressMaps

/-- The protocol and the port of the request are not part of the key. -/
def upsertEgressPolicy (m : EgressMaps) (req : UpsertEgressPolicyRequest) :
    Except RpcError EgressMaps :=
  let len := req.dstCidrPrefixLen.toUInt8
  match parseIp (stripPrefixLen req.dstCidr) with
  | none => .error (.invalidIp (stripPrefixLen req.dstCidr))
  | some dst =>
    match parseIp req.snatIp with
    | none => .error (.invalidIp req.snatIp)
    | some snat =>
      match dst, snat with
      | .v4 d, .v4 a =>
        .ok { m with v4 := m.v4.insert ⟨req.srcIdentity, d, len⟩ ⟨req.action.number, a⟩ }
      | .v6 d, .v6 a =>
        match m.v6 with
        | none => .error .mapNotLoaded
        | some v6 =>
          .ok { m with v6 := some (v6.insert ⟨req.srcIdentity, d, len⟩ ⟨req.action.number, a⟩) }
      | _, _ => .error .familyMismatch

def deleteEgressPolicy (m : EgressMaps) (req : DeleteEgressPolicyRequest) :
    Except RpcError EgressMaps :=
  let len := req.dstCidrPrefixLen.toUInt8
  match parseIp (stripPrefixLen req.dstCidr) with
  | none => .error (.invalidIp (stripPrefixLen req.dstCidr))
  | some (.v4 d) =>
    let key : EgressKey := ⟨req.srcIdentity, d, len⟩
    if key ∈ m.v4 then .ok { m with v4 := m.v4.erase key } else .error .keyNotFound
  | some (.v6 d) =>
    match m.v6 with
    | none => .error .mapNotLoaded
    | some v6 =>
      let key : EgressKeyV6 := ⟨req.srcIdentity, d, len⟩
      if key ∈ v6 then .ok { m with v6 := some (v6.erase key) } else .error .keyNotFound

end EgressMaps

structure EgressMapKey where
  srcIdentity : UInt64
  dstCidr : String
  dstPrefixLen : UInt32
  deriving DecidableEq

open EgressMapKey

def mapKey (srcIdentity : UInt64) (net : Net.IPNet) : EgressMapKey :=
  ⟨srcIdentity, net.string, UInt32.ofNat net.ones⟩

def nodeIPString : Option Net.IP → String
  | some ip => ip.string
  | none => "<nil>"

structure Server where
  nodeIP : Option Net.IP
  egressMgr : EgressManager
  prevEgressKeys : Finset EgressMapKey

/-- Loop state of a sync; `rpcErrors` counts the requests that failed, which the
agent only logs. -/
structure EgressLoop where
  mgr : EgressManager
  maps : EgressMaps
  newKeys : Finset EgressMapKey
  rpcErrors : Nat

namespace EgressLoop

def rpc (st : EgressLoop) (r : Except RpcError EgressMaps) : EgressLoop :=
  match r with
  | .ok maps => { st with maps := maps }
  | .error _ => { st with rpcErrors := st.rpcErrors + 1 }

def ruleAction (r : CompiledRule) : EgressAction :=
  if r.action = actionAllow then .allow else .deny

def snatIPStr (mgr : EgressManager) (nodeIP : Option Net.IP) : String :=
  if mgr.masquerade then nodeIPString nodeIP else ""

def upsertRequest (snat : String) (r : CompiledRule) (net : Net.IPNet) : UpsertEgressPolicyRequest where
  srcIdentity := r.srcIdentity.toUInt32
  dstCidr := net.string
  dstCidrPrefixLen := UInt32.ofNat net.ones
  protocol := r.protocol.toUInt32
  dstPort := r.dstPort.toUInt32
  action := ruleAction r
  snatIp := snat

def managerRule (r : CompiledRule) (i : Nat) : EgressRule where
  name := "np-cidr-" ++ Nat.repr i
  srcIdentity := r.srcIdentity
  dstCIDR := r.cidr
  protocol := r.protocol
  dstPort := r.dstPort
  action := (ruleAction r).number

/-- One rule with its index in the list. Whether it is an egress rule is not asked. -/
def pushRule (nodeIP : Option Net.IP) (st : EgressLoop) (e : CompiledRule × Nat) : EgressLoop :=
  if e.1.cidr = "" then st
  else
    match parseCIDR e.1.cidr with
    | none => st
    | some net =>
      let st := { st with
        newKeys := insert (mapKey e.1.srcIdentity net) st.newKeys
        mgr := (st.mgr.addEgressRule e.1.namespace_ (managerRule e.1 e.2)).getD st.mgr }
      st.rpc (st.maps.upsertEgressPolicy (upsertRequest (snatIPStr st.mgr nodeIP) e.1 net))

def deleteStale (st : EgressLoop) (old : EgressMapKey) : EgressLoop :=
  if old ∈ st.newKeys then st
  else st.rpc (st.maps.deleteEgressPolicy ⟨old.srcIdentity.toUInt32, old.dstCidr, old.dstPrefixLen⟩)

/-- Rules of the manager that the new list does not mention are removed, whoever
added them. -/
def removeUnlisted (newKeys : Finset EgressMapKey) (mgr : EgressManager)
    (existing : CompiledEgressRule) : EgressManager :=
  if mapKey existing.srcIdentity existing.dstCIDR ∈ newKeys then mgr
  else mgr.removeEgressRule existing.namespace_ existing.name

end EgressLoop

open EgressLoop

structure EgressOrders where
  keys : IterOrder EgressMapKey
  rules : IterOrder String

def syncEgressRules (o : EgressOrders) (s : Server) (maps : EgressMaps)
    (rules : List CompiledRule) : Server × EgressMaps × Nat :=
  let pushed := rules.zipIdx.foldl (pushRule s.nodeIP) ⟨s.egressMgr, maps, ∅, 0⟩
  let cleaned := (o.keys.enum [] s.prevEgressKeys).foldl deleteStale pushed
  let mgr := (cleaned.mgr.getRules o.rules).foldl (removeUnlisted cleaned.newKeys) cleaned.mgr
  ({ s with egressMgr := mgr, prevEgressKeys := cleaned.newKeys }, cleaned.maps, cleaned.rpcErrors)

def ruleMapKey (r : CompiledRule) : Option EgressMapKey :=
  if r.cidr = "" then none else (parseCIDR r.cidr).map (mapKey r.srcIdentity)

def EgressMapKey.encode (key : EgressMapKey) : Option EgressKey :=
  match parseIp (stripPrefixLen key.dstCidr) with
  | some (.v4 d) => some ⟨key.srcIdentity.toUInt32, d, key.dstPrefixLen.toUInt8⟩
  | _ => none

def snat4 (snat : String) : Option UInt32 :=
  match parseIp snat with
  | some (.v4 a) => some a
  | _ => none

def egressEntry (snat : String) (r : CompiledRule) : Option (EgressKey × EgressValue) :=
  match (ruleMapKey r).bind encode, snat4 snat with
  | some k, some a => some (k, ⟨(ruleAction r).number, a⟩)
  | _, _ => none

namespace EgressLoop

variable {st : EgressLoop} {nodeIP : Option Net.IP} {e : CompiledRule × Nat}

@[simp] theorem rpc_newKeys (r : Except RpcError EgressMaps) : (st.rpc r).newKeys = st.newKeys := by
  cases r <;> rfl

@[simp] theorem rpc_mgr (r : Except RpcError EgressMaps) : (st.rpc r).mgr = st.mgr := by
  cases r <;> rfl

theorem masquerade_addEgressRule (m : EgressManager) (ns : String) (rule : EgressRule) :
    ((m.addEgressRule ns rule).getD m).masquerade = m.masquerade := by
  unfold EgressManager.addEgressRule
  cases parseCIDR rule.dstCIDR <;> rfl

variable (st) in
theorem rpc_rpcErrors (r : Except RpcError EgressMaps) : st.rpcErrors ≤ (st.rpc r).rpcErrors := by
  cases r <;> simp [rpc]

variable (nodeIP st e) in
/-- A rule whose CIDR parses is recorded, whether or not the dataplane takes it. -/
theorem pushRule_cases :
    (ruleMapKey e.1 = none ∧ pushRule nodeIP st e = st) ∨
    ∃ net mgr, ruleMapKey e.1 = some (mapKey e.1.srcIdentity net) ∧
      mgr.masquerade = st.mgr.masquerade ∧ pushRule nodeIP st e =
        rpc ⟨mgr, st.maps, insert (mapKey e.1.srcIdentity net) st.newKeys, st.rpcErrors⟩
          (st.maps.upsertEgressPolicy (upsertRequest (snatIPStr st.mgr nodeIP) e.1 net)) := by
  unfold pushRule ruleMapKey
  by_cases hc : e.1.cidr = ""
  · simp [hc]
  · cases hn : parseCIDR e.1.cidr with
    | none => simp [hc]
    | some net =>
      have hmasq := masquerade_addEgressRule st.mgr e.1.namespace_ (managerRule e.1 e.2)
      refine .inr ⟨net, _, by simp [hc], hmasq, ?_⟩
      simp only [if_neg hc, snatIPStr, hmasq]

theorem pushRule_newKeys : (pushRule nodeIP st e).newKeys = st.newKeys ∪ (ruleMapKey e.1).toFinset := by
  rcases pushRule_cases st nodeIP e with ⟨hk, heq⟩ | ⟨net, mgr, hk, -, heq⟩ <;> simp [hk, heq]

theorem pushRule_masquerade : (pushRule nodeIP st e).mgr.masquerade = st.mgr.masquerade := by
  rcases pushRule_cases st nodeIP e with ⟨-, heq⟩ | ⟨net, mgr, -, hmasq, heq⟩
  · rw [heq]
  · rw [heq, rpc_mgr, hmasq]

theorem upsert_v4 {maps : EgressMaps} {snat : String} {r : CompiledRule} {net : Net.IPNet}
    (hk : ruleMapKey r = some (mapKey r.srcIdentity net)) (mgr : EgressManager)
    (keys : Finset EgressMapKey) (n : Nat) :
    (rpc ⟨mgr, maps, keys, n⟩ (maps.upsertEgressPolicy (upsertRequest snat r net))).maps.v4 =
      assign maps.v4 (egressEntry snat r).toList := by
  unfold egressEntry snat4 EgressMaps.upsertEgressPolicy
  rw [hk]
  simp only [bind_some, encode, mapKey, upsertRequest]
  cases parseIp (stripPrefixLen net.string) with
  | none => rfl
  | some dst =>
    cases parseIp snat with
    | none => cases dst <;> rfl
    | some a =>
      cases dst <;> cases a
      · rfl
      · rfl
      · rfl
      · cases maps.v6 <;> simp [rpc, assign]

theorem pushRule_v4 : (pushRule nodeIP st e).maps.v4 =
    assign st.maps.v4 (egressEntry (snatIPStr st.mgr nodeIP) e.1).toList := by
  rcases pushRule_cases st nodeIP e with ⟨hk, heq⟩ | ⟨net, mgr, hk, -, heq⟩
  · simp [heq, egressEntry, hk, assign]
  · rw [heq, upsert_v4 hk]

variable (st nodeIP e) in
theorem pushRule_rpcErrors : st.rpcErrors ≤ (pushRule nodeIP st e).rpcErrors := by
  rcases pushRule_cases st nodeIP e with ⟨-, heq⟩ | ⟨net, mgr, -, -, heq⟩
  · rw [heq]
  · rw [heq]
    exact rpc_rpcErrors ⟨mgr, st.maps, _, _⟩ _

theorem pushRule_refused {k : EgressKey} (hk : (ruleMapKey e.1).bind encode = some k)
    (hs : snat4 (snatIPStr st.mgr nodeIP) = none) :
    (pushRule nodeIP st e).rpcErrors = st.rpcErrors + 1 := by
  rcases pushRule_cases st nodeIP e with ⟨hnone, -⟩ | ⟨net, mgr, hkey, -, heq⟩
  · simp [hnone] at hk
  · simp only [hkey, bind_some, encode, mapKey] at hk
    simp only [snat4] at hs
    simp only [heq, EgressMaps.upsertEgressPolicy, upsertRequest]
    cases hdst : parseIp (stripPrefixLen net.string) with
    | none => simp [hdst] at hk
    | some dst =>
      cases dst with
      | v6 d => simp [hdst] at hk
      | v4 d =>
        cases hip : parseIp (snatIPStr st.mgr nodeIP) with
        | none => rfl
        | some a =>
          cases a with
          | v4 a => simp [hip] at hs
          | v6 a => rfl

variable (nodeIP)

theorem loop_newKeys (l : List (CompiledRule × Nat)) (st : EgressLoop) :
    (l.foldl (pushRule nodeIP) st).newKeys =
      st.newKeys ∪ ((l.map Prod.fst).filterMap ruleMapKey).toFinset := by
  induction l generalizing st with
  | nil => simp
  | cons e l ih =>
    rw [foldl_cons, ih, pushRule_newKeys, Finset.union_assoc]
    cases hk : ruleMapKey e.1 <;> simp [hk]

theorem loop_v4 (l : List (CompiledRule × Nat)) (st : EgressLoop) :
    (l.foldl (pushRule nodeIP) st).maps.v4 =
      assign st.maps.v4 ((l.map Prod.fst).filterMap (egressEntry (snatIPStr st.mgr nodeIP))) := by
  induction l generalizing st with
  | nil => rfl
  | cons e l ih =>
    rw [foldl_cons, ih, pushRule_v4]
    have hs : snatIPStr (pushRule nodeIP st e).mgr nodeIP = snatIPStr st.mgr nodeIP := by
      simp only [snatIPStr, pushRule_masquerade]
    rw [hs]
    cases he : egressEntry (snatIPStr st.mgr nodeIP) e.1 <;> simp [he, assign]

theorem loop_rpcErrors (l : List (CompiledRule × Nat)) (st : EgressLoop) :
    st.rpcErrors ≤ (l.foldl (pushRule nodeIP) st).rpcErrors := by
  induction l generalizing st with
  | nil => exact le_refl _
  | cons e l ih => exact (pushRule_rpcErrors st nodeIP e).trans (ih _)

theorem snat4_of_rpcErrors {l : List (CompiledRule × Nat)} {st : EgressLoop}
    (h : (l.foldl (pushRule nodeIP) st).rpcErrors = 0) {e : CompiledRule × Nat} (he : e ∈ l)
    {k : EgressKey} (hk : (ruleMapKey e.1).bind encode = some k) :
    snat4 (snatIPStr st.mgr nodeIP) ≠ none := by
  induction l generalizing st with
  | nil => simp at he
  | cons x l ih =>
    rw [foldl_cons] at h
    rcases mem_cons.mp he with rfl | he
    · intro hs
      have hle := loop_rpcErrors nodeIP l (pushRule nodeIP st e)
      have hinc : (pushRule nodeIP st e).rpcErrors = st.rpcErrors + 1 := pushRule_refused hk hs
      omega
    · have hs := ih h he
      rwa [snatIPStr, pushRule_masquerade, ← snatIPStr] at hs

variable {nodeIP}

theorem deleteStale_newKeys (st : EgressLoop) (old : EgressMapKey) :
    (st.deleteStale old).newKeys = st.newKeys := by
  unfold deleteStale
  split <;> simp

theorem deleteStale_mgr (st : EgressLoop) (old : EgressMapKey) : (st.deleteStale old).mgr = st.mgr := by
  unfold deleteStale
  split <;> simp

theorem deleteStale_rpcErrors (st : EgressLoop) (old : EgressMapKey) :
    st.rpcErrors ≤ (st.deleteStale old).rpcErrors := by
  unfold deleteStale
  split
  · exact le_refl _
  · exact rpc_rpcErrors st _

theorem deleteStale_v4 (st : EgressLoop) (old : EgressMapKey) :
    (st.deleteStale old).maps.v4 = if old ∈ st.newKeys then st.maps.v4
      else eraseAll st.maps.v4 old.encode.toList := by
  unfold deleteStale encode EgressMaps.deleteEgressPolicy
  split
  · rfl
  · cases parseIp (stripPrefixLen old.dstCidr) with
    | none => rfl
    | some dst =>
      cases dst with
      | v4 d =>
        simp only [toList_some, eraseAll, foldl_cons, foldl_nil]
        split
        · rfl
        · rename_i hm
          exact (erase_of_notMem hm).symm
      | v6 d =>
        cases st.maps.v6 with
        | none => rfl
        | some v6 =>
          simp only [toList_none, eraseAll, foldl_nil]
          split <;> rfl

theorem cleanup_newKeys (l : List EgressMapKey) (st : EgressLoop) :
    (l.foldl deleteStale st).newKeys = st.newKeys := by
  induction l generalizing st with
  | nil => rfl
  | cons old l ih => rw [foldl_cons, ih, deleteStale_newKeys]

theorem cleanup_mgr (l : List EgressMapKey) (st : EgressLoop) :
    (l.foldl deleteStale st).mgr = st.mgr := by
  induction l generalizing st with
  | nil => rfl
  | cons old l ih => rw [foldl_cons, ih, deleteStale_mgr]

theorem cleanup_rpcErrors (l : List EgressMapKey) (st : EgressLoop) :
    st.rpcErrors ≤ (l.foldl deleteStale st).rpcErrors := by
  induction l generalizing st with
  | nil => exact le_refl _
  | cons old l ih => exact (deleteStale_rpcErrors st old).trans (ih _)

theorem cleanup_v4 (l : List EgressMapKey) (st : EgressLoop) :
    (l.foldl deleteStale st).maps.v4 = eraseAll st.maps.v4
      ((l.filter fun old => old ∉ st.newKeys).filterMap encode) := by
  induction l generalizing st with
  | nil => rfl
  | cons old l ih =>
    rw [foldl_cons, ih, deleteStale_newKeys, deleteStale_v4]
    by_cases hold : old ∈ st.newKeys
    · simp [hold]
    · cases he : old.encode <;> simp [hold, he, eraseAll]

end EgressLoop

def listKeys (rules : List CompiledRule) : Finset EgressMapKey :=
  (rules.filterMap ruleMapKey).toFinset

def StaleKey (s : Server) (rules : List CompiledRule) (k : EgressKey) : Prop :=
  ∃ old ∈ s.prevEgressKeys, old ∉ listKeys rules ∧ old.encode = some k

def EgressMap.actionAt (m : EgressMap) (k : EgressKey) : Option UInt8 :=
  (m.lookup k).map EgressValue.action

def egressWrite (k : EgressKey) (r : CompiledRule) : Option UInt8 :=
  if (ruleMapKey r).bind encode = some k
  then some (ruleAction r).number else none

section Sync

variable {o : EgressOrders} {s : Server} {maps : EgressMaps} {rules : List CompiledRule}

theorem mem_listKeys {key : EgressMapKey} :
    key ∈ listKeys rules ↔ ∃ r ∈ rules, ruleMapKey r = some key := by
  simp [listKeys]

theorem syncEgressRules_prev : (syncEgressRules o s maps rules).1.prevEgressKeys = listKeys rules := by
  simp only [syncEgressRules, cleanup_newKeys, loop_newKeys,
    zipIdx_map_fst, Finset.empty_union, listKeys]

variable (o s maps rules) in
theorem lookup_syncEgressRules (k : EgressKey) :
    ((syncEgressRules o s maps rules).2.1.v4.lookup k = none ∧ StaleKey s rules k) ∨
    ((syncEgressRules o s maps rules).2.1.v4.lookup k =
      (written k (rules.filterMap (egressEntry (snatIPStr s.egressMgr s.nodeIP)))).or
        (maps.v4.lookup k) ∧ ¬ StaleKey s rules k) := by
  simp only [syncEgressRules, cleanup_v4, loop_v4, loop_newKeys,
    zipIdx_map_fst, Finset.empty_union, lookup_eraseAll, lookup_assign]
  have hiff : k ∈ (((o.keys.enum [] s.prevEgressKeys).filter fun old =>
      old ∉ (rules.filterMap ruleMapKey).toFinset).filterMap encode) ↔
      StaleKey s rules k := by
    simp [StaleKey, listKeys, and_assoc]
  by_cases hst : StaleKey s rules k
  · rw [if_pos (hiff.mpr hst)]
    exact .inl ⟨rfl, hst⟩
  · rw [if_neg fun h => hst (hiff.mp h)]
    exact .inr ⟨rfl, hst⟩

theorem lookup_syncEgressRules_stale {k : EgressKey} (h : StaleKey s rules k) :
    (syncEgressRules o s maps rules).2.1.v4.lookup k = none := by
  rcases lookup_syncEgressRules o s maps rules k with hl | hl
  · exact hl.1
  · exact absurd h hl.2

theorem written_egressEntry {snat : String} {k : EgressKey}
    (hs : ∀ r ∈ rules, (ruleMapKey r).bind encode = some k → snat4 snat ≠ none) :
    (written k (rules.filterMap (egressEntry snat))).map EgressValue.action =
      lastSome (egressWrite k) rules := by
  induction rules with
  | nil => rfl
  | cons r l ih =>
    have hl := ih fun x hx => hs x (mem_cons_of_mem r hx)
    rw [lastSome_cons, ← hl]
    cases hk : (ruleMapKey r).bind encode with
    | none => simp [egressEntry, egressWrite, hk]
    | some k' =>
      cases ha : snat4 snat with
      | none =>
        have hne : k' ≠ k := fun he => hs r mem_cons_self (by rw [hk, he]) ha
        simp [egressEntry, egressWrite, hk, ha, hne]
      | some a =>
        have he : egressEntry snat r = some (k', ⟨(ruleAction r).number, a⟩) := by
          simp [egressEntry, hk, ha]
        rw [filterMap_cons_some he, written_cons]
        by_cases hkk : k' = k <;>
        · cases hw : written k (l.filterMap (egressEntry snat)) <;>
            simp [egressWrite, hk, hkk]

theorem action_of_snat {k : EgressKey} (hst : ¬ StaleKey s rules k)
    (hs : ∀ r ∈ rules, (ruleMapKey r).bind encode = some k →
      snat4 (snatIPStr s.egressMgr s.nodeIP) ≠ none) :
    (syncEgressRules o s maps rules).2.1.v4.actionAt k =
      (lastSome (egressWrite k) rules).or (maps.v4.actionAt k) := by
  rcases lookup_syncEgressRules o s maps rules k with hl | hl
  · exact absurd hl.2 hst
  · rw [EgressMap.actionAt, hl.1, ← written_egressEntry hs]
    cases written k (rules.filterMap (egressEntry (snatIPStr s.egressMgr s.nodeIP))) <;> rfl

theorem action_syncEgressRules (herr : (syncEgressRules o s maps rules).2.2 = 0) {k : EgressKey}
    (hst : ¬ StaleKey s rules k) :
    (syncEgressRules o s maps rules).2.1.v4.actionAt k =
      (lastSome (egressWrite k) rules).or (maps.v4.actionAt k) := by
  have hpush : (rules.zipIdx.foldl (pushRule s.nodeIP) ⟨s.egressMgr, maps, ∅, 0⟩).rpcErrors = 0 := by
    have hle := cleanup_rpcErrors (o.keys.enum [] s.prevEgressKeys)
      (rules.zipIdx.foldl (pushRule s.nodeIP) ⟨s.egressMgr, maps, ∅, 0⟩)
    change (List.foldl deleteStale _ _).rpcErrors = 0 at herr
    omega
  apply action_of_snat hst
  intro r hr hk
  rw [← zipIdx_map_fst 0 rules] at hr
  obtain ⟨e, he, rfl⟩ := List.mem_map.mp hr
  have hne := snat4_of_rpcErrors s.nodeIP hpush he hk
  exact hne

end Sync

def exampleServer : Server where
  nodeIP := some (.v4 0x0a010001)
  egressMgr := ⟨true, ∅, by simp⟩
  prevEgressKeys := ∅

noncomputable def someOrders : EgressOrders := ⟨.arbitrary, .arbitrary⟩

end NovaNet
