import NovaNet.EgressVerdict

/-! The meaning of one egress rule with a single IP block, compared with the verdict
after it is pushed. The excepted networks are deny entries, everything else passes. -/

namespace NovaNet

open LastWrite Net Option List

structure SingleBlock (rule : NetworkPolicyEgressRule) (b : IPBlock) (net : UInt32) (len : Nat) :
    Prop where
  peer : rule.to_ = [⟨none, none, some b⟩]
  cidr : parseCIDR b.cidr = some ⟨.v4 net, len⟩
  except : ∀ e ∈ b.except, ∃ n m, parseCIDR e = some ⟨.v4 n, m⟩ ∧ len ≤ m ∧ n &&& mask4 len = net
  ports : ∀ p ∈ rule.ports, p.Numeric

structure NothingPushed (s : Server) (m : EgressMap) (src : UInt32) : Prop where
  map : ∀ k : EgressKey, k.srcIdentity = src → m.lookup k = none
  keys : ∀ old ∈ s.prevEgressKeys, old.srcIdentity.toUInt32 ≠ src

def ExceptTried (b : IPBlock) (d : UInt32) : Prop :=
  ∃ e ∈ b.except, ∃ l ∈ egressPrefixLengths, parseCIDR e = some (network d l.toNat)

theorem network_eq {d : UInt32} {l : UInt8} (h : l ∈ egressPrefixLengths) :
    (⟨.v4 (d &&& prefixMask l.toUInt32), l.toNat⟩ : Net.IPNet) = network d l.toNat := by
  have hall : egressPrefixLengths.all
      (fun l => decide (prefixMask l.toUInt32 = mask4 l.toNat)) = true := by decide
  have hmask := of_decide_eq_true (all_eq_true.mp hall l h)
  rw [network, hmask]

theorem le_of_not_longer {longer shorter : List UInt8} {len l : UInt8}
    (hsplit : egressPrefixLengths = longer ++ len :: shorter) (hl : l ∈ egressPrefixLengths)
    (hn : l ∉ longer) : l ≤ len := by
  have hsorted : egressPrefixLengths.Pairwise (· > ·) := by decide
  rw [hsplit] at hl hsorted
  rcases mem_append.mp hl with h | h
  · exact absurd h hn
  · rcases mem_cons.mp h with rfl | h
    · exact UInt8.le_refl l
    · have hp := (pairwise_append.mp hsorted).2.1
      exact UInt8.le_of_lt ((pairwise_cons.mp hp).1 l h)

theorem exists_longest_hit {m : EgressMap} {src d : UInt32} {l : UInt8}
    (hl : l ∈ egressPrefixLengths) (h : (m.actionAt (egressKeyAt src d l)).isSome) :
    ∃ shorter first longer, egressPrefixLengths = longer ++ first :: shorter ∧
      (∀ x ∈ longer, m.actionAt (egressKeyAt src d x) = none) ∧
      (m.actionAt (egressKeyAt src d first)).isSome ∧ l ≤ first := by
  have hhit : (egressPrefixLengths.find? fun l =>
      (m.actionAt (egressKeyAt src d l)).isSome).isSome :=
    find?_isSome.mpr ⟨l, hl, h⟩
  obtain ⟨first, hfind⟩ := isSome_iff_exists.mp hhit
  obtain ⟨hsome, longer, shorter, hsplit, hmiss⟩ := find?_eq_some_iff_append.mp hfind
  have hnone : ∀ x ∈ longer, m.actionAt (egressKeyAt src d x) = none := by simpa using hmiss
  refine ⟨shorter, first, longer, hsplit, hnone, hsome, le_of_not_longer hsplit hl ?_⟩
  intro hlonger
  simp [hnone l hlonger] at h

section Rule

variable {o : EgressOrders} {s : Server} {maps : EgressMaps} {rule : NetworkPolicyEgressRule}
  {b : IPBlock} {net : UInt32} {len : Nat} {id : UInt64} {d : UInt32}

theorem NothingPushed.not_deleted (hf : NothingPushed s maps.v4 id.toUInt32)
    (blocks : List SourceBlock) (l : UInt8) : ¬ Deleted s blocks (egressKeyAt id.toUInt32 d l) := by
  rintro ⟨old, hold, henc, -⟩
  apply hf.keys old hold
  unfold EgressMapKey.encode at henc
  split at henc
  · rw [some.injEq] at henc
    exact congrArg EgressKey.srcIdentity henc
  · cases henc

variable (hr : SingleBlock rule b net len)

include hr

theorem SingleBlock.blocks :
    (resolvePeersWithIPBlock rule.to_).map (CidrEntry.under id) =
      ⟨id, b.cidr, actionAllow⟩ :: b.except.map fun e => ⟨id, e, actionDeny⟩ := by
  have hexcept : b.except.filter (fun e => (parseCIDR e).isSome) = b.except := by
    apply filter_eq_self.mpr
    intro e he
    obtain ⟨n, m, hp, -⟩ := hr.except e he
    simp [hp]
  rw [hr.peer]
  simp [resolvePeersWithIPBlock, resolveIPBlockCIDRs, hr.cidr, hexcept, CidrEntry.under]

/-- Exceptions are written after the block itself, so on a shared key they win. -/
theorem SingleBlock.actionAt_sync {c : Compiler} {oi : IterOrder UInt64} {site : List Nat}
    {ns : String} (hf : NothingPushed s maps.v4 id.toUInt32)
    (herr : (syncEgressRules o s maps (c.compileEgressRule oi site rule id ns)).2.2 = 0)
    {l : UInt8} (hl : l ∈ egressPrefixLengths) :
    (syncEgressRules o s maps (c.compileEgressRule oi site rule id ns)).2.1.v4.actionAt
      (egressKeyAt id.toUInt32 d l) =
        if ∃ e ∈ b.except, parseCIDR e = some (network d l.toNat) then some egressDeny
        else if parseCIDR b.cidr = some (network d l.toNat) then some egressAllow
        else none := by
  have hb : BlocksOf (c.compileEgressRule oi site rule id ns)
      (⟨id, b.cidr, actionAllow⟩ :: b.except.map fun e => ⟨id, e, actionDeny⟩) := by
    rw [← hr.blocks]
    exact blocksOf_compileEgressRule site rule id ns
  have hwrite : ∀ (cidr : String) (action : UInt8),
      blockWrite (egressKeyAt id.toUInt32 d l) ⟨id, cidr, action⟩ =
        if parseCIDR cidr = some (network d l.toNat)
        then some (if action = actionAllow then egressAllow else egressDeny) else none := by
    intro cidr action
    simp [blockWrite, SourceBlock.At, egressKeyAt, network_eq hl]
  have hold : maps.v4.actionAt (egressKeyAt id.toUInt32 d l) = none := by
    rw [EgressMap.actionAt, hf.map (egressKeyAt id.toUInt32 d l) rfl]
    rfl
  rw [NovaNet.actionAt_sync hb herr (egressKeyAt_le hl) (hf.not_deleted _ l), hold, or_none,
    lastSome_cons, lastSome_map, hwrite]
  by_cases he : ∃ e ∈ b.except, parseCIDR e = some (network d l.toNat)
  · have hlast : lastSome (fun e => blockWrite (egressKeyAt id.toUInt32 d l) ⟨id, e, actionDeny⟩)
        b.except = some egressDeny := by
      apply (lastSome_of_forall _).mpr
      · obtain ⟨e, hmem, hp⟩ := he
        exact ⟨e, hmem, by simp [hwrite, hp, actionDeny, actionAllow]⟩
      · intro e _ a ha
        rw [hwrite] at ha
        by_cases hp : parseCIDR e = some (network d l.toNat)
        · simpa [hp, actionDeny, actionAllow, eq_comm] using ha
        · simp [hp] at ha
    rw [hlast, if_pos he, some_or]
  · have hlast : lastSome (fun e => blockWrite (egressKeyAt id.toUInt32 d l) ⟨id, e, actionDeny⟩)
        b.except = none := by
      apply lastSome_eq_none_iff.mpr
      intro e hmem
      rw [hwrite, if_neg fun hp => he ⟨e, hmem, hp⟩]
    rw [hlast, if_neg he, none_or, if_pos rfl]

theorem SingleBlock.except_length {e : String} (he : e ∈ b.except) {m : Nat}
    (hm : parseCIDR e = some (network d m)) : len ≤ m := by
  obtain ⟨n, m', hp, hle, -⟩ := hr.except e he
  rw [hp, some.injEq] at hm
  have hlen := congrArg Net.IPNet.ones hm
  simp only [network] at hlen
  omega

theorem SingleBlock.deny_iff {c : Compiler} {oi : IterOrder UInt64} {site : List Nat}
    {ns : String} (hf : NothingPushed s maps.v4 id.toUInt32)
    (herr : (syncEgressRules o s maps (c.compileEgressRule oi site rule id ns)).2.2 = 0) :
    (checkEgressPolicy
      (syncEgressRules o s maps (c.compileEgressRule oi site rule id ns)).2.1.v4
      id.toUInt32 d).1 = false ↔ ExceptTried b d := by
  have hat := fun l (hl : l ∈ egressPrefixLengths) => hr.actionAt_sync (d := d) hf herr hl
  generalize (syncEgressRules o s maps (c.compileEgressRule oi site rule id ns)).2.1.v4 = m at hat ⊢
  rw [checkEgressPolicy_deny_iff]
  constructor
  · rintro ⟨shorter, l, longer, hsplit, -, a, ha, hdeny⟩
    have hl : l ∈ egressPrefixLengths := by simp [hsplit]
    rw [hat l hl] at ha
    by_cases he : ∃ e ∈ b.except, parseCIDR e = some (network d l.toNat)
    · obtain ⟨e, hmem, hp⟩ := he
      exact ⟨e, hmem, l, hl, hp⟩
    · rw [if_neg he] at ha
      by_cases hc : parseCIDR b.cidr = some (network d l.toNat)
      · rw [if_pos hc, some.injEq] at ha
        exact absurd ha.symm hdeny.1
      · simp [hc] at ha
  · rintro ⟨e, hmem, l, hl, hp⟩
    have hdeny : (m.actionAt (egressKeyAt id.toUInt32 d l)) = some egressDeny := by
      rw [hat l hl, if_pos ⟨e, hmem, hp⟩]
    have hsome : (m.actionAt (egressKeyAt id.toUInt32 d l)).isSome := by simp [hdeny]
    obtain ⟨shorter, first, longer, hsplit, hmiss, hhit, hle⟩ := exists_longest_hit hl hsome
    have hfirst : first ∈ egressPrefixLengths := by simp [hsplit]
    refine ⟨shorter, first, longer, hsplit, hmiss, egressDeny, ?_, by decide, by decide⟩
    rw [hat first hfirst]
    apply if_pos
    by_contra hno
    rw [hat first hfirst, if_neg hno] at hhit
    have hc : parseCIDR b.cidr = some (network d first.toNat) := by
      by_contra hc
      simp [hc] at hhit
    rw [hr.cidr, some.injEq] at hc
    -- the block itself is hit first, so the exception is no longer than it
    have hlen : len = first.toNat := congrArg Net.IPNet.ones hc
    have hge := hr.except_length hmem hp
    have heq : l = first := by
      apply UInt8.toNat_inj.mp
      have hle' := UInt8.le_iff_toNat_le.mp hle
      omega
    exact hno ⟨e, hmem, heq ▸ hp⟩

/-- A packet passes unless an exception of a tried length contains its address. The
meaning of the rule agrees with that only for those addresses and for what it lists. -/
theorem singleBlock_exact_iff {c : Compiler} {oi : IterOrder UInt64} {site : List Nat}
    {ns : String} {proto : Protocol} {port : UInt16}
    (hf : NothingPushed s maps.v4 id.toUInt32)
    (herr : (syncEgressRules o s maps (c.compileEgressRule oi site rule id ns)).2.2 = 0) :
    ((checkEgressPolicy
        (syncEgressRules o s maps (c.compileEgressRule oi site rule id ns)).2.1.v4
        id.toUInt32 d).1 = true ↔ b.Covers d ∧ NetworkPolicy.PortsMatch rule.ports proto port) ↔
      ExceptTried b d ∨ b.Covers d ∧ NetworkPolicy.PortsMatch rule.ports proto port := by
  have hdeny := hr.deny_iff (d := d) hf herr
  have hexcept : ExceptTried b d → ¬ b.Covers d := by
    rintro ⟨e, hmem, l, -, hp⟩ hcov
    exact hcov.2 e hmem ⟨l.toNat, hp⟩
  rw [← Bool.not_eq_false, hdeny]
  constructor
  · intro hiff
    by_cases he : ExceptTried b d
    · exact .inl he
    · exact .inr (hiff.mp he)
  · rintro (he | hspec)
    · exact ⟨fun hno => absurd he hno, fun hspec => absurd hspec.1 (hexcept he)⟩
    · exact ⟨fun _ => hspec, fun _ he => hexcept he hspec.1⟩

end Rule

section Example

def tenBlock : IPBlock := ⟨"10.0.0.0/8", ["10.2.0.0/16"]⟩

def toTenBlock : NetworkPolicyEgressRule := ⟨[⟨none, none, some tenBlock⟩], []⟩

theorem toTenBlock_single : SingleBlock toTenBlock tenBlock 0x0a000000 8 where
  peer := rfl
  cidr := by decide +kernel
  except := by
    intro e he
    obtain rfl : e = "10.2.0.0/16" := mem_singleton.mp he
    exact ⟨0x0a020000, 16, by decide +kernel, by decide, by decide⟩
  ports := by simp [toTenBlock]

theorem toTenBlock_requests : (syncEgressRules someOrders exampleServer ⟨∅, none⟩
    (exampleCompiler.compileEgressRule identityOrder [] toTenBlock 9 "default")).2.2 = 0 := by
  have henum : someOrders.keys.enum [] exampleServer.prevEgressKeys = [] :=
    (IterOrder.enum_eq_nil_iff _ _ _).mpr rfl
  have hpush : ((exampleCompiler.compileEgressRule identityOrder [] toTenBlock 9 "default").zipIdx.foldl
      (EgressLoop.pushRule exampleServer.nodeIP)
      ⟨exampleServer.egressMgr, ⟨∅, none⟩, ∅, 0⟩).rpcErrors = 0 := by decide +kernel
  rwa [syncEgressRules, henum]

theorem nothingPushed_example : NothingPushed exampleServer ∅ 9 where
  map := by simp
  keys := by simp [exampleServer]

theorem singleBlock_exact_iff_toTenBlock :
    ((checkEgressPolicy (syncEgressRules someOrders exampleServer ⟨∅, none⟩
        (exampleCompiler.compileEgressRule identityOrder [] toTenBlock 9 "default")).2.1.v4
        9 0x0a020001).1 = true ↔
      tenBlock.Covers 0x0a020001 ∧ NetworkPolicy.PortsMatch toTenBlock.ports .tcp 80) ↔
    ExceptTried tenBlock 0x0a020001 ∨
      tenBlock.Covers 0x0a020001 ∧ NetworkPolicy.PortsMatch toTenBlock.ports .tcp 80 :=
  singleBlock_exact_iff toTenBlock_single nothingPushed_example toTenBlock_requests

/-- 192.0.2.1 is outside the block and passes. -/
theorem toTenBlock_leaks :
    SingleBlock toTenBlock tenBlock 0x0a000000 8 ∧ NothingPushed exampleServer ∅ 9 ∧
    (syncEgressRules someOrders exampleServer ⟨∅, none⟩
      (exampleCompiler.compileEgressRule identityOrder [] toTenBlock 9 "default")).2.2 = 0 ∧
    ¬ ((checkEgressPolicy (syncEgressRules someOrders exampleServer ⟨∅, none⟩
        (exampleCompiler.compileEgressRule identityOrder [] toTenBlock 9 "default")).2.1.v4
        9 0xc0000201).1 = true ↔
      tenBlock.Covers 0xc0000201 ∧ NetworkPolicy.PortsMatch toTenBlock.ports .tcp 80) := by
  refine ⟨toTenBlock_single, nothingPushed_example, toTenBlock_requests, ?_⟩
  intro hiff
  have hno : ¬ tenBlock.Covers 0xc0000201 := by
    intro hcov
    obtain ⟨len, hlen⟩ := hcov.1
    rw [toTenBlock_single.cidr, some.injEq] at hlen
    obtain rfl : 8 = len := congrArg Net.IPNet.ones hlen
    exact absurd hlen (by decide)
  have hdeny := toTenBlock_single.deny_iff (d := 0xc0000201) nothingPushed_example toTenBlock_requests
  have hshot : (checkEgressPolicy (syncEgressRules someOrders exampleServer ⟨∅, none⟩
      (exampleCompiler.compileEgressRule identityOrder [] toTenBlock 9 "default")).2.1.v4
      9 0xc0000201).1 = false := by
    rw [← Bool.not_eq_true]
    exact fun hpass => hno (hiff.mp hpass).1
  obtain ⟨e, he, l, hl, hp⟩ := hdeny.mp hshot
  obtain rfl : e = "10.2.0.0/16" := mem_singleton.mp he
  have hall : ∀ l ∈ egressPrefixLengths,
      parseCIDR "10.2.0.0/16" ≠ some (network 0xc0000201 l.toNat) := by decide +kernel
  exact hall l hl hp

end Example

end NovaNet
