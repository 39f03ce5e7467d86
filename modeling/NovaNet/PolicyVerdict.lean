import NovaNet.PolicyMap
import NovaNet.PolicyInstall

/-! The verdict that the installed policies give to a packet between two identities,
against the meaning of the policies. -/

namespace NovaNet

open LastWrite List Option

def Compiler.installed (c : Compiler) (o : IterOrder UInt64) (ok : IterOrder PolicyKey)
    (policies : List NetworkPolicy) : PolicyMap :=
  syncRules ok ∅ (c.compileAll o policies)

namespace Compiler

variable {c : Compiler} {o : IterOrder UInt64} {ok : IterOrder PolicyKey}
  {policies : List NetworkPolicy} {k : PolicyKey} {v : PolicyValue}

theorem compileAll_concat (l : List NetworkPolicy) (np : NetworkPolicy) :
    c.compileAll o (l ++ [np]) = c.compileAll o l ++ c.compilePolicy o [l.length] np := by
  simp [compileAll]

theorem lookup_installed : (c.installed o ok policies).lookup k =
    written k (installedEntries (c.compileAll o policies)) := by
  rw [installed, syncRules, RealMaps.syncPolicies_empty, lookup_assign_empty]

theorem lookup_installed_nil : (c.installed o ok []).lookup k = none := by
  rw [lookup_installed]
  rfl

theorem lookup_installed_concat (l : List NetworkPolicy) (np : NetworkPolicy) :
    (c.installed o ok (l ++ [np])).lookup k =
      (written k (installedEntries (c.compilePolicy o [l.length] np))).or
        ((c.installed o ok l).lookup k) := by
  rw [lookup_installed, lookup_installed, compileAll_concat, installedEntries_append, written_append]

theorem leaves_of_lookup (h : (c.installed o ok policies).lookup k = some v) :
    ∃ np ∈ policies, c.Leaves np k v := by
  induction policies using List.reverseRecOn with
  | nil => simp [lookup_installed_nil] at h
  | append_singleton l np ih =>
    rw [lookup_installed_concat, or_eq_some_iff] at h
    rcases h with h | ⟨-, h⟩
    · exact ⟨np, by simp, leaves_of_written h⟩
    · obtain ⟨x, hx, hl⟩ := ih h
      exact ⟨x, mem_append_left _ hx, hl⟩

def Untouched (c : Compiler) (policies : List NetworkPolicy) (k : PolicyKey) : Prop :=
  ∀ np ∈ policies, ¬ c.LeavesAllow np k ∧ ¬ c.LeavesDeny np k

theorem lookup_installed_eq_none_iff :
    (c.installed o ok policies).lookup k = none ↔ c.Untouched policies k := by
  unfold Untouched
  induction policies using List.reverseRecOn with
  | nil => simp [lookup_installed_nil]
  | append_singleton l np ih =>
    rw [lookup_installed_concat, or_eq_none_iff, written_compilePolicy_eq_none_iff, ih]
    simp only [mem_append, List.mem_singleton]
    constructor
    · rintro ⟨hnp, hl⟩ x (hx | rfl)
      · exact hl x hx
      · exact hnp
    · intro h
      exact ⟨h np (.inr rfl), fun x hx => h x (.inl hx)⟩

theorem installed_knownActions : PolicyMap.KnownActions (c.installed o ok policies) := by
  intro k v h
  obtain ⟨np, -, hl⟩ := leaves_of_lookup h
  rcases hl.cases with ⟨rfl, -⟩ | ⟨rfl, -⟩
  · exact .inl rfl
  · exact .inr rfl

/-- The last policy with an entry at the key denies, whatever order its targets come
in, and no later policy allows. -/
def DeniesLast (c : Compiler) (policies : List NetworkPolicy) (k : PolicyKey) : Prop :=
  ∃ l np l', policies = l ++ np :: l' ∧ c.LeavesDeny np k ∧ ¬ c.LeavesAllow np k ∧
    ∀ np' ∈ l', ¬ c.LeavesAllow np' k

theorem not_deniesLast_nil : ¬ c.DeniesLast [] k := by
  rintro ⟨l, np, l', h, -⟩
  simp at h

theorem deniesLast_concat (l : List NetworkPolicy) (np : NetworkPolicy) :
    c.DeniesLast (l ++ [np]) k ↔ ¬ c.LeavesAllow np k ∧ (c.LeavesDeny np k ∨ c.DeniesLast l k) := by
  constructor
  · rintro ⟨pre, x, post, h, hd, ha, hpost⟩
    cases post using List.reverseRecOn with
    | nil =>
      obtain ⟨-, hx⟩ := append_inj' h rfl
      obtain rfl : np = x := by simpa using hx
      exact ⟨ha, .inl hd⟩
    | append_singleton post y =>
      rw [← cons_append, ← append_assoc] at h
      obtain ⟨hl, hy⟩ := append_inj' h rfl
      obtain rfl : np = y := by simpa using hy
      have hno : ¬ c.LeavesAllow np k := hpost np (by simp)
      exact ⟨hno, .inr ⟨pre, x, post, hl, hd, ha, fun z hz => hpost z (by simp [hz])⟩⟩
  · rintro ⟨ha, hd | ⟨pre, x, post, rfl, hd, hx, hpost⟩⟩
    · exact ⟨l, np, [], rfl, hd, ha, by simp⟩
    · refine ⟨pre, x, post ++ [np], by simp, hd, hx, ?_⟩
      intro z hz
      rcases mem_append.mp hz with hz | hz
      · exact hpost z hz
      · obtain rfl : z = np := by simpa using hz
        exact ha

theorem lookup_of_deniesLast (h : c.DeniesLast policies k) :
    (c.installed o ok policies).lookup k = some denyValue := by
  induction policies using List.reverseRecOn with
  | nil => exact absurd h not_deniesLast_nil
  | append_singleton l np ih =>
    obtain ⟨ha, hd⟩ := (deniesLast_concat l np).mp h
    rw [lookup_installed_concat]
    cases hw : written k (installedEntries (c.compilePolicy o [l.length] np)) with
    | none =>
      have hno := written_compilePolicy_eq_none_iff.mp hw
      rw [none_or]
      exact ih (hd.resolve_left hno.2)
    | some v =>
      rcases (leaves_of_written hw).cases with ⟨-, hl⟩ | ⟨rfl, -⟩
      · exact absurd hl ha
      · rfl

def Settled (c : Compiler) (np : NetworkPolicy) (k : PolicyKey) : Prop :=
  ¬ (c.LeavesAllow np k ∧ c.LeavesDeny np k)

theorem lookup_eq_deny_iff (hs : ∀ np ∈ policies, c.Settled np k) :
    (c.installed o ok policies).lookup k = some denyValue ↔ c.DeniesLast policies k := by
  refine ⟨fun h => ?_, lookup_of_deniesLast⟩
  induction policies using List.reverseRecOn with
  | nil => simp [lookup_installed_nil] at h
  | append_singleton l np ih =>
    have hnp : c.Settled np k := hs np (by simp)
    rw [lookup_installed_concat, or_eq_some_iff] at h
    rw [deniesLast_concat]
    rcases h with h | ⟨hnone, h⟩
    · have hd := leaves_deny_iff.mp (leaves_of_written h)
      exact ⟨fun ha => hnp ⟨ha, hd⟩, .inl hd⟩
    · have hno := written_compilePolicy_eq_none_iff.mp hnone
      exact ⟨hno.1, .inr (ih (fun x hx => hs x (mem_append_left _ hx)) h)⟩

/-- The first key of the lookup that any policy has an entry for is one where deny
comes last. -/
def Blocked (c : Compiler) (policies : List NetworkPolicy) (src dst : UInt32) (proto : UInt8)
    (port : UInt16) : Prop :=
  ∃ pre k post, lookupKeys src dst proto port = pre ++ k :: post ∧
    (∀ k' ∈ pre, c.Untouched policies k') ∧ c.DeniesLast policies k

theorem checkPolicy_of_blocked {src dst : UInt32} {proto : UInt8} {port : UInt16}
    (h : c.Blocked policies src dst proto port) :
    checkPolicy (c.installed o ok policies) src dst proto port = some actionDeny := by
  obtain ⟨pre, k, post, hkeys, hpre, hk⟩ := h
  exact checkPolicy_eq_some_iff.mpr ⟨pre, k, post, hkeys,
    fun k' hk' => lookup_installed_eq_none_iff.mpr (hpre k' hk'), lookup_of_deniesLast hk⟩

theorem checkPolicy_deny_iff (hs : ∀ np ∈ policies, ∀ k, c.Settled np k) {src dst : UInt32}
    {proto : UInt8} {port : UInt16} :
    checkPolicy (c.installed o ok policies) src dst proto port = some actionDeny ↔
      c.Blocked policies src dst proto port := by
  refine ⟨fun h => ?_, checkPolicy_of_blocked⟩
  obtain ⟨pre, k, post, hkeys, hpre, hk⟩ := checkPolicy_eq_some_iff.mp h
  exact ⟨pre, k, post, hkeys, fun k' hk' => lookup_installed_eq_none_iff.mp (hpre k' hk'),
    (lookup_eq_deny_iff fun np hnp => hs np hnp k).mp hk⟩

/-- With live identities that are not zero on the wire, a policy never writes both
actions to one key: its own end of the key tells the direction. -/
theorem settled_of_nonzero (hnz : ∀ id ∈ c.identityAllocator.idToLabels.keys, id.toUInt32 ≠ 0)
    (np : NetworkPolicy) (k : PolicyKey) : c.Settled np k := by
  rintro ⟨⟨t, ht, hallow⟩, t', ht', hdeny⟩
  have hlive : ∀ id, id ∈ c.identityAllocator.matching (targetSelector np) → id.toUInt32 ≠ 0 :=
    fun id hid => hnz id (Finset.mem_filter.mp hid).1
  have hcases : t = t' ∨ (t.toUInt32 ≠ 0 ∧ t'.toUInt32 ≠ 0) := by
    rcases ht with ⟨hok, hm | ⟨hm, rfl⟩⟩ | ⟨hok, rfl⟩ <;>
      rcases ht' with ⟨hok', hm' | ⟨hm', rfl⟩⟩ | ⟨hok', rfl⟩
    · exact .inr ⟨hlive t hm, hlive t' hm'⟩
    all_goals simp_all
  rcases hcases with rfl | ⟨hz, hz'⟩
  · have ha := targetWrite_eq_allow_iff.mpr hallow
    have hd := targetWrite_eq_deny_iff.mpr hdeny
    rw [ha] at hd
    exact allowValue_ne_denyValue (Option.some.inj hd)
  · rcases hallow with ⟨-, hs, rule, hr, -⟩ | ⟨⟨-, hd, rule, hr, -⟩, -⟩
    · rcases hdeny with ⟨-, hnil, -⟩ | ⟨⟨-, -, rfl⟩, -⟩
      · simp [hnil] at hr
      · exact hz hs.symm
    · rcases hdeny with ⟨-, -, rfl⟩ | ⟨⟨-, hnil, -⟩, -⟩
      · exact hz hd.symm
      · simp [hnil] at hr

end Compiler

open Compiler

/-- Two distinct live pod identities, told apart by the wire format, under policies
with label-selector peers and numeric ports. -/
structure PairInScope (c : Compiler) (policies : List NetworkPolicy) (src dst : UInt64)
    (srcLabels dstLabels : Labels) (port : UInt16) : Prop where
  label_only : ∀ np ∈ policies, np.LabelOnly
  nonzero : ∀ id ∈ c.identityAllocator.idToLabels.keys, id.toUInt32 ≠ 0
  distinct : ∀ id ∈ c.identityAllocator.idToLabels.keys,
    ∀ id' ∈ c.identityAllocator.idToLabels.keys, id.toUInt32 = id'.toUInt32 → id = id'
  src_live : c.identityAllocator.idToLabels.lookup src = some srcLabels
  dst_live : c.identityAllocator.idToLabels.lookup dst = some dstLabels
  ne : src ≠ dst
  port_ne : port ≠ 0

section Example

def podLabels (app : String) : Labels :=
  ((∅ : Labels).insert namespaceLabel "default").insert "app" app

def exampleCompiler : Compiler where
  identityAllocator :=
    { idToLabels := (((∅ : Finmap fun _ : UInt64 => Labels).insert 7 (podLabels "web")).insert 8
        (podLabels "job")).insert 9 (podLabels "db")
      refCount := ((∅ : Finmap fun _ : UInt64 => Nat).insert 7 1 |>.insert 8 1).insert 9 1
      labelsToID := ∅ }
  namespaceResolver := none
  portResolver := none
  selectorOk := fun _ => true
  hash := hashCanonical

def appSelector (app : String) : LabelSelector := ⟨(∅ : Labels).insert "app" app, []⟩

def allowFromWeb : NetworkPolicy where
  namespace_ := "default"
  podSelector := appSelector "db"
  policyTypes := [.ingress]
  ingress := [⟨[⟨some (appSelector "web"), none, none⟩], []⟩]
  egress := []

theorem allowFromWeb_labelOnly : allowFromWeb.LabelOnly := by
  constructor <;> simp [allowFromWeb]

theorem exampleCompiler_keys : exampleCompiler.identityAllocator.idToLabels.keys = {7, 8, 9} := by
  decide +kernel

theorem jobToDb_inScope :
    PairInScope exampleCompiler [allowFromWeb] 8 9 (podLabels "job") (podLabels "db") 80 where
  label_only := by
    intro np hnp
    obtain rfl : np = allowFromWeb := by simpa using hnp
    exact allowFromWeb_labelOnly
  nonzero := by simp [exampleCompiler_keys]
  distinct := by simp [exampleCompiler_keys]
  src_live := by decide +kernel
  dst_live := by decide +kernel
  ne := by decide
  port_ne := by decide

theorem checkPolicy_jobToDb (ok : IterOrder PolicyKey) :
    checkPolicy (exampleCompiler.installed identityOrder ok [allowFromWeb]) 8 9 6 80 = none := by
  rw [installed, syncRules, RealMaps.syncPolicies_empty]
  decide +kernel

end Example

/-- Traffic to a selected live identity that no ingress rule of the policy matches. -/
structure UnmatchedIngress (c : Compiler) (nsLabels : String → Labels) (np : NetworkPolicy)
    (dst : UInt64) (srcLabels dstLabels : Labels) (proto : Protocol) (port : UInt16) : Prop where
  label_only : np.LabelOnly
  of_type : np.OfType .ingress
  dst_live : c.identityAllocator.idToLabels.lookup dst = some dstLabels
  selects : np.Selects dstLabels
  unmatched : ¬ np.IngressMatches nsLabels srcLabels proto port

/-- The policy alone is enough to keep the traffic out, for both default settings. -/
def IngressIsolated (c : Compiler) (nsLabels : String → Labels) (np : NetworkPolicy)
    (src dst : UInt64) (srcLabels dstLabels : Labels) (proto : Protocol) (port : UInt16) : Prop :=
  UnmatchedIngress c nsLabels np dst srcLabels dstLabels proto port →
    ∀ (o : IterOrder UInt64) (ok : IterOrder PolicyKey) (defaultDeny : UInt64),
      defaultDeny = 0 ∨ defaultDeny = 1 →
      policyDenies defaultDeny (checkPolicy (c.installed o ok [np]) src.toUInt32 dst.toUInt32
        proto.number port) = true

theorem Compiler.blocked_of_forall_order {c : Compiler} {np : NetworkPolicy} {src dst : UInt32}
    {proto : UInt8} {port : UInt16} {ok : IterOrder PolicyKey}
    (h : ∀ o, checkPolicy (c.installed o ok [np]) src dst proto port = some actionDeny) :
    c.Blocked [np] src dst proto port := by
  obtain ⟨pre, k, post, hkeys, hpre, hk⟩ := checkPolicy_eq_some_iff.mp (h .arbitrary)
  obtain ⟨np', hnp', hl⟩ := leaves_of_lookup hk
  obtain rfl : np' = np := by simpa using hnp'
  have huntouched := fun k' hk' => lookup_installed_eq_none_iff.mp (hpre k' hk')
  refine ⟨pre, k, post, hkeys, huntouched, [], np', [], rfl, leaves_deny_iff.mp hl, ?_, by simp⟩
  -- an order that ends on an allowing target would turn the verdict
  intro hallow
  obtain ⟨o, ho⟩ := exists_order_written [0] (leaves_allow_iff.mpr hallow)
  have hlookup : (c.installed o ok ([] ++ [np'])).lookup k = some allowValue := by
    rw [lookup_installed_concat, length_nil, ho]
    rfl
  have hallowed : checkPolicy (c.installed o ok [np']) src dst proto port = some actionAllow :=
    checkPolicy_eq_some_iff.mpr ⟨pre, k, post, hkeys,
      fun k' hk' => lookup_installed_eq_none_iff.mpr (huntouched k' hk'), hlookup⟩
  rw [h o] at hallowed
  exact absurd hallowed (by decide)

theorem ingressIsolated_iff (c : Compiler) (nsLabels : String → Labels) (np : NetworkPolicy)
    (src dst : UInt64) (srcLabels dstLabels : Labels) (proto : Protocol) (port : UInt16) :
    IngressIsolated c nsLabels np src dst srcLabels dstLabels proto port ↔
      (UnmatchedIngress c nsLabels np dst srcLabels dstLabels proto port →
        c.Blocked [np] src.toUInt32 dst.toUInt32 proto.number port) := by
  constructor
  · intro h hu
    apply blocked_of_forall_order
    intro o
    exact (policyDenies_zero_iff installed_knownActions).mp (h hu o .arbitrary 0 (.inl rfl))
  · intro h hu o ok defaultDeny _
    rw [checkPolicy_of_blocked (h hu)]
    rfl

theorem ingressIsolated_fails :
    ¬ IngressIsolated exampleCompiler (fun _ => ∅) allowFromWeb 8 9 (podLabels "job")
      (podLabels "db") .tcp 80 := by
  intro h
  have hu : UnmatchedIngress exampleCompiler (fun _ => ∅) allowFromWeb 9 (podLabels "job")
      (podLabels "db") .tcp 80 :=
    ⟨allowFromWeb_labelOnly, by decide, jobToDb_inScope.dst_live, by decide +kernel, by decide +kernel⟩
  have hd := h hu identityOrder .arbitrary 0 (.inl rfl)
  change policyDenies 0 (checkPolicy _ 8 9 6 80) = true at hd
  rw [checkPolicy_jobToDb] at hd
  exact absurd hd (by decide)

end NovaNet
