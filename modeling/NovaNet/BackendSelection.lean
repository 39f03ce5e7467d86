import NovaNet.Rotation
import NovaNet.ServiceNat
import NovaNet.SocketPrograms

/-! How the lookups for packets and for sockets go round the backends of a service. Both count
in RR_COUNTERS, which has an entry for each service and is indexed by slots of backends. -/

namespace NovaNet

open List L4Maps

inductive Lookup where
  | packet (dstIp : UInt32) (dstPort : UInt16) (protocol : UInt8) (srcIp : UInt32)
    (srcPort : UInt16) (scope : UInt8)
  | socket (dstIp : UInt32) (dstPort : UInt16) (protocol : UInt8)
  deriving DecidableEq

namespace Lookup

def run (m : L4Maps) (cpu : Nat) : Lookup → Option (UInt32 × UInt16) × L4Maps
  | .packet dstIp dstPort protocol srcIp srcPort scope =>
    let r := m.serviceLookup cpu dstIp dstPort protocol srcIp srcPort scope
    (r.1.map fun sel => (sel.backendIp, sel.backendPort), r.2)
  | .socket dstIp dstPort protocol => m.sockServiceLookup cpu dstIp dstPort protocol

/-- The entry of which a backend is to be selected, with the hash for it; none on a hit in
conntrack. -/
def entryOf (m : L4Maps) : Lookup → Option (ServiceValue × UInt32)
  | .packet dstIp dstPort protocol srcIp srcPort scope =>
    if m.getConfig configKeyL4lbEnabled = 0 then none
    else
      match m.conntrack.lookup ⟨srcIp, dstIp, srcPort, dstPort, protocol⟩ with
      | some _ => none
      | none => (m.services.lookup ⟨dstIp, dstPort, protocol, scope⟩).map fun svc =>
          (svc, hash5tuple srcIp dstIp srcPort dstPort protocol)
  | .socket dstIp dstPort protocol =>
    if m.getConfig configKeyL4lbEnabled = 0 then none
    else (m.services.lookup ⟨dstIp, dstPort, protocol, scopeClusterIp⟩).map fun svc =>
      (svc, hash3tuple dstIp dstPort protocol)

/-- The index at which the lookup reads BACKENDS. -/
def slot (m : L4Maps) (cpu : Nat) (q : Lookup) : Option Nat :=
  (q.entryOf m).bind fun e =>
    if e.1.backendCount = 0 then none
    else some (e.1.backendOffset.toUInt32 + (m.selectBackend cpu e.1 e.2).1).toNat

/-- The selections among the backends of an entry. -/
def selections (cpu : Nat) (svc : ServiceValue) : L4Maps → List Lookup → List (Option Nat)
  | _, [] => []
  | m, q :: qs =>
    if (q.entryOf m).map Prod.fst = some svc then
      q.slot m cpu :: selections cpu svc (q.run m cpu).2 qs
    else selections cpu svc (q.run m cpu).2 qs

/-- No other entry is found that has its backends in the same place. -/
def Undisturbed (cpu : Nat) (svc : ServiceValue) : L4Maps → List Lookup → Prop
  | _, [] => True
  | m, q :: qs =>
    (∀ e ∈ q.entryOf m, e.1.backendOffset = svc.backendOffset → e.1 = svc) ∧
      Undisturbed cpu svc (q.run m cpu).2 qs

end Lookup

open Lookup

def L4Maps.counter (m : L4Maps) (cpu offset : Nat) : UInt32 :=
  (m.rrCounters.lookup (cpu, offset)).getD 0

section Runs

variable {m : L4Maps} {cpu : Nat} {q : Lookup} {svc : ServiceValue} {hash : UInt32}

/-- The lookup returns what BACKENDS holds at the index, and leaves the counters as the selection
left them. -/
theorem Lookup.run_of_entry (h : q.entryOf m = some (svc, hash)) :
    (q.run m cpu).1 = (q.slot m cpu).bind (fun i => (m.backend i).map fun b => (b.ip, b.port)) ∧
    (q.run m cpu).2.rrCounters = if svc.backendCount = 0 then m.rrCounters
      else (m.selectBackend cpu svc hash).2.rrCounters := by
  obtain ⟨rr, hrr⟩ := selectBackend_snd m cpu svc hash
  have hslot : q.slot m cpu = if svc.backendCount = 0 then none
      else some (svc.backendOffset.toUInt32 + (m.selectBackend cpu svc hash).1).toNat := by
    rw [slot, h, Option.bind_some]
  have hbackend : ∀ i, (m.selectBackend cpu svc hash).2.backend i = m.backend i := by
    intro i
    rw [hrr]
    rfl
  rw [hslot]
  cases q with
  | packet dstIp dstPort protocol srcIp srcPort scope =>
    obtain ⟨hon, h⟩ := Option.ite_none_left_eq_some.mp h
    split at h
    · cases h
    · next hct =>
      obtain ⟨svc', hsvc, heq⟩ := Option.map_eq_some_iff.mp h
      obtain ⟨rfl, rfl⟩ := Prod.mk.inj heq
      simp only [run, serviceLookup, if_neg hon, hct, hsvc, hbackend]
      by_cases hzero : svc'.backendCount = 0
      · simp [hzero]
      · simp only [if_neg hzero, Option.bind_some]
        cases m.backend _ <;> exact ⟨rfl, rfl⟩
  | socket dstIp dstPort protocol =>
    obtain ⟨hon, h⟩ := Option.ite_none_left_eq_some.mp h
    obtain ⟨svc', hsvc, heq⟩ := Option.map_eq_some_iff.mp h
    obtain ⟨rfl, rfl⟩ := Prod.mk.inj heq
    simp only [run, sockServiceLookup, if_neg hon, hsvc, hbackend]
    by_cases hzero : svc'.backendCount = 0
    · simp [hzero]
    · simp only [if_neg hzero, Option.bind_some]
      cases m.backend _ <;> exact ⟨rfl, rfl⟩

theorem Lookup.rrCounters_of_no_entry (h : q.entryOf m = none) :
    (q.run m cpu).2.rrCounters = m.rrCounters := by
  cases q with
  | packet dstIp dstPort protocol srcIp srcPort scope =>
    simp only [run, serviceLookup]
    simp only [entryOf] at h
    split at h
    · next hoff => simp [hoff]
    · next hon =>
      rw [if_neg hon]
      cases hct : m.conntrack.lookup ⟨srcIp, dstIp, srcPort, dstPort, protocol⟩ with
      | some ct => rfl
      | none =>
        simp only [hct] at h
        rw [Option.map_eq_none_iff.mp h]
  | socket dstIp dstPort protocol =>
    simp only [run, sockServiceLookup]
    simp only [entryOf] at h
    split at h
    · next hoff => simp [hoff]
    · next hon => simp [hon, Option.map_eq_none_iff.mp h]

end Runs

section RoundRobin

variable {m : L4Maps} {cpu : Nat} {q : Lookup} {svc : ServiceValue}

theorem selectBackend_roundRobin (hrr : svc.algorithm = lbAlgRoundRobin) (hash : UInt32) :
    m.selectBackend cpu svc hash =
      if svc.backendOffset.toNat < maxServices then
        (m.counter cpu svc.backendOffset.toNat % svc.backendCount.toUInt32,
          { m with rrCounters := m.rrCounters.insert (cpu, svc.backendOffset.toNat) <|
              m.counter cpu svc.backendOffset.toNat + 1 })
      else (0, m) := by
  rw [selectBackend, if_pos hrr]
  rfl

theorem toNat_index {offset count : UInt16} (hcount : count ≠ 0) (v : UInt32) :
    (offset.toUInt32 + v % count.toUInt32).toNat = offset.toNat + v.toNat % count.toNat := by
  have hoffset := offset.toNat_lt
  have hlt := count.toNat_lt
  have hpos : 0 < count.toNat := Nat.pos_of_ne_zero fun h => hcount (UInt16.toNat_inj.mp h)
  have hmod := Nat.mod_lt v.toNat hpos
  rw [UInt32.toNat_add, UInt32.toNat_mod, UInt16.toNat_toUInt32, UInt16.toNat_toUInt32]
  omega

theorem Lookup.slot_roundRobin (hrr : svc.algorithm = lbAlgRoundRobin)
    (hcount : svc.backendCount ≠ 0) (h : (q.entryOf m).map Prod.fst = some svc) :
    q.slot m cpu = some (svc.backendOffset.toNat +
      if svc.backendOffset.toNat < maxServices then
        (m.counter cpu svc.backendOffset.toNat).toNat % svc.backendCount.toNat
      else 0) := by
  obtain ⟨e, he, rfl⟩ := Option.map_eq_some_iff.mp h
  rw [slot, he, Option.bind_some, if_neg hcount, selectBackend_roundRobin hrr]
  by_cases hoff : e.1.backendOffset.toNat < maxServices
  · rw [if_pos hoff, if_pos hoff, toNat_index hcount]
  · rw [if_neg hoff, if_neg hoff]
    simp

variable (cpu) in
theorem Lookup.counter_run (hrr : svc.algorithm = lbAlgRoundRobin)
    (hcount : svc.backendCount ≠ 0) (hoff : svc.backendOffset.toNat < maxServices)
    (h : (q.entryOf m).map Prod.fst = some svc) :
    (q.run m cpu).2.counter cpu svc.backendOffset.toNat =
      m.counter cpu svc.backendOffset.toNat + 1 := by
  obtain ⟨⟨svc', hash⟩, he, rfl⟩ := Option.map_eq_some_iff.mp h
  rw [counter, (run_of_entry he).2, if_neg hcount, selectBackend_roundRobin hrr, if_pos hoff,
    Finmap.lookup_insert, Option.getD_some]

theorem counter_selectBackend_of_ne {offset : UInt16} (h : svc.backendOffset ≠ offset)
    (hash : UInt32) :
    (m.selectBackend cpu svc hash).2.counter cpu offset.toNat = m.counter cpu offset.toNat := by
  have hne : (cpu, offset.toNat) ≠ (cpu, svc.backendOffset.toNat) := fun heq =>
    h (UInt16.toNat_inj.mp (Prod.mk.inj heq).2.symm)
  unfold selectBackend
  split
  · split
    · rw [counter, Finmap.lookup_insert_of_ne _ hne]
      rfl
    · rfl
  · split <;> rfl

theorem Lookup.counter_run_other
    (hother : ∀ e ∈ q.entryOf m, e.1.backendOffset = svc.backendOffset → e.1 = svc)
    (h : (q.entryOf m).map Prod.fst ≠ some svc) :
    (q.run m cpu).2.counter cpu svc.backendOffset.toNat = m.counter cpu svc.backendOffset.toNat := by
  cases he : q.entryOf m with
  | none => rw [counter, rrCounters_of_no_entry he, counter]
  | some e =>
    have hne : e.1.backendOffset ≠ svc.backendOffset := fun heq => h (by
      rw [he, Option.map_some, hother e he heq])
    rw [counter, (run_of_entry he).2]
    split
    · rfl
    · exact counter_selectBackend_of_ne hne e.2

theorem Lookup.selections_const {c : Option Nat}
    (hc : ∀ m (q : Lookup), (q.entryOf m).map Prod.fst = some svc → q.slot m cpu = c)
    (m : L4Maps) (qs : List Lookup) :
    selections cpu svc m qs = replicate (selections cpu svc m qs).length c := by
  induction qs generalizing m with
  | nil => rfl
  | cons q qs ih =>
    rw [selections]
    split
    · next h => rw [hc m q h, length_cons, replicate_succ, ← ih]
    · exact ih _

theorem Lookup.selections_counted (hrr : svc.algorithm = lbAlgRoundRobin)
    (hcount : svc.backendCount ≠ 0) (hoff : svc.backendOffset.toNat < maxServices)
    {qs : List Lookup} (hqs : Undisturbed cpu svc m qs) :
    selections cpu svc m qs = (range (selections cpu svc m qs).length).map fun j =>
      some (svc.backendOffset.toNat + ((m.counter cpu svc.backendOffset.toNat).toNat + j) % 2 ^ 32 %
        svc.backendCount.toNat) := by
  induction qs generalizing m with
  | nil => rfl
  | cons q qs ih =>
    rw [selections]
    split
    · next h =>
      have hlt := (m.counter cpu svc.backendOffset.toNat).toNat_lt
      rw [slot_roundRobin hrr hcount h, if_pos hoff, length_cons, range_succ_eq_map,
        map_cons, map_map, Nat.add_zero, Nat.mod_eq_of_lt hlt]
      refine congrArg _ ((ih hqs.2).trans (map_congr_left fun j _ => ?_))
      rw [counter_run cpu hrr hcount hoff h, UInt32.toNat_add, UInt32.toNat_one, Nat.mod_add_mod,
        Function.comp_apply, Nat.add_assoc, Nat.add_comm 1 j]
    · next h =>
      rw [← counter_run_other hqs.1 h]
      exact ih hqs.2

end RoundRobin

section Entries

variable {e : ServiceEntry}

theorem toNat_stored_offset (hcount : 1 ≤ e.backendCount)
    (hroom : e.backendOffset + e.backendCount ≤ maxBackends) :
    (serviceValue e).backendOffset.toNat = e.backendOffset :=
  UInt16.toNat_ofNat_of_lt' (Nat.lt_of_lt_of_le (by omega : e.backendOffset < _) hroom)

theorem stored_count (hcount : 1 ≤ e.backendCount)
    (hroom : e.backendOffset + e.backendCount ≤ maxBackends) :
    e.backendCount = 65536 ∧ (serviceValue e).backendCount = 0 ∨
      e.backendCount < 65536 ∧ (serviceValue e).backendCount.toNat = e.backendCount ∧
        (serviceValue e).backendCount ≠ 0 := by
  unfold maxBackends at hroom
  rcases Nat.lt_or_ge e.backendCount 65536 with hlt | hge
  · have htoNat : (serviceValue e).backendCount.toNat = e.backendCount :=
      UInt16.toNat_ofNat_of_lt' hlt
    refine .inr ⟨hlt, htoNat, fun hzero => ?_⟩
    rw [hzero, UInt16.toNat_zero] at htoNat
    omega
  · have hfull : e.backendCount = 65536 := by omega
    exact .inl ⟨hfull, by rw [serviceValue, hfull]; rfl⟩

theorem stored_roundRobin (hrr : e.algorithm = .roundRobin) :
    (serviceValue e).algorithm = lbAlgRoundRobin := by
  rw [serviceValue, hrr]
  rfl

end Entries

/-- As many selections as there are backends meet each of them once exactly if there is a counter
for the slot and it does not start anew on the way, unless it starts anew on a full round. A
single backend needs no counter, and 65536 of them are stored as none. -/
theorem round_robin_fair_iff {e : ServiceEntry} (hrr : e.algorithm = .roundRobin)
    (hcount : 1 ≤ e.backendCount) (hroom : e.backendOffset + e.backendCount ≤ maxBackends)
    {m : L4Maps} {cpu : Nat} {qs : List Lookup}
    (hqs : Undisturbed cpu (serviceValue e) m qs)
    (hlen : (selections cpu (serviceValue e) m qs).length = e.backendCount) :
    (selections cpu (serviceValue e) m qs).Perm
        ((List.range' e.backendOffset e.backendCount).map some) ↔
      e.backendCount < 65536 ∧ (e.backendCount = 1 ∨ e.backendOffset < maxServices ∧
        (e.backendCount ∣ 2 ^ 32 ∨
          (m.counter cpu e.backendOffset).toNat + e.backendCount ≤ 2 ^ 32)) := by
  have hoffset := toNat_stored_offset hcount hroom
  have halg := stored_roundRobin hrr
  rcases stored_count hcount hroom with ⟨hfull, hzero⟩ | ⟨hlt, htoNat, hne⟩
  · refine iff_of_false (fun hperm => ?_) (by omega)
    rw [selections_const (c := none) (fun m q h => ?_), hlen] at hperm
    · have hmem := hperm.mem_iff.mp (mem_replicate.mpr ⟨by omega, rfl⟩)
      simp at hmem
    · obtain ⟨e', he, heq⟩ := Option.map_eq_some_iff.mp h
      rw [slot, he, Option.bind_some, heq, if_pos hzero]
  · by_cases hoff : e.backendOffset < maxServices
    · have hv := (m.counter cpu e.backendOffset).toNat_lt
      have hsel := selections_counted halg hne (hoffset.symm ▸ hoff) hqs
      rw [hlen, hoffset, htoNat] at hsel
      have hinj : Function.Injective fun i => some (e.backendOffset + i) := fun i j hij =>
        Nat.add_left_cancel (Option.some.inj hij)
      have hreadings := Rotation.perm_readings_iff hcount (by omega) hv
      have hrange : (range' e.backendOffset e.backendCount).map some =
          (range e.backendCount).map fun i => some (e.backendOffset + i) := by
        rw [range'_eq_map_range, map_map]
        rfl
      have hmap := (map_perm_map_iff hinj).trans hreadings
      rw [map_map] at hmap
      rw [hsel, hrange]
      refine hmap.trans ?_
      constructor
      · exact fun h => ⟨hlt, .inr ⟨hoff, h⟩⟩
      · rintro ⟨-, hone | ⟨-, h⟩⟩
        · exact .inl (hone ▸ Nat.one_dvd _)
        · exact h
    · rw [selections_const (c := some e.backendOffset) (fun m q h => ?_), hlen]
      · constructor
        · intro hperm
          refine ⟨hlt, .inl ?_⟩
          by_contra hmany
          have hmem := hperm.mem_iff.mpr (mem_map_of_mem (mem_range'_1.mpr
            (show e.backendOffset ≤ e.backendOffset + 1 ∧ _ by omega)))
          have heq := Option.some.inj (eq_of_mem_replicate hmem)
          omega
        · rintro ⟨-, hone | ⟨hin, -⟩⟩
          · rw [hone]
            exact List.Perm.refl _
          · exact absurd hin hoff
      · rw [slot_roundRobin halg hne h, hoffset, if_neg hoff, Nat.add_zero]

section Sockets

/-- A connect to a service: neither the client nor the cookie of the socket reaches the lookup.
`earlier` has the processors of the connects to the service before it. -/
structure ConnectAttempt where
  clientIp : UInt32
  cookie : UInt64
  cpu : Nat
  earlier : List Nat

def ConnectAttempt.slot (a : ConnectAttempt) (m : L4Maps) (q : Lookup) : Option Nat :=
  q.slot (a.earlier.foldl (fun m cpu => (q.run m cpu).2) m) a.cpu

variable {m : L4Maps} (dstIp : UInt32) (dstPort : UInt16) (protocol : UInt8)

theorem socket_run_snd (m : L4Maps) (cpu : Nat) :
    ∃ rr, ((socket dstIp dstPort protocol).run m cpu).2 = { m with rrCounters := rr } := by
  simp only [run, sockServiceLookup]
  split
  · exact ⟨m.rrCounters, rfl⟩
  · split
    · exact ⟨m.rrCounters, rfl⟩
    · split
      · exact ⟨m.rrCounters, rfl⟩
      · next svc _ _ =>
        obtain ⟨rr, hrr⟩ := selectBackend_snd m cpu svc (hash3tuple dstIp dstPort protocol)
        split <;> exact ⟨rr, hrr⟩

theorem foldl_socket_run (m : L4Maps) (cpus : List Nat) :
    ∃ rr, cpus.foldl (fun m cpu => ((socket dstIp dstPort protocol).run m cpu).2) m =
      { m with rrCounters := rr } := by
  induction cpus generalizing m with
  | nil => exact ⟨m.rrCounters, rfl⟩
  | cons cpu cpus ih =>
    obtain ⟨rr, hrun⟩ := socket_run_snd dstIp dstPort protocol m cpu
    obtain ⟨rr', hrest⟩ := ih { m with rrCounters := rr }
    exact ⟨rr', by rw [foldl_cons, hrun, hrest]⟩

variable {dstIp dstPort protocol} {svc : ServiceValue}
  (hon : m.getConfig configKeyL4lbEnabled ≠ 0)
  (hsvc : m.services.lookup ⟨dstIp, dstPort, protocol, scopeClusterIp⟩ = some svc)

include hon hsvc

theorem socket_entry (rr : Finmap fun _ : Nat × Nat => UInt32) :
    (socket dstIp dstPort protocol).entryOf { m with rrCounters := rr } =
      some (svc, hash3tuple dstIp dstPort protocol) := by
  simp only [entryOf]
  rw [if_neg (show ¬ getConfig { m with rrCounters := rr } _ = 0 from hon)]
  exact congrArg (Option.map _) hsvc

/-- The earlier connects leave the entry in its place and only count. -/
theorem ConnectAttempt.slot_eq (a : ConnectAttempt) :
    ∃ rr, a.slot m (.socket dstIp dstPort protocol) =
        (socket dstIp dstPort protocol).slot { m with rrCounters := rr } a.cpu ∧
      ((socket dstIp dstPort protocol).entryOf { m with rrCounters := rr }).map Prod.fst =
        some svc := by
  obtain ⟨rr, hrr⟩ := foldl_socket_run dstIp dstPort protocol m a.earlier
  exact ⟨rr, by rw [slot, hrr], by rw [socket_entry hon hsvc]; rfl⟩

theorem counter_after_connects (hrr : svc.algorithm = lbAlgRoundRobin)
    (hcount : svc.backendCount ≠ 0) (hoff : svc.backendOffset.toNat < maxServices) (cpu k : Nat) :
    ∃ rr, (replicate k cpu).foldl
        (fun m cpu => ((socket dstIp dstPort protocol).run m cpu).2) m = { m with rrCounters := rr } ∧
      (counter { m with rrCounters := rr } cpu svc.backendOffset.toNat).toNat =
        ((m.counter cpu svc.backendOffset.toNat).toNat + k) % 2 ^ 32 := by
  induction k generalizing m with
  | zero => exact ⟨m.rrCounters, rfl, (Nat.mod_eq_of_lt (UInt32.toNat_lt _)).symm⟩
  | succ k ih =>
    have hnext := counter_run cpu hrr hcount hoff
      (congrArg (Option.map Prod.fst) (socket_entry hon hsvc m.rrCounters))
    obtain ⟨rr, hrun⟩ := socket_run_snd dstIp dstPort protocol m cpu
    rw [hrun] at hnext
    obtain ⟨rr', hfold, hih⟩ := ih (m := { m with rrCounters := rr }) hon hsvc
    refine ⟨rr', by rw [replicate_succ, foldl_cons, hrun, hfold], ?_⟩
    rw [hih, hnext, UInt32.toNat_add, UInt32.toNat_one, Nat.mod_add_mod, Nat.add_assoc,
      Nat.add_comm 1 k]

/-- The hash of a connect is that of the service address. -/
theorem ConnectAttempt.slot_of_hashed (hnot : svc.algorithm ≠ lbAlgRoundRobin)
    (a : ConnectAttempt) : a.slot m (.socket dstIp dstPort protocol) =
      (socket dstIp dstPort protocol).slot m 0 := by
  obtain ⟨rr, hrr⟩ := foldl_socket_run dstIp dstPort protocol m a.earlier
  rw [slot, hrr, Lookup.slot, socket_entry hon hsvc, Lookup.slot,
    socket_entry hon hsvc m.rrCounters, Option.bind_some, Option.bind_some, selectBackend,
    if_neg hnot, selectBackend, if_neg hnot]
  by_cases hmaglev : svc.algorithm = lbAlgMaglev
  · rw [if_pos hmaglev, if_pos hmaglev]
    rfl
  · rw [if_neg hmaglev, if_neg hmaglev]

end Sockets

/-- Every backend is selected for some connect exactly if the service goes round its backends
and has a counter. -/
theorem socket_lb_spreads_iff {e : ServiceEntry} (htwo : 2 ≤ e.backendCount)
    (hroom : e.backendOffset + e.backendCount ≤ maxBackends) {m : L4Maps}
    (hon : m.getConfig configKeyL4lbEnabled ≠ 0) {dstIp : UInt32} {dstPort : UInt16}
    {protocol : UInt8}
    (hsvc : m.services.lookup ⟨dstIp, dstPort, protocol, scopeClusterIp⟩ = some (serviceValue e)) :
    (∀ i, e.backendOffset ≤ i → i < e.backendOffset + e.backendCount →
        ∃ a : ConnectAttempt, a.slot m (.socket dstIp dstPort protocol) = some i) ↔
      e.algorithm = .roundRobin ∧ e.backendOffset < maxServices ∧ e.backendCount < 65536 := by
  have hcount : 1 ≤ e.backendCount := by omega
  have hoffset := toNat_stored_offset hcount hroom
  constructor
  · intro hall
    -- a lookup that always reads the same index misses one of two backends
    have hconst : ∀ c, (∀ a : ConnectAttempt, a.slot m (.socket dstIp dstPort protocol) = c) →
        False := by
      intro c hc
      obtain ⟨a, ha⟩ := hall e.backendOffset (Nat.le_refl _) (by omega)
      obtain ⟨b, hb⟩ := hall (e.backendOffset + 1) (by omega) (by omega)
      rw [hc] at ha hb
      have heq := Option.some.inj (ha.symm.trans hb)
      omega
    rcases stored_count hcount hroom with ⟨-, hzero⟩ | ⟨hlt, -, hne⟩
    · refine (hconst none fun a => ?_).elim
      obtain ⟨rr, hslot, hentry⟩ := a.slot_eq hon hsvc
      obtain ⟨e', he, heq⟩ := Option.map_eq_some_iff.mp hentry
      rw [hslot, slot, he, Option.bind_some, heq, if_pos hzero]
    by_cases hrr : e.algorithm = .roundRobin
    · refine ⟨hrr, ?_, hlt⟩
      by_contra hoff
      refine hconst (some e.backendOffset) fun a => ?_
      obtain ⟨rr, hslot, hentry⟩ := a.slot_eq hon hsvc
      rw [hslot, slot_roundRobin (stored_roundRobin hrr) hne hentry, hoffset, if_neg hoff, Nat.add_zero]
    · refine (hconst _ fun a => a.slot_of_hashed hon hsvc fun h => ?_).elim
      have hnumber : UInt8.ofNat e.algorithm.number = lbAlgRoundRobin := h
      cases halg : e.algorithm with
      | roundRobin => exact hrr halg
      | random | maglev => exact absurd (halg ▸ hnumber) (by decide)
  · rintro ⟨hrr, hoff, hlt⟩ i hle hi
    obtain ⟨-, htoNat, hne⟩ := (stored_count hcount hroom).resolve_left fun h => by omega
    have hv := (m.counter 0 e.backendOffset).toNat_lt
    -- the connect for which the counter stands at the place of the backend
    obtain ⟨k, hk⟩ : ∃ k, (m.counter 0 e.backendOffset).toNat + k = i - e.backendOffset + 2 ^ 32 :=
      ⟨i - e.backendOffset + (2 ^ 32 - (m.counter 0 e.backendOffset).toNat), by omega⟩
    obtain ⟨rr, hfold, hcounter⟩ := counter_after_connects hon hsvc (stored_roundRobin hrr) hne
      (hoffset.symm ▸ hoff) 0 k
    have hentry := congrArg (Option.map Prod.fst) (socket_entry hon hsvc rr)
    refine ⟨⟨0, 0, 0, replicate k 0⟩, ?_⟩
    rw [ConnectAttempt.slot, hfold, slot_roundRobin (stored_roundRobin hrr) hne hentry,
      hcounter, hoffset, if_pos hoff, htoNat, hk, Nat.add_mod_right,
      Nat.mod_eq_of_lt (show i - e.backendOffset < 2 ^ 32 by omega),
      Nat.mod_eq_of_lt (show i - e.backendOffset < e.backendCount by omega),
      Nat.add_sub_cancel' hle]

section Example

/-- Two backends from a slot on, behind port 80 of address 0. -/
def twoBackends (algorithm : Algorithm) (offset : Nat) : ServiceEntry :=
  ⟨2, offset, algorithm, 0, 0, 0⟩

def twoBackendMaps (algorithm : Algorithm) (offset : Nat) : L4Maps where
  config := (∅ : Finmap _).insert configKeyL4lbEnabled 1
  services := (∅ : Finmap _).insert ⟨0, 80, 6, 0⟩ (serviceValue (twoBackends algorithm offset))
  backends := ∅
  maglev := ∅
  conntrack := ∅
  rrCounters := ∅
  v6Loaded := false

def lookTwice : List Lookup := [.socket 0 80 6, .packet 0 80 6 1 1024 0]

theorem round_robin_fair_two :
    (selections 0 (serviceValue (twoBackends .roundRobin 0))
      (twoBackendMaps .roundRobin 0) lookTwice).Perm ((List.range' 0 2).map some) := by
  have hqs : Undisturbed 0 (serviceValue (twoBackends .roundRobin 0))
      (twoBackendMaps .roundRobin 0) lookTwice :=
    ⟨by decide +kernel, by decide +kernel, trivial⟩
  exact (round_robin_fair_iff rfl (by decide) (by decide) hqs (by decide +kernel)).mpr
    (by decide +kernel)

/-- There is no counter for slot 16384. -/
theorem round_robin_unfair :
    ¬ (selections 0 (serviceValue (twoBackends .roundRobin 16384))
      (twoBackendMaps .roundRobin 16384) lookTwice).Perm ((List.range' 16384 2).map some) := by
  decide +kernel

theorem socket_lb_spreads_two : 2 ≤ (twoBackends .roundRobin 0).backendCount ∧
    ∀ i, 0 ≤ i → i < 0 + 2 →
      ∃ a : ConnectAttempt, a.slot (twoBackendMaps .roundRobin 0) (.socket 0 80 6) = some i :=
  ⟨by decide, (socket_lb_spreads_iff (e := twoBackends .roundRobin 0) (by decide) (by decide)
    (by decide +kernel) (by decide +kernel)).mpr (by decide)⟩

/-- With the default algorithm every connect goes to the same backend. -/
theorem socket_lb_does_not_spread : ¬ ∃ a : ConnectAttempt,
    a.slot (twoBackendMaps .random 0) (.socket 0 80 6) = some 0 := by
  rintro ⟨a, ha⟩
  have hsvc : (twoBackendMaps .random 0).services.lookup ⟨0, 80, 6, scopeClusterIp⟩ =
      some (serviceValue (twoBackends .random 0)) := by decide +kernel
  rw [a.slot_of_hashed (by decide +kernel) hsvc (by decide)] at ha
  exact absurd ha (by decide +kernel)

end Example

end NovaNet
