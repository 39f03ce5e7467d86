import NovaNet.FrrEffects
import NovaNet.RoutingReconciler

/-! The rendering of an intent: the lines that FRR holds for it. -/

namespace NovaNet

open KeyedConfig LastWrite List

attribute [local simp] FrrLine.object

section Rendering

variable (names : FrrNames)

def familyLines (lines : Afi → FrrSettings) (afi : String) : FrrSettings :=
  (afiOf afi).elim [] lines

def PeerIntent.settings (p : PeerIntent) : FrrSettings :=
  neighborLines names p.neighborAddress p.remoteAs p.keepalive p.holdTime p.neighborConfig ++
    p.afiNames.flatMap (familyLines (activateLines names p.neighborAddress)) ++
    p.afiNames.flatMap (familyLines (maxPrefixLines names p.neighborAddress p.maxPfx))

def PeerIntent.lines (p : PeerIntent) : FrrSettings :=
  p.settings names ++ onlyIf (p.bfdEnabled = true) (bfdLine names p.neighborAddress, [])

def PrefixIntent.mapLines (p : PrefixIntent) : FrrSettings :=
  if p.HasAttributes then routeMapLines (routeMapName p.pfx) p.setCmds else []

def prefixAfi (pfx : String) : Afi := if ':' ∈ pfx.toList then .ipv6Unicast else .ipv4Unicast

theorem afiOf_detectAfi (pfx : String) : afiOf (detectAfi pfx) = some (prefixAfi pfx) := by
  unfold detectAfi prefixAfi
  split <;> decide

def PrefixIntent.networkLine (p : PrefixIntent) : FrrLine :=
  .network (prefixAfi p.pfx) (names.network p.pfx)

def PrefixIntent.lines (p : PrefixIntent) : FrrSettings :=
  if p.protocol ≠ .bgp then []
  else p.mapLines ++ [(p.networkLine names,
    if p.HasAttributes then ["route-map", routeMapName p.pfx] else [])]

def BfdIntent.lines (b : BfdIntent) : FrrSettings :=
  sessionLines names b.peerAddress b.interfaceName b.minRxMs b.minTxMs b.detectMultiplier

/-- OSPFv3 does not take the intervals. -/
def OspfIntent.lines (o : OspfIntent) : FrrSettings :=
  ospfLines o.ipv6 o.interfaceName o.areaId o.passive o.cost
    (if o.ipv6 then 0 else o.helloInterval) (if o.ipv6 then 0 else o.deadInterval)

def PeerScope (i : FrrLine) : Prop := ∃ a, i.object = .neighbor a

def PeerOwns (k : String) (i : FrrLine) : Prop := i.object = .neighbor (names.addr k)

def PrefixScope (i : FrrLine) : Prop :=
  (∃ n, i.object = .network n) ∨ ∃ n, i.object = .routeMap n

def PrefixOwns (k : PrefixKey) (i : FrrLine) : Prop :=
  k.1 = .bgp ∧ (i.object = .network (names.network k.2) ∨ i.object = .routeMap (routeMapName k.2))

def BfdScope (i : FrrLine) : Prop := ∃ a, i.object = .session a

def BfdOwns (k : String) (i : FrrLine) : Prop := i.object = .session (names.addr k)

def OspfScope (i : FrrLine) : Prop := ∃ n, i.object = .interface n

def OspfOwns (k : String) (i : FrrLine) : Prop := i.object = .interface k

end Rendering

/-- The conditions under which the client and FRR take every command for the intent. -/
def PeerIntent.Valid (p : PeerIntent) : Prop :=
  IsAddress p.neighborAddress ∧ VtySafe p.description ∧ VtySafe p.password ∧
    (p.sourceAddress ≠ "" → IsAddress p.sourceAddress)

def PrefixIntent.Valid (p : PrefixIntent) : Prop :=
  p.protocol ≠ .unspecified ∧ (p.protocol = .bgp → VtySafe p.pfx ∧ ∀ cmd ∈ p.setCmds, VtySafe cmd)

def BfdIntent.Valid (b : BfdIntent) : Prop := IsAddress b.peerAddress ∧ VtySafe b.interfaceName

def OspfIntent.Valid (o : OspfIntent) : Prop := VtySafe o.interfaceName ∧ VtySafe o.areaId

instance (p : PeerIntent) : Decidable p.Valid := inferInstanceAs (Decidable (_ ∧ _ ∧ _ ∧ _))

instance (p : PrefixIntent) : Decidable p.Valid := inferInstanceAs (Decidable (_ ∧ _))

instance (b : BfdIntent) : Decidable b.Valid := inferInstanceAs (Decidable (_ ∧ _))

instance (o : OspfIntent) : Decidable o.Valid := inferInstanceAs (Decidable (_ ∧ _))

section Lines

variable {names : FrrNames}

theorem PeerIntent.afiOf_mem_afiNames {p : PeerIntent} {afi : String} (h : afi ∈ p.afiNames) :
    ∃ af, afiOf afi = some af := by
  obtain ⟨hafi, hne⟩ := mem_filter.mp h
  obtain ⟨family, -, rfl⟩ := List.mem_map.mp hafi
  cases family with
  | unspecified => exact absurd hne (by decide)
  | ipv4Unicast | ipv6Unicast => exact ⟨_, rfl⟩

variable {P : FrrLine × List String → Prop} {p : PrefixIntent} {i : FrrLine} {n : String}

theorem forall_mem_familyLines {lines : Afi → FrrSettings} (h : ∀ af, ∀ e ∈ lines af, P e)
    (afi : String) : ∀ e ∈ familyLines lines afi, P e := by
  unfold familyLines
  cases afiOf afi with
  | none => simp
  | some af => exact h af

theorem PeerIntent.forall_mem_settings {p : PeerIntent}
    (hnbr : ∀ e ∈ neighborLines names p.neighborAddress p.remoteAs p.keepalive p.holdTime
      p.neighborConfig, P e)
    (hact : ∀ af, ∀ e ∈ activateLines names p.neighborAddress af, P e)
    (hmax : ∀ af, ∀ e ∈ maxPrefixLines names p.neighborAddress p.maxPfx af, P e) :
    ∀ e ∈ p.settings names, P e := by
  rw [settings, forall_mem_append, forall_mem_append]
  refine ⟨⟨hnbr, ?_⟩, ?_⟩
  · rw [forall_mem_flatMap]
    exact fun afi _ => forall_mem_familyLines hact afi
  · rw [forall_mem_flatMap]
    exact fun afi _ => forall_mem_familyLines hmax afi

theorem forall_mem_neighborLines {addr : String} {remoteAs keepalive holdTime : Nat}
    {cfg : NeighborConfig}
    (h : ∀ attr words, attr ≠ .bfd → P (.neighbor (names.addr addr) attr, words)) :
    ∀ e ∈ neighborLines names addr remoteAs keepalive holdTime cfg, P e := by
  simp only [neighborLines, flatten_cons, flatten_nil, forall_mem_append,
    forall_mem_cons, forall_mem_onlyIf]
  simp [h]

theorem PeerIntent.owns_settings (names : FrrNames) (p : PeerIntent) :
    ∀ e ∈ p.settings names, PeerOwns names p.neighborAddress e.1 := by
  refine forall_mem_settings (forall_mem_neighborLines fun _ _ _ => rfl) ?_ ?_
  · simp [activateLines, PeerOwns]
  · simp [maxPrefixLines, PeerOwns]

theorem PeerIntent.settings_ne_bfd (names : FrrNames) (p : PeerIntent) (a : String) :
    ∀ e ∈ p.settings names, e.1 ≠ bfdLine names a := by
  refine forall_mem_settings (forall_mem_neighborLines fun attr _ hattr => ?_) ?_ ?_
  · simp [bfdLine, hattr]
  · simp [activateLines, bfdLine]
  · simp [maxPrefixLines, bfdLine]

theorem PeerIntent.written_remoteAs (names : FrrNames) (p : PeerIntent) :
    (written (.neighbor (names.addr p.neighborAddress) .remoteAs) (p.settings names)).isSome := by
  refine written_isSome
    (e := (FrrLine.neighbor (names.addr p.neighborAddress) .remoteAs, [toString p.remoteAs])) ?_
  simp [settings, neighborLines]

theorem routeMapLines_object (name : String) (cmds : List String) :
    ∀ e ∈ routeMapLines name cmds, e.1.object = .routeMap name := by
  simp only [routeMapLines, forall_mem_cons, List.forall_mem_map]
  simp

theorem PrefixIntent.mapLines_object (p : PrefixIntent) :
    ∀ e ∈ p.mapLines, e.1.object = .routeMap (routeMapName p.pfx) := by
  by_cases ha : p.HasAttributes
  · rw [mapLines, if_pos ha]
    exact routeMapLines_object _ _
  · simp [mapLines, ha]

theorem PrefixIntent.owns_lines (names : FrrNames) (p : PrefixIntent) :
    ∀ e ∈ p.lines names, PrefixOwns names p.key e.1 := by
  intro e he
  by_cases hb : p.protocol = .bgp
  · rw [lines, if_neg (not_not.mpr hb), mem_append, List.mem_singleton] at he
    rcases he with he | rfl
    · exact ⟨hb, .inr (p.mapLines_object e he)⟩
    · exact ⟨hb, .inl rfl⟩
  · simp [lines, hb] at he

theorem PrefixIntent.written_of_network (hbgp : p.protocol = .bgp) (hi : i.object = .network n) :
    written i (p.lines names) = if p.networkLine names = i then
      some (if p.HasAttributes then ["route-map", routeMapName p.pfx] else []) else none := by
  have hmap : written i p.mapLines = none := written_eq_none_iff.mpr fun e he heq => by
    have hobj := p.mapLines_object e he
    rw [heq, hi] at hobj
    simp at hobj
  rw [lines, if_neg (not_not.mpr hbgp), written_append, hmap, Option.or_none]
  rfl

theorem PrefixIntent.written_of_routeMap (hbgp : p.protocol = .bgp) (hi : i.object = .routeMap n) :
    written i (p.lines names) = written i p.mapLines := by
  have hnet : p.networkLine names ≠ i := by
    rintro rfl
    simp [networkLine] at hi
  rw [lines, if_neg (not_not.mpr hbgp), written_append, written_cons, if_neg hnet, written_nil,
    Option.none_or, Option.none_or]

theorem BfdIntent.owns_lines (names : FrrNames) (b : BfdIntent) :
    ∀ e ∈ b.lines names, e.1.session? = some (names.addr b.peerAddress, b.interfaceName) := by
  simp only [lines, sessionLines, flatten_cons, flatten_nil, forall_mem_append,
    forall_mem_cons, forall_mem_onlyIf]
  simp [FrrLine.session?]

theorem bfdOwns_of_session {l : FrrLine} {a iface : String}
    (h : l.session? = some (names.addr a, iface)) : BfdOwns names a l := by
  cases l <;> simp_all [FrrLine.session?, BfdOwns]

theorem OspfIntent.owns_lines (o : OspfIntent) : ∀ e ∈ o.lines, OspfOwns o.interfaceName e.1 := by
  simp only [lines, ospfLines, flatten_cons, flatten_nil, forall_mem_append,
    forall_mem_cons, forall_mem_onlyIf]
  simp [OspfOwns]

theorem globalLines_object (localAs : Nat) (routerId : String) :
    ∀ e ∈ globalLines localAs routerId, e.1.object = .bgp := by
  simp [globalLines]

end Lines

end NovaNet
