import NovaNet.ErrorState
import NovaNet.FrrClient

/-! What each call of the FRR client does to the running configuration: without an error the
lines named here, and nothing with one. -/

namespace NovaNet

open ErrorState KeyedConfig LastWrite List Option

def VtySafe (s : String) : Prop := ∀ r ∈ s.toList, isControl r = false

def IsAddress (s : String) : Prop := (Net.parseIp s).isSome = true

instance (s : String) : Decidable (VtySafe s) :=
  List.decidableBAll (fun r => isControl r = false) s.toList

instance (s : String) : Decidable (IsAddress s) :=
  inferInstanceAs (Decidable ((Net.parseIp s).isSome = true))

attribute [local simp] VtyCommand.setting VtyAttr.line

section Checks

theorem sanitizeFrom_ok_iff {rs : List Char} {offset : Nat} :
    sanitizeFrom offset rs = .ok () ↔ ∀ r ∈ rs, isControl r = false := by
  induction rs generalizing offset with
  | nil => simp [sanitizeFrom]
  | cons r rs ih =>
    cases hr : isControl r with
    | true => simp [sanitizeFrom, hr]
    | false => simp [sanitizeFrom, hr, ih]

theorem sanitizeVtyParam_ok_iff {s : String} : sanitizeVtyParam s = .ok () ↔ VtySafe s :=
  sanitizeFrom_ok_iff

theorem validateIpAddress_ok_iff {addr : String} :
    validateIpAddress addr = .ok () ↔ IsAddress addr := by
  unfold validateIpAddress IsAddress
  split <;> simp_all

theorem resolveAfiCli_ok_iff {afi : String} :
    resolveAfiCli afi = .ok () ↔ (afiOf afi).isSome = true := by
  unfold resolveAfiCli
  split <;> simp_all

theorem ifGiven_ok_iff {s : String} {r : Except FrrCause Unit} :
    ifGiven s r = .ok () ↔ (s ≠ "" → r = .ok ()) := by
  unfold ifGiven
  split <;> simp_all

theorem firstError_eq_none {l : List (String × Except FrrCause Unit)} :
    firstError l = none ↔ ∀ e ∈ l, e.2 = .ok () := by
  induction l with
  | nil => simp [firstError]
  | cons e l ih =>
    obtain ⟨context, r⟩ := e
    cases r with
    | ok u => simp [firstError, ih]
    | error e => simp [firstError]

end Checks

section OnlyIf

variable {α β : Type*} {p : Prop} [Decidable p]

@[simp] theorem map_onlyIf (f : α → β) (a : α) : (onlyIf p a).map f = onlyIf p (f a) := by
  by_cases h : p <;> simp [onlyIf, h]

theorem onlyIf_of_not (h : ¬ p) (a : α) : onlyIf p a = [] := if_neg h

theorem mem_onlyIf {a b : α} : b ∈ onlyIf p a ↔ p ∧ b = a := by
  by_cases h : p <;> simp [onlyIf, h]

theorem forall_mem_onlyIf {a : α} {P : α → Prop} : (∀ b ∈ onlyIf p a, P b) ↔ (p → P a) := by
  by_cases h : p <;> simp [onlyIf, h]

end OnlyIf

section Effects

variable (names : FrrNames)

def Ready (as : Nat) (c : FrrConfig) : Prop := as ≠ 0 ∧ c .routerBgp = some [toString as]

variable {cmds : List VtyCommand} {g : FrrConfig → FrrConfig} {afi : String} {l : FrrSettings}
  {c : FrrConfig} {af : Afi} {q : FrrRequest} {as : Nat}

theorem Ready.accepts (h : Ready as c) : AcceptsAs as c := by
  refine ⟨h.1, ?_⟩
  rw [h.2, getD_some]

theorem Ready.enterBgp (h : Ready as c) : enterBgp as c = c := by
  funext i
  rw [NovaNet.enterBgp, writeAll_apply, written_cons, written_nil, none_or]
  by_cases hi : FrrLine.routerBgp = i
  · rw [← hi, h.2]
    simp
  · simp [hi]

def FrrRequest.Ok (q : FrrRequest) (as : Nat) : Prop := firstError (q.checks as) = none

open FrrRequest

/-- With the instance running, the commands of a checked call change the configuration by `g`. -/
def FrrRequest.Does (q : FrrRequest) (g : FrrConfig → FrrConfig) : Prop :=
  ∀ as c, Ready as c → q.Ok as → runCommands names (q.commands as) .config c = some (g c)

variable {names}

theorem FrrRequest.does_of_bgp (hcmds : ∀ as, q.commands as = .routerBgp as :: cmds)
    (h : ∀ c, runCommands names cmds .routerBgp c = some (g c)) : q.Does names g := by
  intro as c hc _
  rw [hcmds as, runCommands_routerBgp, if_pos hc.accepts, hc.enterBgp]
  exact h c

theorem runCommands_of_settings {mode : VtyMode} (h : cmds.map (·.setting names mode) = l.map some)
    (c : FrrConfig) : runCommands names cmds mode c = some (writeAll l c) := by
  have hrun := runCommands_settings names h [] c
  rwa [append_nil] at hrun

variable (names)

def globalLines (localAs : Nat) (routerId : String) : FrrSettings :=
  [(.routerBgp, [toString localAs]), (.bgp .routerId, [routerId]),
    (.bgp .noEbgpRequiresPolicy, []), (.bgp .gracefulRestart, []),
    (.bgp .restartTime, ["120"]), (.bgp .stalepathTime, ["360"])]

def neighborLines (addr : String) (remoteAs keepalive holdTime : Nat) (cfg : NeighborConfig) :
    FrrSettings :=
  List.flatten
    [[(.neighbor (names.addr addr) .remoteAs, [toString remoteAs])],
      onlyIf (0 < keepalive ∧ 0 < holdTime)
        (.neighbor (names.addr addr) .timers, [toString keepalive, toString holdTime]),
      onlyIf (cfg.description ≠ "") (.neighbor (names.addr addr) .description, [cfg.description]),
      onlyIf (cfg.sourceAddress ≠ "") (.neighbor (names.addr addr) .updateSource, [cfg.sourceAddress]),
      onlyIf (0 < cfg.ebgpMultihop)
        (.neighbor (names.addr addr) .ebgpMultihop, [toString cfg.ebgpMultihop]),
      onlyIf (cfg.password ≠ "") (.neighbor (names.addr addr) .password, [cfg.password])]

def bfdLine (addr : String) : FrrLine := .neighbor (names.addr addr) .bfd

def activateLines (addr : String) (af : Afi) : FrrSettings :=
  [(.neighborAf af (names.addr addr) .activate, []),
    (.neighborAf af (names.addr addr) .softReconfiguration, ["inbound"])]

def maxPrefixLines (addr : String) (maxPrefixes : Nat) (af : Afi) : FrrSettings :=
  [(.neighborAf af (names.addr addr) .maximumPrefix, [toString maxPrefixes, "warning-only"])]

def routeMapLines (name : String) (setCmds : List String) : FrrSettings :=
  (.routeMap name none, ["permit", "10"]) :: setCmds.map fun cmd => (.routeMap name (some cmd), [])

def sessionLines (addr iface : String) (minRx minTx detectMult : Nat) : FrrSettings :=
  (.bfdPeer (names.addr addr) iface none, []) :: List.flatten
    [onlyIf (0 < minRx) (.bfdPeer (names.addr addr) iface (some .receiveInterval), [toString minRx]),
      onlyIf (0 < minTx) (.bfdPeer (names.addr addr) iface (some .transmitInterval), [toString minTx]),
      onlyIf (0 < detectMult)
        (.bfdPeer (names.addr addr) iface (some .detectMultiplier), [toString detectMult])]

def ospfLines (v6 : Bool) (iface area : String) (passive : Bool) (cost hello dead : Nat) :
    FrrSettings :=
  List.flatten
    [[(.ospf v6 iface .area, [area])],
      onlyIf (0 < cost) (.ospf v6 iface .cost, [toString cost]),
      onlyIf (0 < hello) (.ospf v6 iface .helloInterval, [toString hello]),
      onlyIf (0 < dead) (.ospf v6 iface .deadInterval, [toString dead]),
      onlyIf (passive = true) (.ospf v6 iface .passive, [])]

variable {names}

theorem addNeighbor_does (addr : String) (remoteAs keepalive holdTime : Nat)
    (cfg : NeighborConfig) : (addNeighbor addr remoteAs keepalive holdTime cfg).Does names
      (writeAll (neighborLines names addr remoteAs keepalive holdTime cfg)) := by
  refine does_of_bgp (fun _ => rfl) (runCommands_of_settings ?_)
  simp [neighborLines]

theorem removeNeighbor_does (addr : String) : (removeNeighbor addr).Does names
    (clear (·.object = .neighbor (names.addr addr))) :=
  does_of_bgp (fun _ => rfl) fun _ => rfl

theorem setNeighborBfd_true (addr : String) : (setNeighborBfd addr true).Does names
    (writeAll [(bfdLine names addr, [])]) :=
  does_of_bgp (fun _ => rfl) (runCommands_of_settings rfl)

theorem setNeighborBfd_false (addr : String) : (setNeighborBfd addr false).Does names
    (clear (· = bfdLine names addr)) :=
  does_of_bgp (fun _ => rfl) fun _ => rfl

theorem does_of_addressFamily (haf : afiOf afi = some af)
    (hcmds : q.commands = inAddressFamily afi cmds)
    (h : ∀ c, runCommands names (cmds ++ [.exitAddressFamily]) (.addressFamily af) c =
      some (g c)) : q.Does names g :=
  does_of_bgp (fun as => by rw [hcmds, inAddressFamily, haf]) h

theorem runCommands_family (hl : cmds.map (·.setting names (.addressFamily af)) = l.map some)
    (c : FrrConfig) :
    runCommands names (cmds ++ [.exitAddressFamily]) (.addressFamily af) c = some (writeAll l c) := by
  rw [runCommands_settings names hl]
  rfl

theorem activateNeighborAfi_does (addr : String) (haf : afiOf afi = some af) :
    (activateNeighborAfi addr afi).Does names (writeAll (activateLines names addr af)) :=
  does_of_addressFamily haf rfl (runCommands_family rfl)

theorem setNeighborMaxPrefix_does (addr : String) (maxPrefixes : Nat) (haf : afiOf afi = some af) :
    (setNeighborMaxPrefix addr maxPrefixes true afi).Does names
      (writeAll (maxPrefixLines names addr maxPrefixes af)) :=
  does_of_addressFamily haf rfl (runCommands_family rfl)

theorem advertiseNetwork_does (net : String) (haf : afiOf afi = some af) :
    (advertiseNetwork net afi).Does names (writeAll [(.network af (names.network net), [])]) :=
  does_of_addressFamily haf rfl (runCommands_family rfl)

theorem advertiseNetworkWithRouteMap_does (net routeMap : String) (haf : afiOf afi = some af) :
    (advertiseNetworkWithRouteMap net afi routeMap).Does names
      (writeAll [(.network af (names.network net), ["route-map", routeMap])]) :=
  does_of_addressFamily haf rfl (runCommands_family rfl)

theorem withdrawNetwork_does (net : String) (haf : afiOf afi = some af) :
    (withdrawNetwork net afi).Does names (clear (· = .network af (names.network net))) :=
  does_of_addressFamily haf rfl fun _ => rfl

theorem configureRouteMap_runs (name : String) (setCmds : List String) (as : Nat) (c : FrrConfig) :
    runCommands names ((configureRouteMap name setCmds).commands as) .config c =
      some (writeAll (routeMapLines name setCmds) (clear (·.object = .routeMap name) c)) := by
  have hset : (setCmds.map fun cmd => VtyCommand.set (.routeMap cmd) []).map
      (·.setting names (.routeMap name)) =
      (setCmds.map fun cmd => (FrrLine.routeMap name (some cmd), ([] : List String))).map some := by
    simp
  exact runCommands_settings names hset [.exit]
    (writeAll [(.routeMap name none, ["permit", "10"])] (clear (·.object = .routeMap name) c))

theorem configureRouteMap_does (name : String) (setCmds : List String) :
    (configureRouteMap name setCmds).Does names
      fun c => writeAll (routeMapLines name setCmds) (clear (·.object = .routeMap name) c) :=
  fun as c _ _ => configureRouteMap_runs name setCmds as c

theorem configureRouteMap_ok_iff {name : String} {setCmds : List String} :
    (configureRouteMap name setCmds).Ok as ↔ VtySafe name ∧ ∀ cmd ∈ setCmds, VtySafe cmd := by
  rw [FrrRequest.Ok, firstError_eq_none]
  refine forall_mem_cons.trans (and_congr sanitizeVtyParam_ok_iff ?_)
  constructor
  · intro h cmd hcmd
    obtain ⟨i, hi, rfl⟩ := getElem_of_mem hcmd
    exact sanitizeVtyParam_ok_iff.mp (h _ (mem_mapIdx.mpr ⟨i, hi, rfl⟩))
  · intro h e he
    obtain ⟨i, hi, rfl⟩ := mem_mapIdx.mp he
    exact sanitizeVtyParam_ok_iff.mpr (h _ (getElem_mem hi))

theorem removeRouteMap_does (name : String) :
    (removeRouteMap name).Does names (clear (·.object = .routeMap name)) :=
  fun _ _ _ _ => rfl

theorem addBfdPeer_does (addr : String) (minRx minTx detectMult : Nat) (iface : String) :
    (addBfdPeer addr minRx minTx detectMult iface).Does names
      (writeAll (sessionLines names addr iface minRx minTx detectMult)) := by
  intro as c _ _
  refine runCommands_settings names
    (l := (sessionLines names addr iface minRx minTx detectMult).tail) ?_ [.exit, .exit] _
  simp [sessionLines]

theorem removeBfdPeer_does (addr iface : String) :
    (removeBfdPeer addr iface).Does names (clear (·.session? = some (names.addr addr, iface))) :=
  fun _ _ _ _ => rfl

theorem runCommands_passive (v6 passive : Bool) (iface : String) (c : FrrConfig) :
    runCommands names
        (if passive then [.routerOspf v6, .set (.passiveInterface iface) []] else []) .config c =
      some (writeAll (onlyIf (passive = true) (.ospf v6 iface .passive, [])) c) := by
  cases passive <;> rfl

theorem runCommands_notPassive (v6 passive : Bool) (iface : String) (c : FrrConfig) :
    runCommands names
        (if passive then [.routerOspf v6, .unset (.passiveInterface iface) []] else []) .config c =
      some (clear (fun l => passive = true ∧ l = .ospf v6 iface .passive) c) := by
  cases passive with
  | false | true => exact congrArg some (funext fun l => by simp [clear])

theorem ospfRequest_does_set (call : String) (v6 passive : Bool) (iface area : String)
    {settings : List VtyCommand}
    (hl : settings.map (·.setting names (.interface iface)) = l.map some) :
    (ospfRequest call v6 iface area passive settings (.set (.passiveInterface iface) [])).Does
      names (writeAll (l ++ onlyIf (passive = true) (.ospf v6 iface .passive, []))) := by
  intro as c _ _
  rw [writeAll_append, ← runCommands_passive]
  exact runCommands_settings names hl _ c

theorem ospfLines_eq (v6 : Bool) (iface area : String) (passive : Bool) (cost hello dead : Nat) :
    ospfLines v6 iface area passive cost hello dead = List.flatten
      [[(.ospf v6 iface .area, [area])], onlyIf (0 < cost) (.ospf v6 iface .cost, [toString cost]),
        onlyIf (0 < hello) (.ospf v6 iface .helloInterval, [toString hello]),
        onlyIf (0 < dead) (.ospf v6 iface .deadInterval, [toString dead])] ++
      onlyIf (passive = true) (.ospf v6 iface .passive, []) := by
  simp [ospfLines]

theorem enableOspfInterface_does (iface area : String) (passive : Bool) (cost hello dead : Nat) :
    (enableOspfInterface iface area passive cost hello dead).Does names
      (writeAll (ospfLines false iface area passive cost hello dead)) := by
  rw [ospfLines_eq]
  exact ospfRequest_does_set _ _ _ _ _ (by simp)

theorem enableOspfv3Interface_does (iface area : String) (passive : Bool) (cost : Nat) :
    (enableOspfv3Interface iface area passive cost).Does names
      (writeAll (ospfLines true iface area passive cost 0 0)) := by
  rw [ospfLines_eq]
  exact ospfRequest_does_set _ _ _ _ _ (by simp [onlyIf_of_not])

theorem ospfRequest_does_unset (call : String) (v6 passive : Bool) (iface area : String) :
    (ospfRequest call v6 iface area passive [.unset (.ospf v6 .area) [area]]
      (.unset (.passiveInterface iface) [])).Does names (clear fun l =>
        l = .ospf v6 iface .area ∨ passive = true ∧ l = .ospf v6 iface .passive) := by
  intro as c _ _
  refine (runCommands_notPassive v6 passive iface (clear (· = .ospf v6 iface .area) c)).trans ?_
  congr 1
  funext l
  by_cases h : l = .ospf v6 iface .area <;> simp [clear, h]

theorem bgpGlobalCommands_run (names : FrrNames) {localAs : Nat} (hc : AcceptsAs localAs c)
    (routerId : String) :
    runCommands names (bgpGlobalCommands localAs routerId) .config c =
      some (writeAll (globalLines localAs routerId) c) := by
  rw [bgpGlobalCommands, runCommands_routerBgp, if_pos hc]
  exact runCommands_of_settings rfl _

end Effects

section Sends

variable {names : FrrNames}

def FrrClient.after (f : FrrClient) (c : FrrConfig) (sent : List (List VtyCommand)) : FrrClient :=
  { f with running := c, sent := sent }

def FrrRequest.Succeeds (q : FrrRequest) (f : FrrClient) : Prop :=
  q.Ok f.localAs ∧ ∀ n, f.fails n (q.commands f.localAs) = false

variable {f : FrrClient} {c : FrrConfig} {routerId : String} {newAs : Nat}

theorem FrrClient.runConfig_outcome (names : FrrNames) (context : String)
    (commands : List VtyCommand) (f : FrrClient) :
    Outcome (runConfig names context commands) f
      (fun f' => ∃ c s, runCommands names commands .config f.running = some c ∧ f' = f.after c s)
      fun f' => (f.fails f.sent.length commands = true ∨
        runCommands names commands .config f.running = none) ∧ ∃ s, f' = f.after f.running s := by
  unfold Outcome runConfig
  cases hfail : f.fails f.sent.length commands with
  | true => exact ⟨.inl rfl, _, rfl⟩
  | false =>
    rw [if_neg Bool.false_ne_true]
    cases hrun : runCommands names commands .config f.running with
    | some c => exact ⟨c, _, rfl, rfl⟩
    | none => exact ⟨.inr rfl, _, rfl⟩

theorem FrrClient.runConfig_known {context : String} {commands : List VtyCommand}
    (hrun : runCommands names commands .config f.running = some c) :
    Outcome (runConfig names context commands) f (fun f' => ∃ s, f' = f.after c s)
      fun f' => (¬ ∀ n, f.fails n commands = false) ∧ ∃ s, f' = f.after f.running s := by
  refine (runConfig_outcome names _ _ f).imp ?_ ?_
  · rintro _ ⟨c', s, hc, rfl⟩
    exact ⟨s, by rw [Option.some.inj (hc.symm.trans hrun)]⟩
  · rintro _ ⟨hfail | hnone, hkept⟩
    · exact ⟨fun h => Bool.noConfusion ((h _).symm.trans hfail), hkept⟩
    · exact absurd (hrun.symm.trans hnone) (some_ne_none c)

def LiveInstance (as : Nat) (c : FrrConfig) : Prop :=
  (as = 0 → c .routerBgp = none) ∧ (as ≠ 0 → c .routerBgp = some [toString as])

theorem LiveInstance.ready {as : Nat} (h : LiveInstance as c) (has : as ≠ 0) :
    Ready as c := ⟨has, h.2 has⟩

def keptInstance (oldAs newAs : Nat) (c : FrrConfig) : FrrConfig :=
  if oldAs = 0 ∨ oldAs = newAs then c else clear (·.object.inBgp) c

theorem LiveInstance.accepts {oldAs : Nat} (h : LiveInstance oldAs c) (hnew : newAs ≠ 0) :
    AcceptsAs newAs (keptInstance oldAs newAs c) := by
  refine ⟨hnew, ?_⟩
  unfold keptInstance
  by_cases hold : oldAs = 0
  · rw [if_pos (.inl hold), h.1 hold, getD_none]
  · by_cases heq : oldAs = newAs
    · rw [if_pos (.inr heq), h.2 hold, heq, getD_some]
    · rw [if_neg (not_or.mpr ⟨hold, heq⟩)]
      rfl

theorem FrrClient.checked_outcome {checks : List (String × Except FrrCause Unit)} {x : FrrCall}
    {Q E : FrrClient → Prop} (hok : firstError checks = none → Outcome x f Q E)
    (herr : firstError checks ≠ none → E f) : Outcome (checked checks x) f Q E := by
  unfold Outcome checked
  cases hcheck : firstError checks with
  | none => exact hok hcheck
  | some e => exact herr (by simp [hcheck])

theorem FrrClient.send_outcome {q : FrrRequest} {g : FrrConfig → FrrConfig} (hq : q.Does names g)
    (hf : Ready f.localAs f.running) :
    Outcome (send names q) f (fun f' => q.Ok f.localAs ∧ ∃ s, f' = f.after (g f.running) s)
      fun f' => ¬ q.Succeeds f ∧ ∃ s, f' = f.after f.running s := by
  unfold Outcome send
  refine checked_outcome (fun hcheck => ?_) fun hno => ⟨fun h => hno h.1, f.sent, rfl⟩
  refine (runConfig_known (hq f.localAs f.running hf hcheck)).imp (fun _ h => ⟨hcheck, h⟩) ?_
  exact fun _ hfail => ⟨fun h => hfail.1 h.2, hfail.2⟩

theorem firstError_routerId {context : String} :
    firstError [(context, sanitizeVtyParam routerId)] = none ↔ VtySafe routerId := by
  rw [firstError_eq_none]
  simp [sanitizeVtyParam_ok_iff]

theorem FrrClient.configureBgpGlobal_outcome {localAs : Nat} (hf : AcceptsAs localAs f.running) :
    Outcome (configureBgpGlobal names localAs routerId) f
      (fun f' => VtySafe routerId ∧ ∃ s,
        f' = { f.after (writeAll (globalLines localAs routerId) f.running) s with
          localAs := localAs })
      fun f' => ¬ (VtySafe routerId ∧ ∀ n, f.fails n (bgpGlobalCommands localAs routerId) = false) ∧
        ∃ s, f' = f.after f.running s := by
  have hrun := bgpGlobalCommands_run names hf routerId
  refine Outcome.bind (checked_outcome (fun hsafe => ?_) fun hunsafe => ?_)
  · have hsafe := firstError_routerId.mp hsafe
    refine (runConfig_known hrun).imp ?_ fun _ hfail => ⟨fun h => hfail.1 h.2, hfail.2⟩
    rintro _ ⟨s, rfl⟩
    exact outcome_modify ⟨hsafe, s, rfl⟩
  · exact ⟨fun h => hunsafe (firstError_routerId.mpr h.1), f.sent, rfl⟩

/-- The three ways to the new instance. Between the removal of an old one and the creation
there is a state with none, in which a failure leaves FRR. -/
theorem FrrClient.reconfigureBgpGlobal_outcome (names : FrrNames) (routerId : String)
    (hnew : newAs ≠ 0) (hf : LiveInstance f.localAs f.running) :
    Outcome (reconfigureBgpGlobal names f.localAs newAs routerId) f
      (fun f' => VtySafe routerId ∧ ∃ s, f' = { f.after (writeAll (globalLines newAs routerId)
        (keptInstance f.localAs newAs f.running)) s with localAs := newAs })
      fun f' => ∃ s, f' = f.after f.running s ∧
          ¬ (VtySafe routerId ∧ ∀ n commands, f.fails n commands = false) ∨
        f.localAs ≠ 0 ∧ f.localAs ≠ newAs ∧
          f' = f.after (keptInstance f.localAs newAs f.running) s ∧
          ¬ ∀ n, f.fails n (bgpGlobalCommands newAs routerId) = false := by
  have haccepts := hf.accepts hnew
  refine checked_outcome (fun hsafe => ?_) fun hunsafe =>
    ⟨f.sent, .inl ⟨rfl, fun h => hunsafe (firstError_routerId.mpr h.1)⟩⟩
  have hsafe := firstError_routerId.mp hsafe
  refine outcome_if (fun heq => ?_) fun hne => ?_
  · have hkept : keptInstance f.localAs newAs f.running = f.running := if_pos (.inr heq)
    rw [hkept] at haccepts ⊢
    have hrun := bgpGlobalCommands_run names haccepts routerId
    refine (runConfig_known hrun).imp ?_ ?_
    · rintro _ ⟨s, rfl⟩
      refine ⟨hsafe, s, ?_⟩
      rw [← heq]
      rfl
    · rintro _ ⟨hfail, s, rfl⟩
      exact ⟨s, .inl ⟨rfl, fun h => hfail fun n => h.2 n _⟩⟩
  · refine Outcome.bind (outcome_if (fun hold => ?_) fun hold => ?_)
    · -- there is no old instance
      have hkept : keptInstance f.localAs newAs f.running = f.running := if_pos (.inl hold)
      rw [hkept] at haccepts ⊢
      refine outcome_pure ((configureBgpGlobal_outcome haccepts).imp (fun _ h => h) ?_)
      rintro _ ⟨hfail, s, rfl⟩
      exact ⟨s, .inl ⟨rfl, fun h => hfail ⟨h.1, fun n => h.2 n _⟩⟩⟩
    · have hkept : keptInstance f.localAs newAs f.running = clear (·.object.inBgp) f.running :=
        if_neg (not_or.mpr ⟨hold, hne⟩)
      have hrun : runCommands names [.noRouterBgp f.localAs] .config f.running =
          some (clear (·.object.inBgp) f.running) := by
        rw [runCommands, VtyCommand.exec, if_pos ⟨rfl, hf.2 hold⟩]
        rfl
      refine (runConfig_known hrun).imp ?_ ?_
      · rintro _ ⟨s, rfl⟩
        rw [← hkept]
        refine (configureBgpGlobal_outcome haccepts).imp (fun _ h => h) ?_
        rintro _ ⟨hfail, s', rfl⟩
        exact ⟨s', .inr ⟨hold, hne, rfl, fun h => hfail ⟨hsafe, h⟩⟩⟩
      · rintro _ ⟨hfail, s, rfl⟩
        exact ⟨s, .inl ⟨rfl, fun h => hfail fun n => h.2 n _⟩⟩

end Sends

section Valid

variable {q : FrrRequest} {addr context context' : String} {as : Nat}

theorem addNeighbor_ok {remoteAs keepalive holdTime : Nat} {cfg : NeighborConfig} (has : as ≠ 0)
    (haddr : IsAddress addr) (hdesc : VtySafe cfg.description) (hpass : VtySafe cfg.password)
    (hsrc : cfg.sourceAddress ≠ "" → IsAddress cfg.sourceAddress) :
    (addNeighbor addr remoteAs keepalive holdTime cfg).Ok as := by
  have h₂ := sanitizeVtyParam_ok_iff.mpr hdesc
  have h₃ := sanitizeVtyParam_ok_iff.mpr hpass
  refine firstError_eq_none.mpr ?_
  simp only [addNeighbor, forall_mem_cons, ifGiven_ok_iff, validateIpAddress_ok_iff]
  simpa [h₂, h₃, has] using ⟨haddr, hsrc⟩

theorem checksAddress_ok (hq : q.checks as = [(context, validateIpAddress addr)])
    (haddr : IsAddress addr) : q.Ok as := by
  refine firstError_eq_none.mpr ?_
  rw [hq]
  simpa using validateIpAddress_ok_iff.mpr haddr

theorem bfdPeer_ok {iface : String}
    (hq : q.checks as = [(context, validateIpAddress addr),
      (context', ifGiven iface (sanitizeVtyParam iface))])
    (haddr : IsAddress addr) (hiface : VtySafe iface) : q.Ok as := by
  refine firstError_eq_none.mpr ?_
  rw [hq]
  simpa [ifGiven_ok_iff, validateIpAddress_ok_iff, sanitizeVtyParam_ok_iff]
    using ⟨haddr, fun _ => hiface⟩

theorem neighborAfi_ok {afi : String} {af : Afi}
    (hq : q.checks as = [(context, validateIpAddress addr), (context', resolveAfiCli afi)])
    (haddr : IsAddress addr) (haf : afiOf afi = some af) : q.Ok as := by
  refine firstError_eq_none.mpr ?_
  rw [hq]
  simpa [resolveAfiCli_ok_iff, validateIpAddress_ok_iff, haf] using haddr

theorem sanitized_ok (texts : List (String × String))
    (hq : q.checks as = texts.map fun t => (t.1, sanitizeVtyParam t.2))
    (hsafe : ∀ t ∈ texts, VtySafe t.2) : q.Ok as := by
  refine firstError_eq_none.mpr ?_
  rw [hq, List.forall_mem_map]
  exact fun t ht => sanitizeVtyParam_ok_iff.mpr (hsafe t ht)

end Valid

end NovaNet
