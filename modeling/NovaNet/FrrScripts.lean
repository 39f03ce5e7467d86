import NovaNet.FrrEffects

/-! The text that a call gives to vtysh. Every parameter of a command is checked before the
text is built, and a checked parameter has no line break, so that the lines of the text are
those of the commands. -/

namespace NovaNet

open ErrorState FrrClient List

def NoBreak (s : String) : Prop := '\n' ∉ s.toList

instance (s : String) : Decidable (NoBreak s) := inferInstanceAs (Decidable ('\n' ∉ s.toList))

def splitLines (s : String) : List String := (s.toList.splitOn '\n').map String.ofList

section Texts

theorem toList_joinWith (sep : String) (ws : List String) :
    (joinWith sep ws).toList = sep.toList.intercalate (ws.map String.toList) := by
  induction ws with
  | nil => rfl
  | cons w ws ih =>
    cases ws with
    | nil => simp [joinWith]
    | cons w' ws =>
      rw [joinWith, String.toList_append, String.toList_append, ih]
      simp [intercalate_cons_cons]

theorem NoBreak.joinWith {sep : String} {ws : List String} (hsep : NoBreak sep)
    (hws : ∀ w ∈ ws, NoBreak w) : NoBreak (NovaNet.joinWith sep ws) := by
  intro hmem
  rw [toList_joinWith] at hmem
  rcases Net.mem_intercalate hmem with hmem | ⟨p, hp, hmem⟩
  · exact hsep hmem
  · obtain ⟨w, hw, rfl⟩ := List.mem_map.mp hp
    exact hws w hw hmem

theorem splitLines_joinWith {ls : List String} (hne : ls ≠ []) (hls : ∀ l ∈ ls, NoBreak l) :
    splitLines (joinWith "\n" ls) = ls := by
  have hno : ∀ p ∈ ls.map String.toList, '\n' ∉ p := List.forall_mem_map.mpr hls
  have hsplit := splitOn_intercalate '\n' hno (by simpa using hne)
  rw [splitLines, toList_joinWith]
  change List.map _ (List.splitOn '\n' (['\n'].intercalate _)) = ls
  rw [hsplit, List.map_map]
  exact map_id'' (fun l => String.ofList_toList) ls

theorem joinWith_concat_empty (sep : String) {ls : List String} (hne : ls ≠ []) :
    joinWith sep (ls ++ [""]) = joinWith sep ls ++ sep := by
  induction ls with
  | nil => exact absurd rfl hne
  | cons l ls ih =>
    cases ls with
    | nil => simp [joinWith]
    | cons l' ls =>
      have hrest := ih (cons_ne_nil l' ls)
      rw [cons_append] at hrest
      simp only [cons_append, joinWith, hrest, String.append_assoc]

theorem VtySafe.noBreak {s : String} (h : VtySafe s) : NoBreak s :=
  fun hmem => absurd (h '\n' hmem) (by decide)

theorem IsAddress.noBreak {s : String} (h : IsAddress s) : NoBreak s := by
  intro hmem
  have hnone : Net.parseAddr s.toList = none :=
    Net.parseAddr_of_mem (by decide) (by decide) (by decide) hmem
  simp [IsAddress, Net.parseIp, hnone] at h

theorem noBreak_repr (n : Nat) : NoBreak n.repr := by
  change '\n' ∉ (String.ofList (Nat.toDigits 10 n)).toList
  rw [String.toList_ofList]
  exact Net.not_mem_toDigits (fun _ => Nat.digitChar_ne '\n' (by decide)) (by decide) n

end Texts

section Commands

def VtyAttr.params : VtyAttr → List String
  | .bgp _ | .bfd _ | .ospf _ _ => []
  | .neighbor addr _ | .neighborAf addr _ => [addr]
  | .network net => [net]
  | .routeMap setCmd => [setCmd]
  | .passiveInterface iface => [iface]

def VtyCommand.params : VtyCommand → List String
  | .set attr words | .unset attr words => attr.params ++ words
  | .noNeighbor addr => [addr]
  | .peer addr iface | .noPeer addr iface => [addr, iface]
  | .interface name | .routeMap name | .noRouteMap name => [name]
  | .routerBgp _ | .noRouterBgp _ | .addressFamily _ | .exitAddressFamily | .bfd
  | .routerOspf _ | .exit => []

attribute [simp] VtyAttr.params VtyCommand.params noBreak_repr

theorem VtyAttr.noBreak_head {attr : VtyAttr} (h : ∀ w ∈ attr.params, NoBreak w) :
    ∀ w ∈ attr.head, NoBreak w := by
  cases attr with
  | bgp attr => cases attr <;> decide
  | neighbor addr attr | neighborAf addr attr =>
    have hname : NoBreak attr.name := by cases attr <;> decide
    exact forall_mem_cons.mpr ⟨by decide, by simp_all⟩
  | network net | passiveInterface iface => exact forall_mem_cons.mpr ⟨by decide, h⟩
  | routeMap setCmd => exact h
  | bfd timer => cases timer <;> decide
  | ospf v6 attr => cases v6 <;> cases attr <;> decide

theorem noBreak_peerWords {addr iface : String} (h : ∀ w ∈ [addr, iface], NoBreak w) :
    ∀ w ∈ peerWords addr iface, NoBreak w := by
  obtain ⟨haddr, hiface⟩ : NoBreak addr ∧ NoBreak iface := by simpa using h
  refine forall_mem_cons.mpr ⟨by decide, forall_mem_cons.mpr ⟨haddr, ?_⟩⟩
  split
  · simp
  · exact forall_mem_cons.mpr ⟨by decide, by simpa using hiface⟩

theorem VtyCommand.noBreak_text {cmd : VtyCommand} (h : ∀ w ∈ cmd.params, NoBreak w) :
    NoBreak cmd.text := by
  refine NoBreak.joinWith (by decide) ?_
  have hno : NoBreak "no" := by decide
  cases cmd with
  | set attr words =>
    obtain ⟨hattr, hwords⟩ := forall_mem_append.mp h
    exact forall_mem_append.mpr ⟨VtyAttr.noBreak_head hattr, hwords⟩
  | unset attr words =>
    obtain ⟨hattr, hwords⟩ := forall_mem_append.mp h
    exact forall_mem_append.mpr ⟨forall_mem_cons.mpr ⟨hno, VtyAttr.noBreak_head hattr⟩, hwords⟩
  | routerBgp as =>
    have hfixed : ∀ w ∈ ["router", "bgp"], NoBreak w := by decide
    exact forall_mem_append.mpr ⟨hfixed, forall_mem_singleton.mpr (noBreak_repr as)⟩
  | noRouterBgp as =>
    have hfixed : ∀ w ∈ ["no", "router", "bgp"], NoBreak w := by decide
    exact forall_mem_append.mpr ⟨hfixed, forall_mem_singleton.mpr (noBreak_repr as)⟩
  | addressFamily af => cases af <;> decide
  | exitAddressFamily => decide
  | noNeighbor addr | noRouteMap name =>
    exact forall_mem_cons.mpr ⟨hno, forall_mem_cons.mpr ⟨by decide, h⟩⟩
  | bfd => decide
  | peer addr iface => exact noBreak_peerWords h
  | noPeer addr iface => exact forall_mem_cons.mpr ⟨hno, noBreak_peerWords h⟩
  | interface name => exact forall_mem_cons.mpr ⟨by decide, h⟩
  | routerOspf v6 => cases v6 <;> decide
  | routeMap name =>
    have hfixed : ∀ w ∈ ["route-map", "permit", "10"], NoBreak w := by decide
    simp_all [VtyCommand.words]
  | exit => decide

def Unbroken (commands : List VtyCommand) : Prop :=
  ∀ cmd ∈ commands, ∀ w ∈ cmd.params, NoBreak w

attribute [simp] Unbroken

theorem splitLines_vtyshInput {commands : List VtyCommand} (h : Unbroken commands) :
    splitLines (vtyshInput commands) =
      "configure terminal" :: (commands.map VtyCommand.text ++ ["end", ""]) := by
  have hlines : ∀ l ∈ scriptLines commands ++ [""], NoBreak l := by
    refine forall_mem_append.mpr ⟨forall_mem_cons.mpr ⟨by decide, ?_⟩, by decide⟩
    refine forall_mem_append.mpr ⟨List.forall_mem_map.mpr fun cmd hcmd => ?_, by decide⟩
    exact VtyCommand.noBreak_text (h cmd hcmd)
  have hinput : vtyshInput commands = joinWith "\n" (scriptLines commands ++ [""]) :=
    (joinWith_concat_empty "\n" (cons_ne_nil _ _)).symm
  rw [hinput, splitLines_joinWith (by simp) hlines]
  simp [scriptLines]

end Commands

section Requests

def FrrRequest.Sanitized (q : FrrRequest) : Prop :=
  ∀ as, q.Ok as → Unbroken (q.commands as)

theorem ifGiven_noBreak {s : String} {r : Except FrrCause Unit} (h : ifGiven s r = .ok ())
    (hr : r = .ok () → NoBreak s) : NoBreak s := by
  by_cases hs : s = ""
  · rw [hs]
    decide
  · exact hr (ifGiven_ok_iff.mp h hs)

theorem validateIpAddress_noBreak {addr : String} (h : validateIpAddress addr = .ok ()) :
    NoBreak addr := (validateIpAddress_ok_iff.mp h).noBreak

theorem sanitizeVtyParam_noBreak {s : String} (h : sanitizeVtyParam s = .ok ()) : NoBreak s :=
  (sanitizeVtyParam_ok_iff.mp h).noBreak

theorem FrrRequest.Ok.addr {q : FrrRequest} {as : Nat} (h : q.Ok as) {context addr : String}
    (hc : (context, validateIpAddress addr) ∈ q.checks as) : NoBreak addr :=
  validateIpAddress_noBreak (firstError_eq_none.mp h _ hc)

theorem FrrRequest.Ok.param {q : FrrRequest} {as : Nat} (h : q.Ok as) {context s : String}
    (hc : (context, sanitizeVtyParam s) ∈ q.checks as) : NoBreak s :=
  sanitizeVtyParam_noBreak (firstError_eq_none.mp h _ hc)

theorem addNeighbor_sanitized (addr : String) (remoteAs keepalive holdTime : Nat)
    (cfg : NeighborConfig) : (addNeighbor addr remoteAs keepalive holdTime cfg).Sanitized := by
  intro as hok
  simp only [FrrRequest.Ok, firstError_eq_none, addNeighbor, forall_mem_cons] at hok
  obtain ⟨haddr, hdesc, hpass, hsrc, -⟩ := hok
  have haddr := validateIpAddress_noBreak haddr
  have hdesc := ifGiven_noBreak hdesc sanitizeVtyParam_noBreak
  have hpass := ifGiven_noBreak hpass sanitizeVtyParam_noBreak
  have hsrc := ifGiven_noBreak hsrc validateIpAddress_noBreak
  simp only [Unbroken, addNeighbor, flatten_cons, flatten_nil, forall_mem_append,
    forall_mem_cons, forall_mem_onlyIf]
  simp [haddr, hdesc, hpass, hsrc]

theorem removeNeighbor_sanitized (addr : String) : (removeNeighbor addr).Sanitized := by
  intro as hok
  have haddr := hok.addr mem_cons_self
  simp [removeNeighbor, haddr]

theorem unbroken_inAddressFamily (afi : String) {commands : List VtyCommand}
    (h : Unbroken commands) (as : Nat) : Unbroken (inAddressFamily afi commands as) := by
  unfold inAddressFamily
  split
  · have hexit : Unbroken [.exitAddressFamily] := by simp
    refine forall_mem_cons.mpr ⟨by simp, ?_⟩
    refine forall_mem_cons.mpr ⟨by simp, ?_⟩
    exact forall_mem_append.mpr ⟨h, hexit⟩
  · simp

theorem activateNeighborAfi_sanitized (addr afi : String) :
    (activateNeighborAfi addr afi).Sanitized := by
  intro as hok
  have haddr := hok.addr mem_cons_self
  have hinbound : NoBreak "inbound" := by decide
  apply unbroken_inAddressFamily
  simp [haddr, hinbound]

theorem setNeighborMaxPrefix_sanitized (addr : String) (maxPrefixes : Nat) (warningOnly : Bool)
    (afi : String) : (setNeighborMaxPrefix addr maxPrefixes warningOnly afi).Sanitized := by
  intro as hok
  have haddr := hok.addr mem_cons_self
  have hwarning : NoBreak "warning-only" := by decide
  apply unbroken_inAddressFamily
  simp [mem_onlyIf, haddr, hwarning]

theorem setNeighborBfd_sanitized (addr : String) (enabled : Bool) :
    (setNeighborBfd addr enabled).Sanitized := by
  intro as hok
  have haddr := hok.addr mem_cons_self
  cases enabled <;> simp [setNeighborBfd, haddr]

theorem advertiseNetwork_sanitized (net afi : String) : (advertiseNetwork net afi).Sanitized := by
  intro as hok
  have hnet := hok.param mem_cons_self
  apply unbroken_inAddressFamily
  simp [hnet]

theorem advertiseNetworkWithRouteMap_sanitized (net afi routeMap : String) :
    (advertiseNetworkWithRouteMap net afi routeMap).Sanitized := by
  intro as hok
  have hnet := hok.param mem_cons_self
  have hmap := hok.param (mem_cons_of_mem _ mem_cons_self)
  have hword : NoBreak "route-map" := by decide
  apply unbroken_inAddressFamily
  simp [hnet, hmap, hword]

theorem withdrawNetwork_sanitized (net afi : String) : (withdrawNetwork net afi).Sanitized := by
  intro as hok
  have hnet := hok.param mem_cons_self
  apply unbroken_inAddressFamily
  simp [hnet]

theorem configureRouteMap_sanitized (name : String) (setCmds : List String) :
    (configureRouteMap name setCmds).Sanitized := by
  intro as hok
  obtain ⟨hname, hcmds⟩ := configureRouteMap_ok_iff.mp hok
  simp +contextual [configureRouteMap, or_imp, hname.noBreak, (hcmds _ _).noBreak]

theorem removeRouteMap_sanitized (name : String) : (removeRouteMap name).Sanitized := by
  intro as hok
  have hname := hok.param mem_cons_self
  simp [removeRouteMap, hname]

theorem addBfdPeer_sanitized (peerAddr : String) (minRx minTx detectMult : Nat)
    (iface : String) : (addBfdPeer peerAddr minRx minTx detectMult iface).Sanitized := by
  intro as hok
  have haddr := hok.addr mem_cons_self
  have hiface := ifGiven_noBreak (firstError_eq_none.mp hok _ (mem_cons_of_mem _ mem_cons_self))
    sanitizeVtyParam_noBreak
  simp [addBfdPeer, or_imp, forall_and, mem_onlyIf, haddr, hiface]

theorem removeBfdPeer_sanitized (peerAddr iface : String) :
    (removeBfdPeer peerAddr iface).Sanitized := by
  intro as hok
  have haddr := hok.addr mem_cons_self
  have hiface := ifGiven_noBreak (firstError_eq_none.mp hok _ (mem_cons_of_mem _ mem_cons_self))
    sanitizeVtyParam_noBreak
  simp [removeBfdPeer, haddr, hiface]

theorem ospfRequest_sanitized (call : String) (v6 : Bool) (ifaceName areaId : String)
    (passive : Bool) {onInterface : List VtyCommand} {onRouter : VtyCommand}
    (hinterface : NoBreak areaId → Unbroken onInterface)
    (hrouter : onRouter.params = [ifaceName]) :
    (ospfRequest call v6 ifaceName areaId passive onInterface onRouter).Sanitized := by
  intro as hok
  have hiface := hok.param mem_cons_self
  have hset := hinterface (hok.param (mem_cons_of_mem _ mem_cons_self))
  refine forall_mem_cons.mpr ⟨by simpa using hiface, ?_⟩
  refine forall_mem_append.mpr ⟨hset, forall_mem_cons.mpr ⟨?_, ?_⟩⟩
  · simp
  · cases passive with
    | false => simp
    | true =>
      have honRouter : ∀ w ∈ onRouter.params, NoBreak w := by
        rw [hrouter]
        simpa using hiface
      exact forall_mem_cons.mpr ⟨by simp, forall_mem_singleton.mpr honRouter⟩

theorem enableOspfInterface_sanitized (ifaceName areaId : String) (passive : Bool)
    (cost hello dead : Nat) :
    (enableOspfInterface ifaceName areaId passive cost hello dead).Sanitized := by
  refine ospfRequest_sanitized _ _ _ _ _ (fun harea => ?_) rfl
  simp only [Unbroken, flatten_cons, flatten_nil, forall_mem_append, forall_mem_cons, forall_mem_onlyIf]
  simp [harea]

theorem enableOspfv3Interface_sanitized (ifaceName areaId : String) (passive : Bool)
    (cost : Nat) : (enableOspfv3Interface ifaceName areaId passive cost).Sanitized := by
  refine ospfRequest_sanitized _ _ _ _ _ (fun harea => ?_) rfl
  simp only [Unbroken, flatten_cons, flatten_nil, forall_mem_append, forall_mem_cons, forall_mem_onlyIf]
  simp [harea]

theorem disableOspf_sanitized (call : String) (v6 : Bool) (ifaceName areaId : String)
    (passive : Bool) :
    (ospfRequest call v6 ifaceName areaId passive [.unset (.ospf v6 .area) [areaId]]
      (.unset (.passiveInterface ifaceName) [])).Sanitized := by
  refine ospfRequest_sanitized _ _ _ _ _ (fun harea => ?_) rfl
  simpa using harea

theorem unbroken_bgpGlobalCommands {localAs : Nat} {routerId : String}
    (h : sanitizeVtyParam routerId = .ok ()) : Unbroken (bgpGlobalCommands localAs routerId) := by
  have hid := sanitizeVtyParam_noBreak h
  have hfixed : NoBreak "120" ∧ NoBreak "360" := by decide
  simp [bgpGlobalCommands, bgpGracefulRestartCommands, hid, hfixed]

theorem configureBgpGlobalRequest_sanitized (localAs : Nat) (routerId : String) :
    (configureBgpGlobalRequest localAs routerId).Sanitized := by
  intro as hok
  simp only [FrrRequest.Ok, firstError_eq_none, configureBgpGlobalRequest, forall_mem_cons] at hok
  exact unbroken_bgpGlobalCommands hok.1

end Requests

inductive FrrMethod where
  | configureBgpGlobal (localAs : Nat) (routerId : String)
  | reconfigureBgpGlobal (oldAs newAs : Nat) (routerId : String)
  | addNeighbor (addr : String) (remoteAs keepalive holdTime : Nat) (cfg : NeighborConfig)
  | removeNeighbor (addr : String)
  | activateNeighborAfi (addr afi : String)
  | setNeighborMaxPrefix (addr : String) (maxPrefixes : Nat) (warningOnly : Bool) (afi : String)
  | setNeighborBfd (addr : String) (enabled : Bool)
  | advertiseNetwork (net afi : String)
  | advertiseNetworkWithRouteMap (net afi routeMap : String)
  | withdrawNetwork (net afi : String)
  | configureRouteMap (name : String) (setCmds : List String)
  | removeRouteMap (name : String)
  | addBfdPeer (peerAddr : String) (minRx minTx detectMult : Nat) (iface : String)
  | removeBfdPeer (peerAddr iface : String)
  | enableOspfInterface (ifaceName areaId : String) (passive : Bool) (cost hello dead : Nat)
  | enableOspfv3Interface (ifaceName areaId : String) (passive : Bool) (cost : Nat)
  | disableOspfInterface (ifaceName areaId : String) (passive : Bool)
  | disableOspfv3Interface (ifaceName areaId : String) (passive : Bool)

namespace FrrMethod

def request : FrrMethod → FrrRequest
  | configureBgpGlobal localAs routerId => configureBgpGlobalRequest localAs routerId
  | reconfigureBgpGlobal _ newAs routerId => configureBgpGlobalRequest newAs routerId
  | addNeighbor addr remoteAs keepalive holdTime cfg =>
    NovaNet.addNeighbor addr remoteAs keepalive holdTime cfg
  | removeNeighbor addr => NovaNet.removeNeighbor addr
  | activateNeighborAfi addr afi => NovaNet.activateNeighborAfi addr afi
  | setNeighborMaxPrefix addr maxPrefixes warningOnly afi =>
    NovaNet.setNeighborMaxPrefix addr maxPrefixes warningOnly afi
  | setNeighborBfd addr enabled => NovaNet.setNeighborBfd addr enabled
  | advertiseNetwork net afi => NovaNet.advertiseNetwork net afi
  | advertiseNetworkWithRouteMap net afi routeMap =>
    NovaNet.advertiseNetworkWithRouteMap net afi routeMap
  | withdrawNetwork net afi => NovaNet.withdrawNetwork net afi
  | configureRouteMap name setCmds => NovaNet.configureRouteMap name setCmds
  | removeRouteMap name => NovaNet.removeRouteMap name
  | addBfdPeer peerAddr minRx minTx detectMult iface =>
    NovaNet.addBfdPeer peerAddr minRx minTx detectMult iface
  | removeBfdPeer peerAddr iface => NovaNet.removeBfdPeer peerAddr iface
  | enableOspfInterface ifaceName areaId passive cost hello dead =>
    NovaNet.enableOspfInterface ifaceName areaId passive cost hello dead
  | enableOspfv3Interface ifaceName areaId passive cost =>
    NovaNet.enableOspfv3Interface ifaceName areaId passive cost
  | disableOspfInterface ifaceName areaId passive =>
    NovaNet.disableOspfInterface ifaceName areaId passive
  | disableOspfv3Interface ifaceName areaId passive =>
    NovaNet.disableOspfv3Interface ifaceName areaId passive

def run (names : FrrNames) : FrrMethod → FrrCall
  | configureBgpGlobal localAs routerId => FrrClient.configureBgpGlobal names localAs routerId
  | reconfigureBgpGlobal oldAs newAs routerId =>
    FrrClient.reconfigureBgpGlobal names oldAs newAs routerId
  | m => send names m.request

def batches (m : FrrMethod) (localAs : Nat) : List (List VtyCommand) :=
  match m with
  | reconfigureBgpGlobal oldAs newAs routerId =>
    onlyIf (oldAs ≠ newAs ∧ oldAs ≠ 0) [.noRouterBgp oldAs] ++ [bgpGlobalCommands newAs routerId]
  | m => [m.request.commands localAs]

theorem request_sanitized (m : FrrMethod) : m.request.Sanitized := by
  cases m with
  | configureBgpGlobal | reconfigureBgpGlobal => exact configureBgpGlobalRequest_sanitized _ _
  | addNeighbor => exact addNeighbor_sanitized _ _ _ _ _
  | removeNeighbor => exact removeNeighbor_sanitized _
  | activateNeighborAfi => exact activateNeighborAfi_sanitized _ _
  | setNeighborMaxPrefix => exact setNeighborMaxPrefix_sanitized _ _ _ _
  | setNeighborBfd => exact setNeighborBfd_sanitized _ _
  | advertiseNetwork => exact advertiseNetwork_sanitized _ _
  | advertiseNetworkWithRouteMap => exact advertiseNetworkWithRouteMap_sanitized _ _ _
  | withdrawNetwork => exact withdrawNetwork_sanitized _ _
  | configureRouteMap => exact configureRouteMap_sanitized _ _
  | removeRouteMap => exact removeRouteMap_sanitized _
  | addBfdPeer => exact addBfdPeer_sanitized _ _ _ _ _
  | removeBfdPeer => exact removeBfdPeer_sanitized _ _
  | enableOspfInterface => exact enableOspfInterface_sanitized _ _ _ _ _ _
  | enableOspfv3Interface => exact enableOspfv3Interface_sanitized _ _ _ _
  | disableOspfInterface | disableOspfv3Interface => exact disableOspf_sanitized _ _ _ _ _

/-- The call went to vtysh: it gave batches from the first one on, and of each of them vtysh
reads one line for a command. -/
def Sends (m : FrrMethod) (f f' : FrrClient) : Prop :=
  ∃ bs, bs ≠ [] ∧ bs <+: m.batches f.localAs ∧ f'.sent = f.sent ++ bs ∧
    ∀ commands ∈ bs, splitLines (vtyshInput commands) =
      "configure terminal" :: (commands.map VtyCommand.text ++ ["end", ""])

end FrrMethod

section Runs

variable {names : FrrNames} {f f' : FrrClient}

theorem runConfig_sent (names : FrrNames) (context : String) (commands : List VtyCommand)
    (f : FrrClient) : Outcome (runConfig names context commands) f (·.sent = f.sent ++ [commands])
      (·.sent = f.sent ++ [commands]) := by
  unfold Outcome runConfig
  cases f.fails f.sent.length commands with
  | true => rfl
  | false =>
    cases runCommands names commands .config f.running with
    | none => rfl
    | some c => rfl

theorem send_sent (q : FrrRequest) (f : FrrClient) : Outcome (send names q) f
    (fun f' => q.Ok f.localAs ∧ f'.sent = f.sent ++ [q.commands f.localAs])
    fun f' => f' = f ∨ q.Ok f.localAs ∧ f'.sent = f.sent ++ [q.commands f.localAs] := by
  have hrun := runConfig_sent names q.context (q.commands f.localAs) f
  unfold Outcome send checked
  cases hchecks : firstError (q.checks f.localAs) with
  | some e => exact .inl rfl
  | none => exact hrun.imp (fun _ h => ⟨hchecks, h⟩) fun _ h => .inr ⟨hchecks, h⟩

theorem sends_of_unbroken {m : FrrMethod} {bs : VtyBatches}
    (hall : ∀ commands ∈ m.batches f.localAs, Unbroken commands) (hne : bs ≠ [])
    (hpre : bs <+: m.batches f.localAs) (hsent : f'.sent = f.sent ++ bs) : m.Sends f f' :=
  ⟨bs, hne, hpre, hsent, fun commands h => splitLines_vtyshInput (hall commands (hpre.subset h))⟩

theorem send_sends {m : FrrMethod} (hm : m.batches f.localAs = [m.request.commands f.localAs]) :
    Outcome (send names m.request) f (m.Sends f) fun f' => f' = f ∨ m.Sends f f' := by
  have hsends {f' : FrrClient} (h : m.request.Ok f.localAs ∧
      f'.sent = f.sent ++ [m.request.commands f.localAs]) : m.Sends f f' :=
    sends_of_unbroken (hm ▸ forall_mem_singleton.mpr (m.request_sanitized _ h.1))
      (cons_ne_nil _ _) (hm ▸ prefix_refl _) h.2
  refine (send_sent m.request f).imp (fun _ h => hsends h) fun _ h => ?_
  exact h.imp id hsends

theorem configureBgpGlobal_sent {localAs : Nat} {routerId : String} (f : FrrClient) :
    Outcome (configureBgpGlobal names localAs routerId) f
      (·.sent = f.sent ++ [bgpGlobalCommands localAs routerId])
      fun f' => f' = f ∨ f'.sent = f.sent ++ [bgpGlobalCommands localAs routerId] :=
  Outcome.bind_modify ((send_sent (configureBgpGlobalRequest localAs routerId) f).imp
    (fun _ h => h.2) fun _ h => h.imp id And.right)

theorem reconfigureBgpGlobal_sends (oldAs newAs : Nat) (routerId : String) (f : FrrClient) :
    Outcome (reconfigureBgpGlobal names oldAs newAs routerId) f
      ((FrrMethod.reconfigureBgpGlobal oldAs newAs routerId).Sends f)
      fun f' => f' = f ∨ (FrrMethod.reconfigureBgpGlobal oldAs newAs routerId).Sends f f' := by
  generalize hm : FrrMethod.reconfigureBgpGlobal oldAs newAs routerId = m
  have hbatches : m.batches f.localAs = onlyIf (oldAs ≠ newAs ∧ oldAs ≠ 0) [.noRouterBgp oldAs] ++
      [bgpGlobalCommands newAs routerId] := by rw [← hm, FrrMethod.batches]
  cases hchecks : sanitizeVtyParam routerId with
  | error e => simp [Outcome, reconfigureBgpGlobal, checked, firstError, hchecks]
  | ok u =>
    have hall : ∀ commands ∈ m.batches f.localAs, Unbroken commands := by
      rw [hbatches]
      exact forall_mem_append.mpr ⟨forall_mem_onlyIf.mpr fun _ => by simp,
        forall_mem_singleton.mpr (unbroken_bgpGlobalCommands hchecks)⟩
    have hone (hkeep : ¬ (oldAs ≠ newAs ∧ oldAs ≠ 0)) (f' : FrrClient)
        (h : f'.sent = f.sent ++ [bgpGlobalCommands newAs routerId]) : m.Sends f f' := by
      rw [onlyIf, if_neg hkeep] at hbatches
      exact sends_of_unbroken hall (cons_ne_nil _ _) (hbatches ▸ prefix_refl _) h
    have hnone : firstError [("frr: reconfigure BGP global: router-id",
        sanitizeVtyParam routerId)] = none := firstError_eq_none.mpr (by simpa using hchecks)
    unfold reconfigureBgpGlobal checked
    rw [hnone]
    refine outcome_if (fun heq => ?_) fun hne => ?_
    · have hbs := hone (by simp [heq])
      exact (runConfig_sent names _ _ f).imp hbs fun f' h => .inr (hbs f' h)
    refine Outcome.bind (outcome_if (fun hzero => ?_) fun hold => ?_)
    · have hbs := hone (by simp [hzero])
      exact outcome_pure ((configureBgpGlobal_sent f).imp hbs fun f' h => h.imp id (hbs f'))
    · rw [onlyIf, if_pos ⟨hne, hold⟩] at hbatches
      have hfirst {f' : FrrClient} (h : f'.sent = f.sent ++ [[.noRouterBgp oldAs]]) :
          m.Sends f f' := sends_of_unbroken hall (cons_ne_nil _ _) (hbatches ▸ ⟨_, rfl⟩) h
      have hboth {f₁ f' : FrrClient} (h₁ : f₁.sent = f.sent ++ [[.noRouterBgp oldAs]])
          (h : f'.sent = f₁.sent ++ [bgpGlobalCommands newAs routerId]) : m.Sends f f' := by
        refine sends_of_unbroken hall (by simp [hbatches]) (prefix_refl _) ?_
        rw [h, h₁, append_assoc, hbatches]
      refine (runConfig_sent names _ _ f).imp (fun f₁ h₁ => ?_) fun _ h => .inr (hfirst h)
      refine (configureBgpGlobal_sent f₁).imp (fun _ => hboth h₁) fun f' h => .inr ?_
      rcases h with rfl | h
      · exact hfirst h₁
      · exact hboth h₁ h

/-- Whatever its parameters are, a call ends with an error before vtysh is run, or vtysh reads
exactly the lines of the call's commands. -/
theorem frrMethod_script (names : FrrNames) (m : FrrMethod) (f : FrrClient) :
    Outcome (m.run names) f (m.Sends f) fun f' => f' = f ∨ m.Sends f f' := by
  cases m with
  | configureBgpGlobal localAs routerId =>
    exact Outcome.bind_modify (send_sends (m := .configureBgpGlobal localAs routerId) rfl)
  | reconfigureBgpGlobal oldAs newAs routerId =>
    exact reconfigureBgpGlobal_sends oldAs newAs routerId f
  | _ => exact send_sends rfl

end Runs

end NovaNet
