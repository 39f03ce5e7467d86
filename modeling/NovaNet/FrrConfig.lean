import NovaNet.KeyedConfig

/-! FRR's running configuration and the vtysh commands that change it. A setting is a line of
the configuration with its words; a block header such as `bfd` or `interface eth0` only says
where the next commands stand. -/

namespace NovaNet

open KeyedConfig

inductive Afi where
  | ipv4Unicast
  | ipv6Unicast
  deriving DecidableEq

inductive BgpAttr where
  | routerId
  | noEbgpRequiresPolicy
  | gracefulRestart
  | restartTime
  | stalepathTime
  deriving DecidableEq

inductive NeighborAttr where
  | remoteAs
  | timers
  | description
  | updateSource
  | ebgpMultihop
  | password
  | bfd
  deriving DecidableEq

inductive NeighborAfAttr where
  | activate
  | softReconfiguration
  | maximumPrefix
  deriving DecidableEq

inductive BfdTimer where
  | receiveInterval
  | transmitInterval
  | detectMultiplier
  deriving DecidableEq

inductive OspfAttr where
  | area
  | cost
  | helloInterval
  | deadInterval
  | passive
  deriving DecidableEq

/-- Where a setting stands in the running configuration. A route-map and a BFD session are
lines of their own (`none`) besides the lines inside; `v6` tells OSPFv3 from OSPF. -/
inductive FrrLine where
  | routerBgp
  | bgp (attr : BgpAttr)
  | neighbor (addr : String) (attr : NeighborAttr)
  | neighborAf (af : Afi) (addr : String) (attr : NeighborAfAttr)
  | network (af : Afi) (net : String)
  | routeMap (name : String) (setCmd : Option String)
  | bfdPeer (addr iface : String) (timer : Option BfdTimer)
  | ospf (v6 : Bool) (iface : String) (attr : OspfAttr)
  deriving DecidableEq

inductive FrrObject where
  | bgp
  | neighbor (addr : String)
  | network (net : String)
  | routeMap (name : String)
  | session (addr : String)
  | interface (name : String)
  deriving DecidableEq

def FrrLine.object : FrrLine → FrrObject
  | .routerBgp => .bgp
  | .bgp _ => .bgp
  | .neighbor addr _ => .neighbor addr
  | .neighborAf _ addr _ => .neighbor addr
  | .network _ net => .network net
  | .routeMap name _ => .routeMap name
  | .bfdPeer addr _ _ => .session addr
  | .ospf _ iface _ => .interface iface

/-- What stands inside `router bgp` goes when the instance goes. -/
def FrrObject.inBgp : FrrObject → Bool
  | .bgp | .neighbor _ | .network _ => true
  | .routeMap _ | .session _ | .interface _ => false

/-- A BFD session is known by its peer and its interface, empty for none. -/
def FrrLine.session? : FrrLine → Option (String × String)
  | .bfdPeer addr iface _ => some (addr, iface)
  | _ => none

abbrev FrrSettings := List (FrrLine × List String)

abbrev FrrConfig := FrrLine → Option (List String)

/-- FRR keeps an address and a network in a normal form of its own, so that two texts can
name one neighbor, session or network. -/
structure FrrNames where
  addr : String → String
  network : String → String

inductive VtyMode where
  | config
  | routerBgp
  | addressFamily (af : Afi)
  | bfd
  | bfdPeer (addr iface : String)
  | interface (name : String)
  | routerOspf (v6 : Bool)
  | routeMap (name : String)
  deriving DecidableEq

/-- A setting as a command names it, before the block it stands in is known. A line of a
route-map is its whole text. -/
inductive VtyAttr where
  | bgp (attr : BgpAttr)
  | neighbor (addr : String) (attr : NeighborAttr)
  | neighborAf (addr : String) (attr : NeighborAfAttr)
  | network (net : String)
  | routeMap (setCmd : String)
  | bfd (timer : BfdTimer)
  | ospf (v6 : Bool) (attr : OspfAttr)
  | passiveInterface (iface : String)

inductive VtyCommand where
  | set (attr : VtyAttr) (words : List String)
  | unset (attr : VtyAttr) (words : List String)
  | routerBgp (as : Nat)
  | noRouterBgp (as : Nat)
  | addressFamily (af : Afi)
  | exitAddressFamily
  | noNeighbor (addr : String)
  | bfd
  | peer (addr iface : String)
  | noPeer (addr iface : String)
  | interface (name : String)
  | routerOspf (v6 : Bool)
  | routeMap (name : String)
  | noRouteMap (name : String)
  | exit

open VtyCommand

section Text

def joinWith (sep : String) : List String → String
  | [] => ""
  | [w] => w
  | w :: w' :: ws => w ++ sep ++ joinWith sep (w' :: ws)

def Afi.name : Afi → String
  | .ipv4Unicast => "ipv4 unicast"
  | .ipv6Unicast => "ipv6 unicast"

def BgpAttr.words : BgpAttr → List String
  | .routerId => ["bgp", "router-id"]
  | .noEbgpRequiresPolicy => ["no", "bgp", "ebgp-requires-policy"]
  | .gracefulRestart => ["bgp", "graceful-restart"]
  | .restartTime => ["bgp", "graceful-restart", "restart-time"]
  | .stalepathTime => ["bgp", "graceful-restart", "stalepath-time"]

def NeighborAttr.name : NeighborAttr → String
  | .remoteAs => "remote-as"
  | .timers => "timers"
  | .description => "description"
  | .updateSource => "update-source"
  | .ebgpMultihop => "ebgp-multihop"
  | .password => "password"
  | .bfd => "bfd"

def NeighborAfAttr.name : NeighborAfAttr → String
  | .activate => "activate"
  | .softReconfiguration => "soft-reconfiguration"
  | .maximumPrefix => "maximum-prefix"

def BfdTimer.name : BfdTimer → String
  | .receiveInterval => "receive-interval"
  | .transmitInterval => "transmit-interval"
  | .detectMultiplier => "detect-multiplier"

def OspfAttr.name : OspfAttr → String
  | .area => "area"
  | .cost => "cost"
  | .helloInterval => "hello-interval"
  | .deadInterval => "dead-interval"
  | .passive => "passive"

def VtyAttr.head : VtyAttr → List String
  | .bgp attr => attr.words
  | .neighbor addr attr => ["neighbor", addr, attr.name]
  | .neighborAf addr attr => ["neighbor", addr, attr.name]
  | .network net => ["network", net]
  | .routeMap setCmd => [setCmd]
  | .bfd timer => [timer.name]
  | .ospf v6 attr => if v6 then ["ipv6", "ospf6", attr.name] else ["ip", "ospf", attr.name]
  | .passiveInterface iface => ["passive-interface", iface]

def peerWords (addr iface : String) : List String :=
  "peer" :: addr :: if iface = "" then [] else ["interface", iface]

def VtyCommand.words : VtyCommand → List String
  | .set attr words => attr.head ++ words
  | .unset attr words => "no" :: attr.head ++ words
  | .routerBgp as => ["router", "bgp", toString as]
  | .noRouterBgp as => ["no", "router", "bgp", toString as]
  | .addressFamily af => ["address-family", af.name]
  | .exitAddressFamily => ["exit-address-family"]
  | .noNeighbor addr => ["no", "neighbor", addr]
  | .bfd => ["bfd"]
  | .peer addr iface => peerWords addr iface
  | .noPeer addr iface => "no" :: peerWords addr iface
  | .interface name => ["interface", name]
  | .routerOspf v6 => ["router", if v6 then "ospf6" else "ospf"]
  | .routeMap name => ["route-map", name, "permit", "10"]
  | .noRouteMap name => ["no", "route-map", name]
  | .exit => ["exit"]

def VtyCommand.text (cmd : VtyCommand) : String := joinWith " " cmd.words

def scriptLines (commands : List VtyCommand) : List String :=
  "configure terminal" :: (commands.map text ++ ["end"])

def vtyshInput (commands : List VtyCommand) : String :=
  joinWith "\n" (scriptLines commands) ++ "\n"

end Text

def VtyMode.parent : VtyMode → VtyMode
  | .config => .config
  | .routerBgp => .config
  | .addressFamily _ => .routerBgp
  | .bfd => .config
  | .bfdPeer _ _ => .bfd
  | .interface _ => .config
  | .routerOspf _ => .config
  | .routeMap _ => .config

section Vtysh

variable (names : FrrNames)

def VtyAttr.line (mode : VtyMode) : VtyAttr → Option FrrLine
  | .bgp attr => if mode = .routerBgp then some (.bgp attr) else none
  | .neighbor addr attr =>
    if mode = .routerBgp then some (.neighbor (names.addr addr) attr) else none
  | .neighborAf addr attr =>
    match mode with
    | .addressFamily af => some (.neighborAf af (names.addr addr) attr)
    | _ => none
  | .network net =>
    match mode with
    | .addressFamily af => some (.network af (names.network net))
    | _ => none
  | .routeMap setCmd =>
    match mode with
    | .routeMap name => some (.routeMap name (some setCmd))
    | _ => none
  | .bfd timer =>
    match mode with
    | .bfdPeer addr iface => some (.bfdPeer addr iface (some timer))
    | _ => none
  | .ospf v6 attr =>
    match mode with
    | .interface name => some (.ospf v6 name attr)
    | _ => none
  | .passiveInterface iface =>
    match mode with
    | .routerOspf v6 => some (.ospf v6 iface .passive)
    | _ => none

/-- FRR refuses a second instance under another number. -/
def AcceptsAs (as : Nat) (c : FrrConfig) : Prop :=
  as ≠ 0 ∧ (c .routerBgp).getD [toString as] = [toString as]

instance (as : Nat) (c : FrrConfig) : Decidable (AcceptsAs as c) :=
  inferInstanceAs (Decidable (_ ∧ _))

def enterBgp (as : Nat) (c : FrrConfig) : FrrConfig := writeAll [(.routerBgp, [toString as])] c

def VtyCommand.exec (mode : VtyMode) (c : FrrConfig) : VtyCommand → Option (VtyMode × FrrConfig)
  | .set attr words => (attr.line names mode).map fun l => (mode, writeAll [(l, words)] c)
  | .unset attr _ => (attr.line names mode).map fun l => (mode, clear (· = l) c)
  | .routerBgp as =>
    if mode = .config ∧ AcceptsAs as c then some (.routerBgp, enterBgp as c) else none
  | .noRouterBgp as =>
    if mode = .config ∧ c .routerBgp = some [toString as] then
      some (.config, clear (·.object.inBgp) c)
    else none
  | .addressFamily af => if mode = .routerBgp then some (.addressFamily af, c) else none
  | .exitAddressFamily =>
    match mode with
    | .addressFamily _ => some (.routerBgp, c)
    | _ => none
  | .noNeighbor addr =>
    if mode = .routerBgp then
      some (.routerBgp, clear (·.object = .neighbor (names.addr addr)) c)
    else none
  | .bfd => if mode = .config then some (.bfd, c) else none
  | .peer addr iface =>
    if mode = .bfd then
      some (.bfdPeer (names.addr addr) iface, writeAll [(.bfdPeer (names.addr addr) iface none, [])] c)
    else none
  | .noPeer addr iface =>
    if mode = .bfd then
      some (.bfd, clear (·.session? = some (names.addr addr, iface)) c)
    else none
  | .interface name => if mode = .config then some (.interface name, c) else none
  | .routerOspf v6 => if mode = .config then some (.routerOspf v6, c) else none
  | .routeMap name =>
    if mode = .config then
      some (.routeMap name, writeAll [(.routeMap name none, ["permit", "10"])] c)
    else none
  | .noRouteMap name =>
    if mode = .config then some (.config, clear (·.object = .routeMap name) c) else none
  | .exit => some (mode.parent, c)

/-- A whole batch from a block on. In the client's batches only `router bgp` can be refused,
and nothing after it means anything then, so that a refused batch changes nothing. -/
def runCommands : List VtyCommand → VtyMode → FrrConfig → Option FrrConfig
  | [], _, c => some c
  | cmd :: cmds, mode, c => (cmd.exec names mode c).bind fun next => runCommands cmds next.1 next.2

theorem runCommands_cons {cmd : VtyCommand} {mode mode' : VtyMode} {c c' : FrrConfig}
    (h : cmd.exec names mode c = some (mode', c')) (cmds : List VtyCommand) :
    runCommands names (cmd :: cmds) mode c = runCommands names cmds mode' c' := by
  rw [runCommands, h, Option.bind_some]

def VtyCommand.setting (mode : VtyMode) : VtyCommand → Option (FrrLine × List String)
  | .set attr words => (attr.line names mode).map (·, words)
  | _ => none

theorem exec_of_setting {cmd : VtyCommand} {mode : VtyMode} {e : FrrLine × List String}
    (h : cmd.setting names mode = some e) (c : FrrConfig) :
    cmd.exec names mode c = some (mode, writeAll [e] c) := by
  cases cmd with
  | set attr words =>
    obtain ⟨l, hl, rfl⟩ := Option.map_eq_some_iff.mp h
    simp [exec, hl]
  | _ => simp [setting] at h

theorem runCommands_settings {cmds : List VtyCommand} {mode : VtyMode} {l : FrrSettings}
    (h : cmds.map (·.setting names mode) = l.map some) (rest : List VtyCommand) (c : FrrConfig) :
    runCommands names (cmds ++ rest) mode c = runCommands names rest mode (writeAll l c) := by
  induction cmds generalizing l c with
  | nil =>
    cases l with
    | nil => rfl
    | cons e l => simp at h
  | cons cmd cmds ih =>
    cases l with
    | nil => simp at h
    | cons e l =>
      rw [List.map_cons, List.map_cons, List.cons.injEq] at h
      rw [List.cons_append, runCommands_cons names (exec_of_setting names h.1 c), ih h.2]
      rfl

theorem runCommands_routerBgp (as : Nat) (cmds : List VtyCommand) (c : FrrConfig) :
    runCommands names (.routerBgp as :: cmds) .config c =
      if AcceptsAs as c then runCommands names cmds .routerBgp (enterBgp as c) else none := by
  by_cases h : AcceptsAs as c
  · rw [if_pos h, runCommands_cons names (by rw [exec, if_pos ⟨rfl, h⟩])]
  · rw [if_neg h, runCommands, exec, if_neg fun hc => h hc.2, Option.bind_none]

end Vtysh

end NovaNet
