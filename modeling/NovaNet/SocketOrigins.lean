import NovaNet.SocketKeys

/-! What an application sees of the translation at socket level: the source of a reply and the
peer of a connection. One origin is kept for each socket, whatever it has sent to. -/

namespace NovaNet

open Function

def SockLbOrigin.address (origin : SockLbOrigin) : SockEndpoint :=
  ⟨swap32 origin.originalIp, origin.originalPort⟩

/-- The two programs do the same. -/
def SockMaps.showOrigin (m : SockMaps) (ctx : SockAddr) : SockAddr :=
  match m.origins.lookup ctx.cookie with
  | none => ctx
  | some origin => ctx.redirect origin.originalIp origin.originalPort

def trySockRecvmsg4 (ctx : SockAddr) (m : SockMaps) : SockAddr := m.showOrigin ctx

def trySockGetpeername4 (ctx : SockAddr) (m : SockMaps) : SockAddr := m.showOrigin ctx

/-- `peer` has the address given to the last connect and the context that the program left, and
`sent` the same for each message that was translated. -/
structure SocketWorld where
  l4 : L4Maps
  maps : SockMaps
  peer : UInt64 → Option (SockEndpoint × SockAddr)
  sent : UInt64 → List (SockEndpoint × SockAddr)

/-- With `services` the control plane changes the maps. -/
inductive SocketOp where
  | connect (cpu : Nat) (ctx : SockAddr)
  | sendmsg (cpu : Nat) (ctx : SockAddr)
  | services (l4 : L4Maps)

namespace SocketWorld

def start (l4 : L4Maps) (maps : SockMaps) : SocketWorld :=
  ⟨l4, { maps with origins := ∅ }, fun _ => none, fun _ => []⟩

def found (s : SocketWorld) (protocol : UInt8) (cpu : Nat) (ctx : SockAddr) : Bool :=
  (s.l4.sockServiceLookup cpu ctx.dstIp ctx.dstPort protocol).1.isSome

def step (s : SocketWorld) : SocketOp → SocketWorld
  | .connect cpu ctx =>
    let r := trySockConnect4 cpu ctx (s.l4, s.maps)
    { s with
      l4 := r.2.1
      maps := r.2.2
      peer := update s.peer ctx.cookie (some (ctx.denotes, r.1)) }
  | .sendmsg cpu ctx =>
    let r := trySockSendmsg4 cpu ctx (s.l4, s.maps)
    { s with
      l4 := r.2.1
      maps := r.2.2
      sent := if s.found 17 cpu ctx then
          update s.sent ctx.cookie ((ctx.denotes, r.1) :: s.sent ctx.cookie)
        else s.sent }
  | .services l4 => { s with l4 := l4 }

def run (s : SocketWorld) (ops : List SocketOp) : SocketWorld := ops.foldl step s

/-- A reply from where a message was translated to is shown with the address of the message, and
the peer of a socket with the address given to connect. -/
structure Right (s : SocketWorld) : Prop where
  replies : ∀ cookie, ∀ x ∈ s.sent cookie, ∀ ctx : SockAddr, ctx.cookie = cookie →
    ctx.denotes = x.2.denotes → (trySockRecvmsg4 ctx s.maps).denotes = x.1
  peers : ∀ cookie, ∀ x ∈ s.peer cookie, (trySockGetpeername4 x.2 s.maps).denotes = x.1

/-- What there is to know about one socket. -/
structure View where
  shown : Option SockEndpoint
  sent : List (SockEndpoint × SockAddr)
  peer : Option (SockEndpoint × SockAddr)

def view (s : SocketWorld) (cookie : UInt64) : View :=
  ⟨(s.maps.origins.lookup cookie).map SockLbOrigin.address, s.sent cookie, s.peer cookie⟩

/-- A socket has one address only: that of its translated messages and of its connection. For a
connection that is not translated it is enough that no other one is recorded. -/
def Clean (s : SocketWorld) : SocketOp → Prop
  | .connect cpu ctx =>
    if s.found 6 cpu ctx then ∀ x ∈ s.sent ctx.cookie, x.1 = ctx.denotes
    else ∀ a ∈ (s.view ctx.cookie).shown, a = ctx.denotes
  | .sendmsg cpu ctx => s.found 17 cpu ctx = true →
    (∀ x ∈ s.sent ctx.cookie, x.1 = ctx.denotes) ∧ ∀ x ∈ s.peer ctx.cookie, x.1 = ctx.denotes
  | .services _ => True

def CleanRun : SocketWorld → List SocketOp → Prop
  | _, [] => True
  | s, op :: ops => s.Clean op ∧ CleanRun (s.step op) ops

instance (s : SocketWorld) : (op : SocketOp) → Decidable (s.Clean op)
  | .connect _ _ => inferInstanceAs (Decidable (ite _ _ _))
  | .sendmsg _ _ => inferInstanceAs (Decidable (_ → _ ∧ _))
  | .services _ => .isTrue trivial

instance decidableCleanRun : (s : SocketWorld) → (ops : List SocketOp) → Decidable (s.CleanRun ops)
  | _, [] => .isTrue trivial
  | s, op :: ops => @instDecidableAnd _ _ _ (decidableCleanRun (s.step op) ops)

variable {s : SocketWorld} {op : SocketOp}

theorem denotes_showOrigin (s : SocketWorld) (ctx : SockAddr) :
    (s.maps.showOrigin ctx).denotes = (s.view ctx.cookie).shown.getD ctx.denotes := by
  unfold SockMaps.showOrigin view
  cases s.maps.origins.lookup ctx.cookie with
  | none => rfl
  | some origin => exact denotes_redirect ctx _ _

/-- Messages and connections belong to the socket, and a translated message has left an
origin. -/
structure View.Kept (cookie : UInt64) (v : View) : Prop where
  sent : ∀ x ∈ v.sent, v.shown.isSome = true ∧ x.2.cookie = cookie
  peer : ∀ x ∈ v.peer, x.2.cookie = cookie

structure View.Right (v : View) : Prop where
  sent : ∀ x ∈ v.sent, v.shown = some x.1
  peer : ∀ x ∈ v.peer, v.shown.getD x.2.denotes = x.1

theorem right_iff (h : ∀ c, (s.view c).Kept c) : s.Right ↔ ∀ c, (s.view c).Right := by
  constructor
  · intro hs cookie
    refine ⟨fun x hx => ?_, fun x hx => ?_⟩
    · obtain ⟨hsome, hcookie⟩ := (h cookie).sent x hx
      obtain ⟨a, ha⟩ := Option.isSome_iff_exists.mp hsome
      have hreply := hs.replies cookie x hx x.2 hcookie rfl
      rw [trySockRecvmsg4, denotes_showOrigin, hcookie, ha, Option.getD_some] at hreply
      rw [ha, hreply]
    · have hpeer := hs.peers cookie x hx
      rwa [trySockGetpeername4, denotes_showOrigin, (h cookie).peer x hx] at hpeer
  · intro hs
    refine ⟨fun cookie x hx ctx hctx _ => ?_, fun cookie x hx => ?_⟩
    · rw [trySockRecvmsg4, denotes_showOrigin, hctx, (hs cookie).sent x hx, Option.getD_some]
    · rw [trySockGetpeername4, denotes_showOrigin, (h cookie).peer x hx, (hs cookie).peer x hx]

/-- A program leaves the context as it was, or the backend with the origin. -/
theorem sockTranslate_cases (protocol : UInt8) (cpu : Nat) (ctx : SockAddr) (s : SocketWorld) :
    (s.found protocol cpu ctx = false ∧ ∃ m,
      sockTranslate protocol cpu ctx (s.l4, s.maps) = (ctx, m, s.maps)) ∨
    s.found protocol cpu ctx = true ∧ ∃ ip port m,
      sockTranslate protocol cpu ctx (s.l4, s.maps) = (ctx.redirect ip port, m,
        { s.maps with origins :=
          s.maps.origins.insert ctx.cookie ⟨ctx.dstIp, ctx.dstPort, protocol⟩ }) := by
  unfold found sockTranslate
  rcases s.l4.sockServiceLookup cpu ctx.dstIp ctx.dstPort protocol with ⟨_ | ⟨ip, port⟩, m⟩
  · exact .inl ⟨rfl, m, rfl⟩
  · exact .inr ⟨rfl, ip, port, m, rfl⟩

theorem shown_insert (m : SockMaps) (ctx : SockAddr) (protocol : UInt8) (c : UInt64) :
    ((m.origins.insert ctx.cookie ⟨ctx.dstIp, ctx.dstPort, protocol⟩).lookup c).map
      SockLbOrigin.address =
      if c = ctx.cookie then some ctx.denotes else
        (m.origins.lookup c).map SockLbOrigin.address := by
  by_cases hc : c = ctx.cookie
  · subst hc
    rw [Finmap.lookup_insert, if_pos rfl]
    rfl
  · rw [Finmap.lookup_insert_of_ne _ hc, if_neg hc]

/-- A connect or a message changes what is known of its own socket. -/
theorem view_connect (s : SocketWorld) (cpu : Nat) (ctx : SockAddr) :
    ∃ r : SockAddr, r.cookie = ctx.cookie ∧ (s.found 6 cpu ctx = false → r = ctx) ∧
      (s.step (.connect cpu ctx)).view = update s.view ctx.cookie
        ⟨if s.found 6 cpu ctx then some ctx.denotes else (s.view ctx.cookie).shown,
          s.sent ctx.cookie, some (ctx.denotes, r)⟩ := by
  rcases sockTranslate_cases 6 cpu ctx s with ⟨hfound, m, hr⟩ | ⟨hfound, ip, port, m, hr⟩
  · refine ⟨ctx, rfl, fun _ => rfl, funext fun c => ?_⟩
    simp only [step, trySockConnect4, hr, view, hfound, update_apply]
    split
    · next hc =>
      subst hc
      simp
    · rfl
  · refine ⟨ctx.redirect ip port, rfl, by simp [hfound], funext fun c => ?_⟩
    simp only [step, trySockConnect4, hr, view, hfound, update_apply, shown_insert]
    split
    · next hc => simp [hc]
    · rfl

theorem view_sendmsg (s : SocketWorld) (cpu : Nat) (ctx : SockAddr)
    (hfound : s.found 17 cpu ctx = true) : ∃ r : SockAddr, r.cookie = ctx.cookie ∧
      (s.step (.sendmsg cpu ctx)).view = update s.view ctx.cookie
        ⟨some ctx.denotes, (ctx.denotes, r) :: s.sent ctx.cookie, s.peer ctx.cookie⟩ := by
  rcases sockTranslate_cases 17 cpu ctx s with ⟨hno, -⟩ | ⟨-, ip, port, m, hr⟩
  · simp [hfound] at hno
  · refine ⟨ctx.redirect ip port, rfl, funext fun c => ?_⟩
    simp only [step, trySockSendmsg4, hr, view, hfound, if_true, update_apply, shown_insert]
    split
    · next hc => simp [hc]
    · rfl

/-- A step keeps the addresses right exactly if it is clean. -/
theorem right_step_iff (hk : ∀ c, (s.view c).Kept c) (hs : ∀ c, (s.view c).Right)
    (op : SocketOp) : (∀ c, ((s.step op).view c).Kept c) ∧
      ((∀ c, ((s.step op).view c).Right) ↔ s.Clean op) := by
  have hold {P : Prop} {cookie : UInt64} : (P ∧ ∀ c, c ≠ cookie → (s.view c).Right) ↔ P :=
    and_iff_left fun c _ => hs c
  cases op with
  | connect cpu ctx =>
    obtain ⟨hsent, hpeer⟩ := hs ctx.cookie
    obtain ⟨r, hr, hsame, hview⟩ := s.view_connect cpu ctx
    rw [hview, forall_update_iff s.view (p := fun c v => v.Kept c),
      forall_update_iff s.view (p := fun _ v => v.Right), hold, Clean]
    refine ⟨⟨⟨fun x hx => ?_, by simpa using hr⟩, fun c _ => hk c⟩, ?_⟩
    · obtain ⟨hshown, hcookie⟩ := (hk ctx.cookie).sent x hx
      refine ⟨?_, hcookie⟩
      split
      · rfl
      · exact hshown
    · cases hfound : s.found 6 cpu ctx with
      | true =>
        refine ⟨fun h x hx => Option.some.inj (h.sent x hx).symm, fun h => ⟨fun x hx => ?_, ?_⟩⟩
        · exact congrArg some (h x hx).symm
        · simp
      | false =>
        obtain rfl := hsame hfound
        refine ⟨fun h a ha => ?_, fun h => ⟨hsent, ?_⟩⟩
        · have hshown := h.peer (r.denotes, r) rfl
          dsimp only at hshown
          rwa [if_neg Bool.false_ne_true, Option.mem_def.mp ha] at hshown
        · rintro _ ⟨⟩
          cases ha : (s.view r.cookie).shown with
          | none => rfl
          | some a => exact h a ha
  | sendmsg cpu ctx =>
    cases hfound : s.found 17 cpu ctx with
    | false =>
      rcases sockTranslate_cases 17 cpu ctx s with ⟨-, m, hr⟩ | ⟨hyes, -⟩
      · have hview : (s.step (.sendmsg cpu ctx)).view = s.view := by
          funext c
          simp only [step, trySockSendmsg4, hr, hfound, view]
          rfl
        rw [hview, Clean, hfound]
        exact ⟨hk, iff_of_true hs nofun⟩
      · simp [hfound] at hyes
    | true =>
      obtain ⟨r, hr, hview⟩ := s.view_sendmsg cpu ctx hfound
      rw [hview, forall_update_iff s.view (p := fun c v => v.Kept c),
        forall_update_iff s.view (p := fun _ v => v.Right), hold, Clean]
      refine ⟨⟨⟨?_, (hk ctx.cookie).peer⟩, fun c _ => hk c⟩, ?_⟩
      · refine List.forall_mem_cons.mpr ⟨⟨rfl, hr⟩, fun x hx => ⟨rfl, ?_⟩⟩
        exact ((hk ctx.cookie).sent x hx).2
      · refine ⟨fun h _ => ⟨fun x hx => ?_, fun x hx => (h.peer x hx).symm⟩, fun h => ⟨?_, ?_⟩⟩
        · exact Option.some.inj (h.sent x (List.mem_cons_of_mem _ hx)).symm
        · exact List.forall_mem_cons.mpr ⟨rfl, fun x hx => congrArg some ((h hfound).1 x hx).symm⟩
        · exact fun x hx => ((h hfound).2 x hx).symm
  | services l4 => exact ⟨hk, iff_of_true hs trivial⟩

theorem right_run_iff (hk : ∀ c, (s.view c).Kept c) (hs : ∀ c, (s.view c).Right)
    (ops : List SocketOp) : (∀ done, done <+: ops → (s.run done).Right) ↔ s.CleanRun ops := by
  induction ops generalizing s with
  | nil =>
    refine iff_of_true (fun done hdone => ?_) trivial
    rw [List.prefix_nil.mp hdone]
    exact (right_iff hk).mpr hs
  | cons op ops ih =>
    obtain ⟨hkept, hclean⟩ := right_step_iff hk hs op
    constructor
    · intro h
      have hright := (right_iff hkept).mp (h [op] (List.prefix_append [op] ops))
      exact ⟨hclean.mp hright, (ih hkept hright).mp fun done hdone =>
        h (op :: done) (List.cons_prefix_cons.mpr ⟨rfl, hdone⟩)⟩
    · rintro ⟨hop, hops⟩ done hdone
      rcases List.prefix_cons_iff.mp hdone with rfl | ⟨rest, rfl, hrest⟩
      · exact (right_iff hk).mpr hs
      · exact (ih hkept (hclean.mpr hop)).mpr hops rest hrest

/-- The addresses are right after every operation exactly if all operations are clean. -/
theorem socket_addresses_right_iff (l4 : L4Maps) (maps : SockMaps) (ops : List SocketOp) :
    (∀ done, done <+: ops → ((start l4 maps).run done).Right) ↔ (start l4 maps).CleanRun ops := by
  refine right_run_iff (fun c => ⟨?_, ?_⟩) (fun c => ⟨?_, ?_⟩) ops
  all_goals
    rintro x ⟨⟩

section Example

/-- Two services at addresses that read the same in both byte orders. -/
def dnsMaps : L4Maps :=
  L4Maps.serveAll ⟨(∅ : Finmap _).insert configKeyL4lbEnabled 1, ∅, ∅, ∅, ∅, ∅, false⟩
    [.upsertBackends [⟨0, "10.244.244.10", 53, "10.0.0.2"⟩, ⟨1, "10.245.245.10", 53, "10.0.0.2"⟩],
      .upsertService ⟨"10.96.96.10", 53, 17, .clusterIP⟩ ⟨1, 0, .random, 0, 0, 0⟩,
      .upsertService ⟨"10.97.97.10", 53, 17, .clusterIP⟩ ⟨1, 1, .random, 0, 0, 0⟩]

def sendTo (ip : UInt32) (cookie : UInt64) : SocketOp := .sendmsg 0 (.ofDestination ⟨ip, 53⟩ cookie)

/-- Two sockets, and a message in between that no service takes. -/
theorem socket_addresses_right_example :
    ∀ done, done <+: [sendTo 0x0a60600a 1, sendTo 0x0a00000a 1, sendTo 0x0a61610a 2] →
      ((start dnsMaps ⟨∅⟩).run done).Right :=
  (socket_addresses_right_iff dnsMaps ⟨∅⟩ _).mpr (by decide +kernel)

/-- One socket sends to both services. The reply of the first one is shown as from the second. -/
theorem second_service_shown :
    ∃ s : SocketWorld,
      s = (start dnsMaps ⟨∅⟩).run [sendTo 0x0a60600a 1, sendTo 0x0a61610a 1] ∧
      (∃ x ∈ s.sent 1, x.1 = ⟨0x0a60600a, 53⟩ ∧ x.2.denotes = ⟨0x0af4f40a, 53⟩) ∧
      (trySockRecvmsg4 (.ofDestination ⟨0x0af4f40a, 53⟩ 1) s.maps).denotes = ⟨0x0a61610a, 53⟩ ∧
      ¬ s.Right := by
  refine ⟨_, rfl, by decide +kernel, by decide +kernel, fun hright => ?_⟩
  have hreply := hright.replies 1 (⟨0x0a60600a, 53⟩, .ofDestination ⟨0x0af4f40a, 53⟩ 1)
    (by decide +kernel) (.ofDestination ⟨0x0af4f40a, 53⟩ 1) rfl rfl
  exact absurd hreply (by decide +kernel)

end Example

end SocketWorld

end NovaNet
