import NovaNet.RoutingReconciler

/-! The reconciliation of one family of intents, as one rule: from what a turn does to its key
follows what the two loops do to every key. -/

namespace NovaNet

open ErrorState Finmap

theorem wrapError_outcome {x : RoutingCall} {r : Reconciler} {Q E : Reconciler → Prop}
    (h : Outcome x r Q E) (context : String) : Outcome (wrapError context x) r Q E := by
  unfold Outcome wrapError
  cases hx : x r with
  | ok u r' => exact h.of_ok hx
  | error e r' => exact h.of_error hx

section Frr

variable {x : FrrCall} {r : Reconciler} {Q E : Reconciler → Prop}

theorem callFrr_lift {context : String} (h : Outcome x r.frr (fun f => Q { r with frr := f })
    fun f => E { r with frr := f }) : Outcome (callFrr context x) r Q E := by
  unfold Outcome callFrr
  cases hx : x r.frr with
  | ok u f => exact h.of_ok hx
  | error e f => exact h.of_error hx

theorem tryFrr_lift (h : Outcome x r.frr (fun f => Q { r with frr := f })
    fun f => Q { r with frr := f }) : Outcome (tryFrr x) r Q E := by
  unfold Outcome tryFrr
  cases hx : x r.frr with
  | ok u f => exact h.of_ok hx
  | error e f => exact h.of_error hx

theorem ensureBgpGlobal_split {names : FrrNames} (hidle : r.bgpConfigured = true → Q r)
    (hunset : r.bgpConfigured = false → (∀ g, r.bgpGlobal = some g → g.localAs = 0) → E r)
    (hconfigure : r.bgpConfigured = false → ∀ g, r.bgpGlobal = some g → g.localAs ≠ 0 →
      Outcome (callFrr "configure BGP global"
          (FrrClient.reconfigureBgpGlobal names r.frr.localAs g.localAs g.routerId)) r
        (fun r' => Q { forgetInstance r.frr.localAs g.localAs r' with bgpConfigured := true }) E) :
    Outcome (ensureBgpGlobal names) r Q E := by
  unfold Outcome ensureBgpGlobal
  cases hconf : r.bgpConfigured with
  | true => exact hidle hconf
  | false =>
    rw [if_neg Bool.false_ne_true]
    cases hg : r.bgpGlobal with
    | none => exact hunset hconf (by simp [hg])
    | some g =>
      dsimp only
      by_cases has : g.localAs = 0
      · rw [if_pos has]
        exact hunset hconf (by simpa [hg] using has)
      · rw [if_neg has]
        exact Outcome.bind_modify (hconfigure hconf g hg has)

end Frr

namespace Family

variable {κ α : Type} [DecidableEq κ] {F : Family κ α}
  {m : Finmap fun _ : κ => α} {k : κ} {r : Reconciler} {Q E : Reconciler → Prop}

omit [DecidableEq κ] in
theorem any_equal_iff {x : Option α} {a : α} : x.any (F.equal · a) = true ↔ x = some a := by
  cases x <;> simp [F.equal_iff]

theorem applyKey_outcome (hidle : m.lookup k = none ∨ m.lookup k = (F.applied r).lookup k → Q r)
    (happly : ∀ a, m.lookup k = some a → (F.applied r).lookup k ≠ some a →
      Outcome (F.apply ((F.applied r).lookup k) a) r
        (fun r' => Q (F.setApplied ((F.applied r').insert k a) r')) E) :
    Outcome (F.applyKey m k) r Q E := by
  cases hk : m.lookup k with
  | none => exact (outcome_pure (hidle (.inl hk))).of_eq (by rw [applyKey, hk]; rfl)
  | some a =>
    by_cases ha : (F.applied r).lookup k = some a
    · exact (outcome_pure (hidle (.inr (hk.trans ha.symm)))).of_eq
        (by rw [applyKey, hk]; exact if_pos (any_equal_iff.mpr ha))
    · exact (Outcome.bind_modify (wrapError_outcome (happly a hk ha) _)).of_eq
        (by rw [applyKey, hk]; exact if_neg (mt any_equal_iff.mp ha))

theorem removeKey_outcome (hidle : (F.applied r).lookup k = none ∨ k ∈ m ∨ F.kept r k = true → Q r)
    (hremove : ∀ a, (F.applied r).lookup k = some a → k ∉ m → F.kept r k = false →
      Outcome (F.remove a) r (fun r' => Q (F.setApplied ((F.applied r').erase k) r')) E) :
    Outcome (F.removeKey m k) r Q E := by
  cases hk : (F.applied r).lookup k with
  | none => exact (outcome_pure (hidle (.inl hk))).of_eq (by rw [removeKey, hk]; rfl)
  | some a =>
    by_cases hkeep : k ∈ m ∨ F.kept r k = true
    · exact (outcome_pure (hidle (.inr hkeep))).of_eq (by rw [removeKey, hk]; exact if_pos hkeep)
    · obtain ⟨hno, hkept⟩ := not_or.mp hkeep
      have hstep := hremove a hk hno (Bool.eq_false_iff.mpr hkept)
      exact (Outcome.bind_modify (wrapError_outcome hstep _)).of_eq
        (by rw [removeKey, hk]; exact if_neg hkeep)

theorem removeKey_of_mem (hk : k ∈ m) (r : Reconciler) : F.removeKey m k r = .ok () r := by
  unfold removeKey
  cases (F.applied r).lookup k with
  | none => rfl
  | some a => exact if_pos (.inl hk)

theorem removeKey_of_not_applied (hk : (F.applied r).lookup k = none) :
    F.removeKey m k r = .ok () r := by
  rw [removeKey, hk]

theorem key_of_desiredMap {desired : List α} {a : α}
    (h : (F.desiredMap desired).lookup k = some a) : F.key a = k := by
  rw [desiredMap, LastWrite.lookup_assign_empty] at h
  obtain ⟨b, -, hb⟩ := List.mem_map.mp (LastWrite.mem_of_written h)
  obtain ⟨rfl, rfl⟩ := Prod.mk.inj hb
  rfl

end Family

theorem collectErrors_outcome {context : String} {out : List RoutingError × Reconciler}
    {Q E : Reconciler → Prop} {r : Reconciler} {x : RoutingCall}
    (hx : x r = collectErrors context out) (h : LoopEnds out Q E) : Outcome x r Q E := by
  unfold Outcome
  rw [hx]
  obtain ⟨es, r'⟩ := out
  cases es with
  | nil => exact h.ok rfl
  | cons e es => exact h.failed (List.cons_ne_nil _ _)

theorem collectErrors_keeps {context : String} {out : List RoutingError × Reconciler}
    {I : Reconciler → Prop} {r : Reconciler} {x : RoutingCall}
    (hx : x r = collectErrors context out) (hI : I out.2) : Outcome x r I I :=
  collectErrors_outcome hx ⟨fun _ => hI, fun _ => hI⟩

namespace Family

variable {κ α : Type} [DecidableEq κ] {F : Family κ α} {I : Reconciler → Prop}

/-- A turn keeps `I`, and one that fails ends in `E`. -/
structure Turns (F : Family κ α) (desired : List α) (I E : Reconciler → Prop) : Prop where
  apply : ∀ k a r, (F.desiredMap desired).lookup k = some a →
    (F.applied r).lookup k ≠ some a → I r →
    Outcome (F.apply ((F.applied r).lookup k) a) r
      (fun r' => I (F.setApplied ((F.applied r').insert k a) r')) E
  remove : ∀ k a r, k ∉ F.desiredMap desired → (F.applied r).lookup k = some a →
    F.kept r k = false → I r →
    Outcome (F.remove a) r (fun r' => I (F.setApplied ((F.applied r').erase k) r')) E

theorem reconcile_invariant (o : IterOrder κ) {desired : List α} (h : F.Turns desired I I) :
    Keeps (F.reconcile o desired) I := by
  intro r hr
  refine collectErrors_keeps rfl (forEachKey_keeps (fun k _ r hr => ?_)
    (forEachKey_keeps (fun k _ r hr => ?_) hr))
  · exact removeKey_outcome (fun _ => hr) fun a ha hk hkept => h.remove k a r hk ha hkept hr
  · exact applyKey_outcome (fun _ => hr) fun a ha hne => h.apply k a r ha hne hr

variable {ν : Type*} {T : κ → Option α → ν → ν → Prop} {r : Reconciler}

/-- A turn at a desired key is the application, at any other applied key the removal, and a
key that is neither has an idle turn. So every key in use sees exactly one turn. -/
theorem reconcile_outcome (o : IterOrder κ) (desired : List α) (view : Reconciler → κ → ν)
    (happly : ∀ k a r, (F.desiredMap desired).lookup k = some a → I r →
      Outcome (F.applyKey (F.desiredMap desired) k) r (Turn I view (T k (some a)) k r)
        (Turn I view (fun _ _ => True) k r))
    (hremove : ∀ k r, k ∉ F.desiredMap desired → I r →
      Outcome (F.removeKey (F.desiredMap desired) k) r (Turn I view (T k none) k r)
        (Turn I view (fun _ _ => True) k r))
    (hI : I r) :
    Outcome (F.reconcile o desired) r
      (fun r' => I r' ∧ ∀ k, T k ((F.desiredMap desired).lookup k) (view r k) (view r' k)) I := by
  generalize hm : F.desiredMap desired = m at *
  -- the loop of the applications
  have hkeys {k : κ} : k ∈ o.enum [0] m.keys ↔ k ∈ m := (o.mem_enum _ _ _).trans mem_keys
  have hadd : EachKey I view (fun k => T k (m.lookup k)) (fun _ _ _ => True)
      (o.enum [0] m.keys) r (forEachKey (F.applyKey m) (o.enum [0] m.keys) r) := by
    refine forEachKey_spec (fun k hk r hr => ?_) (o.nodup_enum _ _) hI
    obtain ⟨a, ha⟩ := mem_iff.mp (hkeys.mp hk)
    rw [ha]
    exact happly k a r ha hr
  generalize hout : forEachKey (F.applyKey m) (o.enum [0] m.keys) r = added at hadd
  -- the loop of the removals passes over the desired keys
  have hrem : EachKey I view (fun k v v' => if k ∈ m then v' = v else T k none v v')
      (fun k _ _ => k ∉ m) (o.enum [1] (F.applied added.2).keys) added.2
      (forEachKey (F.removeKey m) (o.enum [1] (F.applied added.2).keys) added.2) := by
    refine forEachKey_spec (fun k hk r hr => ?_) (o.nodup_enum _ _) hadd.inv
    by_cases hmem : k ∈ m
    · unfold Outcome
      rw [removeKey_of_mem hmem]
      exact ⟨hr, by rw [if_pos hmem], fun _ _ => rfl⟩
    · refine (hremove k r hmem hr).imp (fun r' h => ?_) fun r' h => ⟨h.inv, hmem, h.frame⟩
      exact ⟨h.inv, by rw [if_neg hmem]; exact h.own, h.frame⟩
  generalize hout' : forEachKey (F.removeKey m) (o.enum [1] (F.applied added.2).keys) added.2 =
    removed at hrem
  have hrun : F.reconcile o desired r =
      collectErrors (F.what ++ " reconciliation") (added.1 ++ removed.1, removed.2) := by
    rw [← hout', ← hout, ← hm]
    rfl
  refine collectErrors_outcome hrun ⟨fun hnil => ⟨hrem.inv, fun k => ?_⟩, fun _ => hrem.inv⟩
  obtain ⟨hnil₁, hnil₂⟩ := List.append_eq_nil_iff.mp hnil
  have hown (hvisit : k ∈ o.enum [1] (F.applied added.2).keys) :=
    (hrem.own k hvisit).resolve_right fun h => h.2 hnil₂
  by_cases hmem : k ∈ m
  · have hsame : view removed.2 k = view added.2 k := by
      by_cases hvisit : k ∈ o.enum [1] (F.applied added.2).keys
      · have h := hown hvisit
        rwa [if_pos hmem] at h
      · exact hrem.frame k hvisit
    rw [hsame]
    exact (hadd.own k (hkeys.mpr hmem)).resolve_right fun h => h.2 hnil₁
  · rw [lookup_eq_none.mpr hmem, ← hadd.frame k (mt hkeys.mp hmem)]
    by_cases hvisit : k ∈ o.enum [1] (F.applied added.2).keys
    · have h := hown hvisit
      rwa [if_neg hmem] at h
    · have hnone : (F.applied added.2).lookup k = none := lookup_eq_none.mpr fun h =>
        hvisit ((o.mem_enum _ _ _).mpr (mem_keys.mpr h))
      rw [hrem.frame k hvisit]
      exact ((hremove k added.2 hmem hadd.inv).of_ok (removeKey_of_not_applied hnone)).own

theorem reconcile_flawless (o : IterOrder κ) {desired : List α}
    (h : F.Turns desired I fun _ => False) (hr : I r) :
    Outcome (F.reconcile o desired) r I fun _ => False := by
  have hadd := fun k r hr => applyKey_outcome (fun _ => hr) fun a ha hne => h.apply k a r ha hne hr
  have hrem := fun k r hr => removeKey_outcome (fun _ => hr)
    fun a ha hno hkept => h.remove k a r hno ha hkept hr
  obtain ⟨hnil, hr'⟩ := forEachKey_flawless hadd (o.enum [0] (F.desiredMap desired).keys) hr
  obtain ⟨hnil', hrem⟩ := forEachKey_flawless hrem (o.enum [1] (F.applied _).keys) hr'
  refine collectErrors_outcome rfl ⟨fun _ => hrem, fun hne => hne ?_⟩
  exact List.append_eq_nil_iff.mpr ⟨hnil, hnil'⟩

end Family

section Cycle

variable {names : FrrNames} {o : RoutingOrders} {store : IntentStore} {r : Reconciler}
  {A A₁ A₂ A₃ A₄ B : Reconciler → Prop}

/-- The four reconciliations in their order: what holds while none has failed, and what holds
after a failure. -/
theorem reconcileFamilies_outcome
    (hpeers : ∀ r, A r → Outcome (reconcilePeers names o (store.getPeerIntents o)) r A₁ B)
    (hprefixes : ∀ r, A₁ r → Outcome (reconcilePrefixes names o (store.getPrefixIntents o)) r A₂ B)
    (hbfd : ∀ r, A₂ r → Outcome (reconcileBfd names o (store.getBfdIntents o)) r A₃ B)
    (hospf : ∀ r, A₃ r → Outcome (reconcileOspf names o (store.getOspfIntents o)) r A₄ B)
    (hprefixes' : Keeps (reconcilePrefixes names o (store.getPrefixIntents o)) B)
    (hbfd' : Keeps (reconcileBfd names o (store.getBfdIntents o)) B)
    (hospf' : Keeps (reconcileOspf names o (store.getOspfIntents o)) B) (hr : A r) :
    Outcome (reconcileFamilies names o store) r A₄ B := by
  have hcons {x : RoutingCall} (context : String) {l : List RoutingCall} (hx : Keeps x B)
      (hl : ∀ y ∈ l, Keeps (id y) B) : ∀ y ∈ wrapError context x :: l, Keeps (id y) B :=
    List.forall_mem_cons.mpr ⟨fun r hr => wrapError_outcome (hx r hr) context, hl⟩
  have hafter₃ : ∀ y ∈ ([] : List RoutingCall), Keeps (id y) B := List.forall_mem_nil _
  have hafter₂ := hcons "reconcile OSPF" hospf' hafter₃
  have hafter₁ := hcons "reconcile BFD" hbfd' hafter₂
  have hafter := hcons "reconcile prefixes" hprefixes' hafter₁
  refine collectErrors_outcome rfl ?_
  refine LoopEnds.cons (wrapError_outcome (hpeers r hr) _) (fun r₁ hr₁ => ?_) hafter
  refine LoopEnds.cons (wrapError_outcome (hprefixes r₁ hr₁) _) (fun r₂ hr₂ => ?_) hafter₁
  refine LoopEnds.cons (wrapError_outcome (hbfd r₂ hr₂) _) (fun r₃ hr₃ => ?_) hafter₂
  exact LoopEnds.cons (wrapError_outcome (hospf r₃ hr₃) _) (fun r₄ hr₄ => LoopEnds.nil hr₄) hafter₃

theorem reconcileFamilies_keeps
    (hpeers : ∀ r, A r → Outcome (reconcilePeers names o (store.getPeerIntents o)) r B B)
    (hprefixes : Keeps (reconcilePrefixes names o (store.getPrefixIntents o)) B)
    (hbfd : Keeps (reconcileBfd names o (store.getBfdIntents o)) B)
    (hospf : Keeps (reconcileOspf names o (store.getOspfIntents o)) B) (hr : A r) :
    Outcome (reconcileFamilies names o store) r B B :=
  reconcileFamilies_outcome hpeers hprefixes hbfd hospf hprefixes hbfd hospf hr

theorem reconcile_outcome (hfrr : r.hasFrr = true) (hglobal : Outcome (ensureBgpGlobal names) r A B)
    (hfamilies : ∀ r, A r → Outcome (reconcileFamilies names o store) r A₄ B) :
    Outcome (reconcile names o store) r A₄ B :=
  (Outcome.bind ((wrapError_outcome hglobal _).imp hfamilies fun _ h => h)).of_eq (if_pos hfrr)

end Cycle

end NovaNet
