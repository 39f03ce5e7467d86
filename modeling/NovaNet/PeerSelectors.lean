import NovaNet.CompilerSpec

/-! Which live identities a peer of a policy stands for. The compiler asks the allocator one
question for each namespace of the peer, and makes up an identity from the labels of a question
that nobody answers. -/

namespace NovaNet

open Finmap Allocator LabelSelector

section Selectors

variable {p : LabelSelector} {l : Labels}

theorem LabelSelector.matches_of_isEmpty (h : p.isEmpty = true) : p.matches l = true := by
  simp only [isEmpty, Bool.and_eq_true, decide_eq_true_eq, List.isEmpty_iff] at h
  simp [LabelSelector.matches, h.1, h.2]

theorem LabelSelector.lookup_of_matches_withLabel {k v : String}
    (h : (p.withLabel k v).matches l = true) : l.lookup k = some v :=
  (matches_iff.mp h).1 k v (lookup_insert _)

theorem LabelSelector.matches_of_withLabel {k v : String}
    (hown : ∀ x ∈ p.matchLabels.lookup k, x = v) (h : (p.withLabel k v).matches l = true) :
    p.matches l = true := by
  have hl := matches_iff.mp h
  rw [matches_iff]
  refine ⟨?_, hl.2⟩
  intro k' v' hv'
  by_cases hk : k' = k
  · subst hk
    rw [hown v' hv']
    exact hl.1 k' v (lookup_insert _)
  · exact hl.1 k' v' (by rw [withLabel, lookup_insert_of_ne _ hk, hv'])

end Selectors

abbrev Namespaces := Finmap fun _ : String => Labels

structure PeerSelects (namespaces : Namespaces) (ns : String) (podSel nsSel : Option LabelSelector)
    (l : Labels) : Prop where
  pod : ∀ p ∈ podSel, p.matches l = true
  own : nsSel = none → l.lookup namespaceLabel = some ns
  namespace_ : ∀ s ∈ nsSel, ∃ name labels, l.lookup namespaceLabel = some name ∧
    namespaces.lookup name = some labels ∧ s.matches labels = true

namespace Compiler

variable (c : Compiler) (namespaces : Namespaces) (ns : String)

inductive Scope : Option LabelSelector → Option LabelSelector → String → Prop where
  | own (p : LabelSelector) : Scope (some p) none ns
  | named (podSel : Option LabelSelector) {s : LabelSelector} {name : String}
      (hne : s.isEmpty = false) (hname : name ∈ c.resolveNamespaceNames s) :
      Scope podSel (some s) name

variable (podSel nsSel : Option LabelSelector)

def Question (q : LabelSelector) : Prop :=
  (∃ name, c.Scope ns podSel nsSel name ∧ q = (podSel.getD .empty).withLabel namespaceLabel name) ∨
  ∃ s ∈ nsSel, s.isEmpty = true ∧ (podSel.getD .empty).isEmpty = false ∧ q = podSel.getD .empty

def Unasked : Prop :=
  (podSel = none ∧ nsSel = none) ∨ ∃ s ∈ nsSel, s.isEmpty = true ∧ (podSel.getD .empty).isEmpty = true

def Fallback (id : UInt64) : Prop :=
  (∃ q, c.Question ns podSel nsSel q ∧ c.identityAllocator.matching q = ∅ ∧
    id = hashLabels c.hash q.matchLabels) ∨
  ∃ s ∈ nsSel, s.isEmpty = false ∧ c.resolveNamespaceNames s = [] ∧
    id = hashLabels c.hash (nsFallbackLabels (podSel.getD .empty).matchLabels s.matchLabels)

def Live (id : UInt64) (l : Labels) : Prop := c.identityAllocator.idToLabels.lookup id = some l

/-- The cluster around the compiler: namespaces carry their names, the resolver lists those that
match, and the label library takes the selectors it is given. -/
structure PeerSetting : Prop where
  named : ∀ name labels, namespaces.lookup name = some labels →
    labels.lookup "kubernetes.io/metadata.name" = some name
  resolver : ∀ s ∈ nsSel, ∃ resolve, c.namespaceResolver = some resolve ∧ ∀ name,
    name ∈ resolve s ↔ ∃ labels, namespaces.lookup name = some labels ∧ s.matches labels = true
  accepted : ∀ q, c.Question ns podSel nsSel q → c.selectorOk q = true

/-- The live identities that are returned, or covered by a wildcard, are those of the pods that
the peer selects. -/
def PeerExact (ids : List UInt64) : Prop :=
  ∀ id l, c.Live id l → ((id ∈ ids ∨ wildcardIdentity ∈ ids) ↔ PeerSelects namespaces ns podSel nsSel l)

structure PeerFit : Prop where
  /-- Where a question finds pods, the peer does not ask for another namespace, and the rest of
  its namespace selector holds as well. -/
  scope : ∀ name, c.Scope ns podSel nsSel name →
    c.identityAllocator.matching ((podSel.getD .empty).withLabel namespaceLabel name) ≠ ∅ →
    (∀ x ∈ (podSel.getD .empty).matchLabels.lookup namespaceLabel, x = name) ∧
      ∀ s ∈ nsSel, ∃ labels, namespaces.lookup name = some labels ∧ s.matches labels = true
  /-- Pods that a selector for all namespaces finds are in a namespace that exists. -/
  exists_ : ∀ s ∈ nsSel, s.isEmpty = true → ∀ id l, c.Live id l →
    (podSel.getD .empty).matches l = true →
      ∃ name labels, l.lookup namespaceLabel = some name ∧ namespaces.lookup name = some labels
  /-- A made-up identity is not that of a pod that the peer leaves out. -/
  fallback : ∀ id l, c.Fallback ns podSel nsSel id → c.Live id l →
    PeerSelects namespaces ns podSel nsSel l
  /-- A wildcard is for a peer that leaves no pod out. -/
  wildcard : Unasked podSel nsSel ∨ c.Fallback ns podSel nsSel wildcardIdentity ∨
    (∃ q, c.Question ns podSel nsSel q ∧ wildcardIdentity ∈ c.identityAllocator.matching q) →
    ∀ id l, c.Live id l → PeerSelects namespaces ns podSel nsSel l

variable {c namespaces ns podSel nsSel} {o : IterOrder UInt64} {site : List Nat} {id : UInt64}

section Questions

variable {q s p : LabelSelector}

theorem not_question_none : ¬ c.Question ns none none q := by
  rintro (⟨name, hscope, -⟩ | ⟨s, hs, -⟩)
  · cases hscope
  · cases hs

theorem question_own_iff : c.Question ns (some p) none q ↔ q = p.withLabel namespaceLabel ns := by
  constructor
  · rintro (⟨name, hscope, rfl⟩ | ⟨s, hs, -⟩)
    · cases hscope
      rfl
    · cases hs
  · rintro rfl
    exact .inl ⟨ns, .own p, rfl⟩

theorem question_everywhere_iff (hs : s.isEmpty = true) : c.Question ns podSel (some s) q ↔
    (podSel.getD .empty).isEmpty = false ∧ q = podSel.getD .empty := by
  constructor
  · rintro (⟨name, hscope, -⟩ | ⟨s', hs', -, hne, rfl⟩)
    · cases hscope with
      | named _ hne _ => simp [hs] at hne
    · exact ⟨hne, rfl⟩
  · rintro ⟨hne, rfl⟩
    exact .inr ⟨s, rfl, hs, hne, rfl⟩

theorem question_named_iff (hs : s.isEmpty = false) : c.Question ns podSel (some s) q ↔
    ∃ name ∈ c.resolveNamespaceNames s, q = (podSel.getD .empty).withLabel namespaceLabel name := by
  constructor
  · rintro (⟨name, hscope, rfl⟩ | ⟨s', hs', hempty, -⟩)
    · cases hscope with
      | named _ _ hname => exact ⟨name, hname, rfl⟩
    · cases hs'
      simp [hs] at hempty
  · rintro ⟨name, hname, rfl⟩
    exact .inl ⟨name, .named podSel hs hname, rfl⟩

theorem peerReaches_iff (hok : ∀ q, c.Question ns podSel nsSel q → c.selectorOk q = true) :
    c.PeerReaches ns ⟨podSel, nsSel, none⟩ id ↔
      (Unasked podSel nsSel ∧ id = wildcardIdentity) ∨
      (∃ q, c.Question ns podSel nsSel q ∧ id ∈ c.identityAllocator.matching q) ∨
      c.Fallback ns podSel nsSel id := by
  have hasked : (∃ q, c.Question ns podSel nsSel q ∧ c.Resolves q id) ↔
      (∃ q, c.Question ns podSel nsSel q ∧ id ∈ c.identityAllocator.matching q) ∨
      ∃ q, c.Question ns podSel nsSel q ∧ c.identityAllocator.matching q = ∅ ∧
        id = hashLabels c.hash q.matchLabels := by
    rw [← exists_or]
    refine exists_congr fun q => ?_
    rw [← and_or_left]
    exact and_congr_right fun hq => and_iff_right (hok q hq)
  rw [Fallback, ← or_assoc (a := ∃ q, _ ∧ _ ∈ _), ← hasked]
  cases nsSel with
  | none =>
    cases podSel with
    | none => simp [PeerReaches, Unasked, not_question_none]
    | some p =>
      have hreach : c.PeerReaches ns ⟨some p, none, none⟩ id ↔
          c.Resolves (p.withLabel namespaceLabel ns) id := and_iff_right rfl
      simp [hreach, Unasked, question_own_iff]
  | some s =>
    have hreach : c.PeerReaches ns ⟨podSel, some s, none⟩ id ↔
        c.ResolvesInNamespaces (podSel.getD .empty) s id := by
      cases podSel <;> exact and_iff_right rfl
    rw [hreach, ResolvesInNamespaces]
    cases hs : s.isEmpty with
    | true =>
      cases hp : (podSel.getD .empty).isEmpty <;>
        simp [Unasked, question_everywhere_iff hs, hs, hp]
    | false => simp [Unasked, question_named_iff hs, hs]

end Questions

section Answers

variable {l : Labels}

theorem forall_matches_iff :
    (∀ p ∈ podSel, p.matches l = true) ↔ (podSel.getD .empty).matches l = true := by
  cases podSel with
  | none => simp [matches_of_isEmpty (p := .empty) rfl]
  | some p => simp

theorem mem_resolveNamespaceNames (hset : c.PeerSetting namespaces ns podSel nsSel)
    {s : LabelSelector} (hs : s ∈ nsSel) {name : String} {labels : Labels}
    (hname : namespaces.lookup name = some labels) (hmatch : s.matches labels = true) :
    name ∈ c.resolveNamespaceNames s := by
  rw [resolveNamespaceNames]
  cases hkey : s.matchLabels.lookup "kubernetes.io/metadata.name" with
  | some given =>
    have hlabel := (matches_iff.mp hmatch).1 _ given hkey
    rw [hset.named name labels hname, Option.some.injEq] at hlabel
    exact List.mem_singleton.mpr hlabel
  | none =>
    obtain ⟨resolve, hresolve, hmem⟩ := hset.resolver s hs
    simp only [hresolve]
    exact (hmem name).mpr ⟨labels, hname, hmatch⟩

theorem answers_of_selects (hset : c.PeerSetting namespaces ns podSel nsSel)
    (hasked : ¬ Unasked podSel nsSel) (hlive : c.Live id l)
    (h : PeerSelects namespaces ns podSel nsSel l) :
    ∃ q, c.Question ns podSel nsSel q ∧ id ∈ c.identityAllocator.matching q := by
  have hpod := forall_matches_iff.mp h.pod
  cases nsSel with
  | none =>
    cases podSel with
    | none => exact absurd (.inl ⟨rfl, rfl⟩) hasked
    | some p =>
      have hmatch := matches_withLabel_of (h.own rfl) hpod
      exact ⟨_, question_own_iff.mpr rfl, mem_matching.mpr ⟨l, hlive, hmatch⟩⟩
  | some s =>
    cases hs : s.isEmpty with
    | true =>
      have hne : (podSel.getD .empty).isEmpty = false := by
        rw [← Bool.not_eq_true]
        exact fun hp => hasked (.inr ⟨s, rfl, hs, hp⟩)
      exact ⟨_, (question_everywhere_iff hs).mpr ⟨hne, rfl⟩, mem_matching.mpr ⟨l, hlive, hpod⟩⟩
    | false =>
      obtain ⟨name, labels, hplace, hname, hmatch⟩ := h.namespace_ s rfl
      have hmem := mem_resolveNamespaceNames hset rfl hname hmatch
      have hscoped := matches_withLabel_of hplace hpod
      exact ⟨_, (question_named_iff hs).mpr ⟨name, hmem, rfl⟩, mem_matching.mpr ⟨l, hlive, hscoped⟩⟩

theorem PeerFit.selects (hfit : c.PeerFit namespaces ns podSel nsSel) (hlive : c.Live id l)
    {q : LabelSelector} (hq : c.Question ns podSel nsSel q)
    (hid : id ∈ c.identityAllocator.matching q) : PeerSelects namespaces ns podSel nsSel l := by
  have hmatch : q.matches l = true := by
    obtain ⟨l', hl', hmatch⟩ := mem_matching.mp hid
    rw [hlive, Option.some.injEq] at hl'
    rwa [hl']
  rcases hq with ⟨name, hscope, rfl⟩ | ⟨s, hs, hempty, -, rfl⟩
  · obtain ⟨hown, hrest⟩ := hfit.scope name hscope (Finset.ne_empty_of_mem hid)
    have hplace := lookup_of_matches_withLabel hmatch
    refine ⟨forall_matches_iff.mpr (matches_of_withLabel hown hmatch), ?_, ?_⟩
    · rintro rfl
      cases hscope
      exact hplace
    · intro s hs
      obtain ⟨labels, hname, hlabels⟩ := hrest s hs
      exact ⟨name, labels, hplace, hname, hlabels⟩
  · refine ⟨forall_matches_iff.mpr hmatch, ?_, ?_⟩
    · rintro rfl
      cases hs
    · intro s' hs'
      obtain rfl : s = s' := Option.some.inj (hs.symm.trans hs')
      obtain ⟨name, labels, hplace, hname⟩ := hfit.exists_ s hs hempty id l hlive hmatch
      exact ⟨name, labels, hplace, hname, matches_of_isEmpty hempty⟩

end Answers

/-- A peer is resolved to the pods it selects exactly when it fits. -/
theorem resolvePodAndNsPeers_exact_iff (o : IterOrder UInt64) (site : List Nat)
    (hset : c.PeerSetting namespaces ns podSel nsSel) :
    c.PeerExact namespaces ns podSel nsSel (c.resolvePodAndNsPeers o site podSel nsSel ns) ↔
      c.PeerFit namespaces ns podSel nsSel := by
  simp only [PeerExact, mem_resolvePodAndNsPeers, peerReaches_iff hset.accepted]
  constructor
  · intro h
    have hanswer : ∀ id l, c.Live id l → (∃ q, c.Question ns podSel nsSel q ∧
        id ∈ c.identityAllocator.matching q) → PeerSelects namespaces ns podSel nsSel l :=
      fun id l hlive hq => (h id l hlive).mp (.inl (.inr (.inl hq)))
    constructor
    · intro name hscope hne
      obtain ⟨id, hid⟩ := Finset.nonempty_iff_ne_empty.mpr hne
      obtain ⟨l, hl, hmatch⟩ := mem_matching.mp hid
      have hsel := hanswer id l hl ⟨_, .inl ⟨name, hscope, rfl⟩, hid⟩
      have hplace := lookup_of_matches_withLabel hmatch
      constructor
      · intro x hx
        have hpod := (matches_iff.mp (forall_matches_iff.mp hsel.pod)).1 _ x hx
        rw [hplace, Option.some.injEq] at hpod
        exact hpod.symm
      · intro s hs
        obtain ⟨name', labels, hplace', hname, hlabels⟩ := hsel.namespace_ s hs
        rw [hplace, Option.some.injEq] at hplace'
        exact ⟨labels, by rw [hplace']; exact hname, hlabels⟩
    · intro s hs hempty id l hlive hpod
      have hsel : PeerSelects namespaces ns podSel nsSel l := by
        cases hp : (podSel.getD .empty).isEmpty with
        | true => exact (h id l hlive).mp (.inr (.inl ⟨.inr ⟨s, hs, hempty, hp⟩, trivial⟩))
        | false =>
          exact hanswer id l hlive ⟨_, .inr ⟨s, hs, hempty, hp, rfl⟩, mem_matching.mpr ⟨l, hlive, hpod⟩⟩
      obtain ⟨name, labels, hplace, hname, -⟩ := hsel.namespace_ s hs
      exact ⟨name, labels, hplace, hname⟩
    · exact fun id l hfall hlive => (h id l hlive).mp (.inl (.inr (.inr hfall)))
    · intro hwild id l hlive
      apply (h id l hlive).mp
      rcases hwild with hopen | hfall | hq
      · exact .inr (.inl ⟨hopen, trivial⟩)
      · exact .inr (.inr (.inr hfall))
      · exact .inr (.inr (.inl hq))
  · intro hfit id l hlive
    constructor
    · rintro ((⟨hopen, -⟩ | ⟨q, hq, hid⟩ | hfall) | hopen | ⟨q, hq, hid⟩ | hfall)
      · exact hfit.wildcard (.inl hopen) id l hlive
      · exact hfit.selects hlive hq hid
      · exact hfit.fallback id l hfall hlive
      · exact hfit.wildcard (.inl hopen.1) id l hlive
      · exact hfit.wildcard (.inr (.inr ⟨q, hq, hid⟩)) id l hlive
      · exact hfit.wildcard (.inr (.inl hfall)) id l hlive
    · intro hsel
      by_cases hopen : Unasked podSel nsSel
      · exact .inr (.inl ⟨hopen, trivial⟩)
      · exact .inl (.inr (.inl (answers_of_selects hset hopen hlive hsel)))

end Compiler

section Example

def untieredPod : Labels := ((∅ : Labels).insert "app" "web").insert namespaceLabel "default"

def webID : UInt64 := hashLabels hashCanonical untieredPod

def clusterNamespaces : Namespaces :=
  (∅ : Namespaces).insert "default" ((∅ : Labels).insert "kubernetes.io/metadata.name" "default")

def webCompiler : Compiler :=
  { identityAllocator := (new.store webID untieredPod).incRef webID
    namespaceResolver := some fun _ => []
    portResolver := none
    selectorOk := fun _ => true
    hash := hashCanonical }

def webSelector (es : List LabelSelectorRequirement) : LabelSelector :=
  ⟨(∅ : Labels).insert "app" "web", es⟩

def tieredSelector : LabelSelector := webSelector [⟨"tier", .exists, []⟩]

theorem live_webCompiler {id : UInt64} {l : Labels} :
    webCompiler.Live id l ↔ id = webID ∧ l = untieredPod := by
  have hstore : webCompiler.identityAllocator.idToLabels =
      (∅ : Finmap fun _ : UInt64 => Labels).insert webID untieredPod := by
    have hfree : webID ∉ new.idToLabels := notMem_empty
    simp only [webCompiler, incRef, store, if_neg hfree]
    rfl
  rw [Compiler.Live, hstore, LastWrite.lookup_insert_eq]
  simp [eq_comm]

theorem webSetting (es : List LabelSelectorRequirement) :
    webCompiler.PeerSetting clusterNamespaces "default" (some (webSelector es)) none where
  named := by
    intro name labels h
    rcases LastWrite.lookup_insert_eq_some h with ⟨rfl, rfl⟩ | ⟨-, hold⟩
    · exact lookup_insert _
    · cases hold
  resolver s hs := by cases hs
  accepted _ _ := rfl

theorem resolvePodAndNsPeers_exact_example :
    webCompiler.PeerExact clusterNamespaces "default" (some (webSelector [])) none
      (webCompiler.resolvePodAndNsPeers identityOrder [] (some (webSelector [])) none "default") := by
  apply (Compiler.resolvePodAndNsPeers_exact_iff identityOrder [] (webSetting [])).mpr
  have hselects : ∀ id l, webCompiler.Live id l →
      PeerSelects clusterNamespaces "default" (some (webSelector [])) none l := by
    intro id l hlive
    rw [(live_webCompiler.mp hlive).2]
    refine ⟨fun p hp => ?_, fun _ => by decide +kernel, fun s hs => by cases hs⟩
    cases hp
    decide +kernel
  constructor
  · intro name hscope _
    cases hscope
    refine ⟨?_, fun s hs => by cases hs⟩
    decide +kernel
  · intro s hs
    cases hs
  · exact fun id l _ hlive => hselects id l hlive
  · exact fun _ => hselects

/-- The pod has no label "tier", but its identity is what the compiler makes up for pods with
app=web and some tier. -/
theorem resolvePodAndNsPeers_not_exact :
    webCompiler.PeerSetting clusterNamespaces "default" (some tieredSelector) none ∧
    ¬ webCompiler.PeerExact clusterNamespaces "default" (some tieredSelector) none
      (webCompiler.resolvePodAndNsPeers identityOrder [] (some tieredSelector) none "default") := by
  have hset := webSetting [⟨"tier", .exists, []⟩]
  refine ⟨hset, fun h => ?_⟩
  have hnone : webCompiler.identityAllocator.matching
      (tieredSelector.withLabel namespaceLabel "default") = ∅ := by
    rw [Finset.eq_empty_iff_forall_notMem]
    intro id hid
    obtain ⟨l, hl, hmatch⟩ := mem_matching.mp hid
    rw [(live_webCompiler.mp hl).2] at hmatch
    exact absurd hmatch (by decide +kernel)
  have hfall : webCompiler.Fallback "default" (some tieredSelector) none webID :=
    .inl ⟨_, Compiler.question_own_iff.mpr rfl, hnone, rfl⟩
  have hmem : webID ∈ webCompiler.resolvePodAndNsPeers identityOrder [] (some tieredSelector) none
      "default" :=
    Compiler.mem_resolvePodAndNsPeers.mpr
      ((Compiler.peerReaches_iff hset.accepted).mpr (.inr (.inr hfall)))
  have hsel := (h webID untieredPod (live_webCompiler.mpr ⟨rfl, rfl⟩)).mp (.inl hmem)
  exact absurd (hsel.pod _ rfl) (by decide +kernel)

end Example

end NovaNet
