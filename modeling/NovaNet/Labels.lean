import NovaNet.IterOrder
import NovaNet.LastWrite
import Mathlib.Data.String.Basic

/-! Label sets, label selectors and the canonical string from which a label set
gets its identity. -/

namespace NovaNet

open Finmap List

abbrev Labels := Finmap fun _ : String => String

def namespaceLabel : String := "novanet.io/namespace"

inductive SelectorOperator where
  | in
  | notIn
  | exists
  | doesNotExist
  deriving DecidableEq

structure LabelSelectorRequirement where
  key : String
  operator : SelectorOperator
  values : List String

structure LabelSelector where
  matchLabels : Labels
  matchExpressions : List LabelSelectorRequirement

def LabelSelectorRequirement.matches (r : LabelSelectorRequirement) (l : Labels) : Bool :=
  match r.operator, l.lookup r.key with
  | .in, some v => decide (v ∈ r.values)
  | .in, none => false
  | .notIn, some v => decide (v ∉ r.values)
  | .notIn, none => true
  | .exists, v => v.isSome
  | .doesNotExist, v => v.isNone

def LabelSelector.matches (s : LabelSelector) (l : Labels) : Bool :=
  decide (∀ k ∈ s.matchLabels.keys, l.lookup k = s.matchLabels.lookup k) &&
    s.matchExpressions.all (·.matches l)

def LabelSelector.isEmpty (s : LabelSelector) : Bool :=
  s.matchLabels.keys = ∅ && s.matchExpressions.isEmpty

def LabelSelector.empty : LabelSelector := ⟨∅, []⟩

def LabelSelector.withLabel (s : LabelSelector) (k v : String) : LabelSelector :=
  { s with matchLabels := s.matchLabels.insert k v }

def sortedKeys (l : Labels) : List String := IterOrder.sorted.enum [] l.keys

def labelPart (l : Labels) (k : String) : String := k ++ "=" ++ (l.lookup k).getD ""

def canonicalLabels (l : Labels) : String := String.intercalate "," ((sortedKeys l).map (labelPart l))

/-- 64-bit FNV-1a. -/
def hashCanonical (canonical : String) : UInt64 :=
  canonical.toUTF8.data.toList.foldl
    (fun h b => (h ^^^ b.toUInt64) * 1099511628211) 14695981039346656037

def hashLabels (hash : String → UInt64) (l : Labels) : UInt64 := hash (canonicalLabels l)

variable {l l' : Labels} {k v : String} {s : LabelSelector}

theorem LabelSelector.matches_iff :
    s.matches l = true ↔ (∀ k v, s.matchLabels.lookup k = some v → l.lookup k = some v) ∧
      ∀ r ∈ s.matchExpressions, r.matches l = true := by
  simp only [LabelSelector.matches, Bool.and_eq_true, decide_eq_true_eq, all_eq_true, Finmap.mem_keys]
  refine and_congr_left fun _ => ⟨fun h k v hv => ?_, fun h k hk => ?_⟩
  · rw [h k (mem_of_lookup_eq_some hv), hv]
  · obtain ⟨v, hv⟩ := Finmap.mem_iff.mp hk
    rw [h k v hv, hv]

theorem LabelSelector.matches_withLabel_of (hk : l.lookup k = some v) (h : s.matches l = true) :
    (s.withLabel k v).matches l = true := by
  rw [matches_iff] at h ⊢
  refine ⟨?_, h.2⟩
  intro k' v' hv'
  rcases LastWrite.lookup_insert_eq_some hv' with ⟨rfl, rfl⟩ | ⟨-, hold⟩
  · exact hk
  · exact h.1 k' v' hold

theorem mem_sortedKeys : k ∈ sortedKeys l ↔ k ∈ l := by
  simp [sortedKeys, Finmap.mem_keys]

/-- Text that uses neither separator of the canonical form, as the grammar of
label keys and values guarantees. -/
def PlainText (s : String) : Prop := ',' ∉ s.toList ∧ '=' ∉ s.toList

def PlainLabels (l : Labels) : Prop := ∀ k v, l.lookup k = some v → PlainText k ∧ PlainText v

theorem labelPart_toList (h : l.lookup k = some v) :
    (labelPart l k).toList = k.toList ++ '=' :: v.toList := by
  simp [labelPart, h, String.toList_append]

theorem labelPart_no_comma (h : PlainLabels l) (hk : k ∈ sortedKeys l) :
    ',' ∉ (labelPart l k).toList := by
  obtain ⟨v, hv⟩ := Finmap.mem_iff.mp (mem_sortedKeys.mp hk)
  have hp := h k v hv
  rw [labelPart_toList hv]
  simp [hp.1.1, hp.2.1]

theorem append_cons_inj {α : Type*} {x : α} {a a' b b' : List α} (ha : x ∉ a) (ha' : x ∉ a')
    (h : a ++ x :: b = a' ++ x :: b') : a = a' ∧ b = b' := by
  induction a generalizing a' with
  | nil =>
    cases a' with
    | nil => exact ⟨rfl, (cons.inj h).2⟩
    | cons y a' => exact absurd ((cons.inj h).1 ▸ mem_cons_self) ha'
  | cons z a ih =>
    cases a' with
    | nil => exact absurd ((cons.inj h).1 ▸ mem_cons_self) ha
    | cons y a' =>
      obtain ⟨rfl, htail⟩ := cons.inj h
      obtain ⟨rfl, rfl⟩ := ih (fun hx => ha (mem_cons_of_mem _ hx))
        (fun hx => ha' (mem_cons_of_mem _ hx)) htail
      exact ⟨rfl, rfl⟩

theorem labelPart_inj (h : PlainLabels l) (h' : PlainLabels l') {k' : String} (hk : k ∈ l)
    (hk' : k' ∈ l') (he : labelPart l k = labelPart l' k') :
    k = k' ∧ l.lookup k = l'.lookup k' := by
  obtain ⟨v, hv⟩ := Finmap.mem_iff.mp hk
  obtain ⟨v', hv'⟩ := Finmap.mem_iff.mp hk'
  have ht := congrArg String.toList he
  rw [labelPart_toList hv, labelPart_toList hv'] at ht
  have hs := append_cons_inj (h k v hv).1.2 (h' k' v' hv').1.2 ht
  exact ⟨String.toList_injective hs.1, by rw [hv, hv', String.toList_injective hs.2]⟩

theorem canonicalLabels_eq_parts (h : PlainLabels l) (h' : PlainLabels l')
    (he : canonicalLabels l = canonicalLabels l') :
    (sortedKeys l).map (labelPart l) = (sortedKeys l').map (labelPart l') := by
  -- only the label set without labels splits into a part that is empty
  have hsplit : ∀ {l : Labels}, PlainLabels l →
      (((canonicalLabels l).toList).splitOn ',').filter (· ≠ []) =
        (sortedKeys l).map (String.toList ∘ labelPart l) := by
    intro l hl
    have hne : ∀ p ∈ (sortedKeys l).map (String.toList ∘ labelPart l), decide (p ≠ []) = true := by
      intro p hp
      obtain ⟨k, hk, rfl⟩ := mem_map.mp hp
      obtain ⟨v, hv⟩ := Finmap.mem_iff.mp (mem_sortedKeys.mp hk)
      simp [labelPart_toList hv]
    have hno : ∀ p ∈ (sortedKeys l).map (String.toList ∘ labelPart l), ',' ∉ p := by
      intro p hp
      obtain ⟨k, hk, rfl⟩ := mem_map.mp hp
      exact labelPart_no_comma hl hk
    simp only [canonicalLabels, String.toList_intercalate, map_map]
    by_cases hs : sortedKeys l = []
    · simp [hs]
    · rw [show (",".toList : List Char) = [','] by decide,
        splitOn_intercalate ',' hno (by simpa using hs), filter_eq_self.mpr hne]
  have hlists := hsplit h
  rw [he, hsplit h', ← map_map, ← map_map] at hlists
  exact (map_injective_iff.mpr (fun _ _ => String.toList_injective) hlists).symm

theorem lookup_of_parts (h : PlainLabels l) (h' : PlainLabels l')
    (he : (sortedKeys l).map (labelPart l) = (sortedKeys l').map (labelPart l'))
    (hv : l.lookup k = some v) : l'.lookup k = some v := by
  have hk : k ∈ l := mem_of_lookup_eq_some hv
  have hm : labelPart l k ∈ (sortedKeys l').map (labelPart l') := by
    rw [← he]
    exact mem_map_of_mem (mem_sortedKeys.mpr hk)
  obtain ⟨k', hk', hp⟩ := mem_map.mp hm
  have hi := labelPart_inj h h' hk (mem_sortedKeys.mp hk') hp.symm
  rw [hi.1, ← hi.2, hv]

theorem canonicalLabels_injective (h : PlainLabels l) (h' : PlainLabels l')
    (he : canonicalLabels l = canonicalLabels l') : l = l' := by
  have hp := canonicalLabels_eq_parts h h' he
  exact Finmap.ext_lookup fun k => Option.ext fun v =>
    ⟨lookup_of_parts h h' hp, lookup_of_parts h' h hp.symm⟩

def labelChar (c : Char) : Bool := c.isAlphanum || c ∈ ['-', '_', '.']

/-- The grammar of Kubernetes labels. -/
def GrammarLabels (l : Labels) : Prop :=
  ∀ k v, l.lookup k = some v → k ≠ "" ∧ (k.toList.all fun c => labelChar c || c = '/') = true ∧
    v.toList.all labelChar = true

theorem plainLabels_of_grammar (h : GrammarLabels l) : PlainLabels l := by
  intro k v hv
  obtain ⟨-, hk, hv⟩ := h k v hv
  rw [all_eq_true] at hk hv
  exact ⟨⟨fun hm => absurd (hk _ hm) (by decide), fun hm => absurd (hk _ hm) (by decide)⟩,
    fun hm => absurd (hv _ hm) (by decide), fun hm => absurd (hv _ hm) (by decide)⟩

/-- As the source makes it: the keys in the order of the iteration, and then sorted. -/
def canonicalLabelsFrom (o : IterOrder String) (l : Labels) : String :=
  String.intercalate "," (((o.enum [] l.keys).insertionSort (· ≤ ·)).map (labelPart l))

theorem canonicalLabelsFrom_eq (o : IterOrder String) (l : Labels) :
    canonicalLabelsFrom o l = canonicalLabels l := by
  rw [canonicalLabelsFrom, IterOrder.insertionSort_enum o [] []]
  rfl

theorem canonicalLabelsFrom_eq_iff (o o' : IterOrder String) (h : GrammarLabels l)
    (h' : GrammarLabels l') : canonicalLabelsFrom o l = canonicalLabelsFrom o' l' ↔ l = l' := by
  rw [canonicalLabelsFrom_eq, canonicalLabelsFrom_eq]
  refine ⟨canonicalLabels_injective (plainLabels_of_grammar h) (plainLabels_of_grammar h'), ?_⟩
  exact congrArg canonicalLabels

theorem canonicalLabelsFrom_eq_iff_example :
    canonicalLabelsFrom .sorted (((∅ : Labels).insert "app" "web").insert "tier" "db") ≠
      canonicalLabelsFrom .arbitrary (((∅ : Labels).insert "app" "db").insert "tier" "web") := by
  have hweb : GrammarLabels (((∅ : Labels).insert "app" "web").insert "tier" "db") :=
    LastWrite.forall_lookup_insert (by decide) (LastWrite.forall_lookup_insert (by decide) fun _ _ hv => by cases hv)
  have hdb : GrammarLabels (((∅ : Labels).insert "app" "db").insert "tier" "web") :=
    LastWrite.forall_lookup_insert (by decide) (LastWrite.forall_lookup_insert (by decide) fun _ _ hv => by cases hv)
  refine mt (canonicalLabelsFrom_eq_iff _ _ hweb hdb).mp fun he => ?_
  exact absurd (congrArg (Finmap.lookup "app") he) (by decide +kernel)

end NovaNet
