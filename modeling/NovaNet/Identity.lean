import NovaNet.Labels

/-! The identity allocator: label sets to 64-bit identities, with linear probing
when the hash of a new label set is taken. -/

namespace NovaNet

def identityOrder : IterOrder UInt64 := .sortedBy UInt64.toNat fun _ _ => UInt64.toNat_inj.mp

structure Allocator where
  idToLabels : Finmap fun _ : UInt64 => Labels
  refCount : Finmap fun _ : UInt64 => Nat
  labelsToID : Finmap fun _ : String => UInt64

namespace Allocator

def new : Allocator := ⟨∅, ∅, ∅⟩

/-- The first identity from `id` on that is free or already holds the label set.
The source loops without a bound, `fuel` bounds the probes. -/
def probe (a : Allocator) (canonical : String) : Nat → UInt64 → Option UInt64
  | 0, _ => none
  | fuel + 1, id =>
    match a.idToLabels.lookup id with
    | none => some id
    | some stored =>
      if canonicalLabels stored ≠ canonical then a.probe canonical fuel (id + 1) else some id

def incRef (a : Allocator) (id : UInt64) : Allocator :=
  { a with refCount := a.refCount.insert id ((a.refCount.lookup id).getD 0 + 1) }

def store (a : Allocator) (id : UInt64) (lbls : Labels) : Allocator :=
  if id ∈ a.idToLabels then a
  else { a with
    idToLabels := a.idToLabels.insert id lbls
    labelsToID := a.labelsToID.insert (canonicalLabels lbls) id }

/-- `none` when every identity is taken by another label set, where the source
would probe forever. -/
def allocateIdentity (hash : String → UInt64) (a : Allocator) (lbls : Labels) :
    Option (UInt64 × Allocator) :=
  match a.labelsToID.lookup (canonicalLabels lbls) with
  | some id => some (id, a.incRef id)
  | none =>
    match a.probe (canonicalLabels lbls) (a.idToLabels.keys.card + 1) (hash (canonicalLabels lbls)) with
    | some id => some (id, (a.store id lbls).incRef id)
    | none => none

def removeIdentity (a : Allocator) (id : UInt64) : Allocator :=
  match a.refCount.lookup id with
  | none => a
  | some count =>
    if count ≤ 1 then
      { idToLabels := a.idToLabels.erase id
        refCount := a.refCount.erase id
        labelsToID := match a.idToLabels.lookup id with
          | some lbls => a.labelsToID.erase (canonicalLabels lbls)
          | none => a.labelsToID }
    else { a with refCount := a.refCount.insert id (count - 1) }

def matching (a : Allocator) (sel : LabelSelector) : Finset UInt64 :=
  a.idToLabels.keys.filter fun id => (a.idToLabels.lookup id).any sel.matches

def findMatchingIdentities (a : Allocator) (o : IterOrder UInt64) (site : List Nat)
    (sel : LabelSelector) : List UInt64 := o.enum site (a.matching sel)

theorem mem_matching {a : Allocator} {sel : LabelSelector} {id : UInt64} :
    id ∈ a.matching sel ↔ ∃ lbls, a.idToLabels.lookup id = some lbls ∧ sel.matches lbls = true := by
  simp only [matching, Finset.mem_filter, Finmap.mem_keys, Finmap.mem_iff]
  cases a.idToLabels.lookup id <;> simp

theorem mem_findMatchingIdentities {a : Allocator} {o : IterOrder UInt64} {site : List Nat}
    {sel : LabelSelector} {id : UInt64} :
    id ∈ a.findMatchingIdentities o site sel ↔ id ∈ a.matching sel := by
  simp [findMatchingIdentities]

end Allocator

end NovaNet
