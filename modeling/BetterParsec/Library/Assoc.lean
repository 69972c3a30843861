import Mathlib

set_option autoImplicit false
set_option linter.all false

/-!
# Finite maps with constant value type

What is found in a finite map after an insertion or a removal, the list of keys
that a program keeps beside such a map, and the total size of its values.
-/

namespace Assoc

variable {K V : Type} [DecidableEq K]

section Lookup

variable (table : AList (fun _ : K => V)) (key other : K)

theorem lookup_insert_some (value found : V) :
    (table.insert key value).lookup other = some found ↔
      other = key ∧ value = found ∨ other ≠ key ∧ table.lookup other = some found := by
  by_cases same : other = key
  · subst same
    simp [AList.lookup_insert]
  · simp [same, AList.lookup_insert_ne same]

theorem lookup_erase_some (found : V) :
    (table.erase key).lookup other = some found ↔
      other ≠ key ∧ table.lookup other = some found := by
  by_cases same : other = key
  · subst same
    simp [AList.lookup_erase]
  · simp [same, AList.lookup_erase_ne same]

theorem keys_insert_fresh (fresh : key ∉ table) (value : V) :
    (table.insert key value).keys = key :: table.keys := by
  rw [AList.keys_insert, List.erase_of_not_mem fresh]

theorem keys_erase_filter : (table.erase key).keys = table.keys.filter (· ≠ key) := by
  rw [AList.keys_erase, table.keys_nodup.erase_eq_filter]
  apply List.filter_congr
  intro other _
  simp [bne, beq_eq_decide]

end Lookup

section MapValues

variable {W : Type} (f : V → W)

-- The same keys in the same order, with `f` applied to every value.
def mapValues (table : AList (fun _ : K => V)) : AList (fun _ : K => W) :=
  ⟨table.entries.map (fun entry => ⟨entry.1, f entry.2⟩), by
    rw [List.NodupKeys, List.keys, List.map_map]
    exact table.nodupKeys⟩

variable (table : AList (fun _ : K => V)) (key : K)

omit [DecidableEq K] in
@[simp] theorem keys_mapValues : (mapValues f table).keys = table.keys := by
  simp only [AList.keys, List.keys, mapValues, List.map_map]
  rfl

theorem kerase_map (entries : List ((_ : K) × V)) :
    (entries.map (fun entry => (⟨entry.1, f entry.2⟩ : (_ : K) × W))).kerase key =
      (entries.kerase key).map (fun entry => ⟨entry.1, f entry.2⟩) := by
  simp only [List.kerase, List.eraseP_map]
  rfl

omit [DecidableEq K] in
@[simp] theorem mapValues_empty : mapValues f (∅ : AList (fun _ : K => V)) = ∅ := rfl

theorem mapValues_insert (value : V) :
    mapValues f (table.insert key value) = (mapValues f table).insert key (f value) := by
  apply AList.ext
  simp only [AList.entries_insert, mapValues, kerase_map, List.map_cons]

theorem mapValues_erase : mapValues f (table.erase key) = (mapValues f table).erase key := by
  apply AList.ext
  exact (kerase_map f key table.entries).symm

@[simp] theorem lookup_mapValues : (mapValues f table).lookup key = (table.lookup key).map f := by
  cases found : table.lookup key with
  | some value =>
    have member : (⟨key, value⟩ : (_ : K) × V) ∈ table.entries := AList.mem_lookup_iff.mp found
    exact AList.mem_lookup_iff.mpr (List.mem_map_of_mem member)
  | none =>
    rw [AList.lookup_eq_none, AList.mem_keys] at found
    rw [Option.map_none, AList.lookup_eq_none, AList.mem_keys, keys_mapValues]
    exact found

end MapValues

structure Listed (order : List K) (table : Finmap (fun _ : K => V)) : Prop where
  nodup : order.Nodup
  listed : ∀ key, key ∈ order ↔ key ∈ table

omit [DecidableEq K] in
theorem listed_empty : Listed [] (∅ : Finmap (fun _ : K => V)) :=
  ⟨List.nodup_nil, by simp [Finmap.notMem_empty]⟩

namespace Listed

variable {order : List K} {table : Finmap (fun _ : K => V)} {key : K}

theorem push (kept : Listed order table) (fresh : key ∉ table) (value : V) :
    Listed (order ++ [key]) (table.insert key value) := by
  constructor
  · rw [List.nodup_append]
    refine ⟨kept.nodup, List.nodup_singleton key, fun other member same found => ?_⟩
    rintro rfl
    rw [List.mem_singleton.mp found, kept.listed] at member
    exact fresh member
  · intro other
    rw [List.mem_append, List.mem_singleton, Finmap.mem_insert, kept.listed, or_comm]

theorem set (kept : Listed order table) (held : key ∈ table) (value : V) :
    Listed order (table.insert key value) := by
  refine ⟨kept.nodup, fun other => ?_⟩
  rw [Finmap.mem_insert, kept.listed]
  constructor
  · exact Or.inr
  · rintro (rfl | member)
    · exact held
    · exact member

theorem remove (kept : Listed order table) (key : K) :
    Listed (order.filter (· ≠ key)) (table.erase key) := by
  refine ⟨kept.nodup.filter _, fun other => ?_⟩
  simp [Finmap.mem_erase, kept.listed, and_comm]

theorem length (kept : Listed order table) : order.length = table.keys.card := by
  rw [← List.toFinset_card_of_nodup kept.nodup]
  congr 1
  ext other
  rw [List.mem_toFinset, kept.listed, Finmap.mem_keys]

end Listed

def weight (size : V → Nat) (table : Finmap (fun _ : K => V)) : Nat :=
  ∑ key ∈ table.keys, (table.lookup key).elim 0 size

section Weight

variable (size : V → Nat) {table : Finmap (fun _ : K => V)} {key : K}

@[simp] theorem weight_empty : weight size (∅ : Finmap (fun _ : K => V)) = 0 := rfl

theorem weight_erase {value : V} (found : table.lookup key = some value) :
    weight size table = size value + weight size (table.erase key) := by
  have held : key ∈ table.keys := Finmap.mem_keys.mpr (Finmap.mem_of_lookup_eq_some found)
  rw [weight, weight, Finmap.keys_erase, ← Finset.add_sum_erase _ _ held, found]
  congr 1
  apply Finset.sum_congr rfl
  intro other member
  rw [Finmap.lookup_erase_ne (Finset.ne_of_mem_erase member)]

theorem erase_insert (value : V) : (table.insert key value).erase key = table.erase key := by
  apply Finmap.ext_lookup
  intro other
  by_cases here : other = key
  · subst here
    rw [Finmap.lookup_erase, Finmap.lookup_erase]
  · rw [Finmap.lookup_erase_ne here, Finmap.lookup_erase_ne here,
      Finmap.lookup_insert_of_ne _ here]

theorem weight_insert (fresh : key ∉ table) (value : V) :
    weight size (table.insert key value) = size value + weight size table := by
  have same : table.erase key = table := by
    apply Finmap.ext_lookup
    intro other
    by_cases here : other = key
    · subst here
      rw [Finmap.lookup_erase, Finmap.lookup_eq_none.mpr fresh]
    · rw [Finmap.lookup_erase_ne here]
  rw [weight_erase size (Finmap.lookup_insert table), erase_insert, same]

theorem weight_set {old : V} (found : table.lookup key = some old) (value : V) :
    weight size (table.insert key value) + size old = weight size table + size value := by
  rw [weight_erase size (Finmap.lookup_insert table), erase_insert, weight_erase size found]
  omega

theorem weight_mapValues {W : Type} (f : V → W) (size : W → Nat) (table : AList (fun _ : K => V)) :
    weight size (mapValues f table).toFinmap = weight (size ∘ f) table.toFinmap := by
  have keys : (mapValues f table).toFinmap.keys = table.toFinmap.keys := by
    ext key
    rw [Finmap.mem_keys, Finmap.mem_keys, Finmap.mem_toFinmap, Finmap.mem_toFinmap,
      AList.mem_keys, AList.mem_keys, keys_mapValues]
  rw [weight, weight, keys]
  apply Finset.sum_congr rfl
  intro key _
  rw [Finmap.lookup_toFinmap, Finmap.lookup_toFinmap, lookup_mapValues]
  cases table.lookup key <;> rfl

end Weight

end Assoc
