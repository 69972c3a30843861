import Mathlib

set_option autoImplicit false
set_option linter.all false

/-!
# Ordered finite maps

Association lists kept strictly increasing in their keys, so that iteration
order is key order and a map is determined by its lookups.
-/

instance uInt32LinearOrder : LinearOrder UInt32 where
  le_refl := UInt32.le_refl
  le_trans _ _ _ := UInt32.le_trans
  le_antisymm _ _ := UInt32.le_antisymm
  le_total := UInt32.le_total
  lt_iff_le_not_ge a b := by simp only [UInt32.not_le]; grind
  toDecidableLE := inferInstance

structure OrdMap (K V : Type) [LinearOrder K] where
  entries : List (K × V)
  sorted : entries.Pairwise (fun left right => left.1 < right.1)

namespace OrdMap

variable {K V : Type} [LinearOrder K]

def empty : OrdMap K V := ⟨[], .nil⟩

def get? (m : OrdMap K V) (key : K) : Option V :=
  (m.entries.find? (fun entry => entry.1 = key)).map Prod.snd

def contains (m : OrdMap K V) (key : K) : Bool := (m.get? key).isSome

def keys (m : OrdMap K V) : List K := m.entries.map Prod.fst

def size (m : OrdMap K V) : Nat := m.entries.length

def weight (m : OrdMap K V) (measure : V → Nat) : Nat :=
  (m.entries.map (fun entry => measure entry.2)).sum

def insertEntry (key : K) (value : V) : List (K × V) → List (K × V)
  | [] => [(key, value)]
  | entry :: rest =>
      if key < entry.1 then (key, value) :: entry :: rest
      else if key = entry.1 then (key, value) :: rest
      else entry :: insertEntry key value rest

theorem insertEntry_keys (key : K) (value : V) (entries : List (K × V)) (entry : K × V)
    (member : entry ∈ insertEntry key value entries) :
    entry = (key, value) ∨ entry ∈ entries := by
  induction entries with
  | nil => simpa [insertEntry] using member
  | cons head rest ih =>
    simp only [insertEntry] at member
    split_ifs at member <;> grind

theorem insertEntry_sorted (key : K) (value : V) (entries : List (K × V))
    (sorted : entries.Pairwise (fun left right => left.1 < right.1)) :
    (insertEntry key value entries).Pairwise (fun left right => left.1 < right.1) := by
  induction entries with
  | nil => simp [insertEntry]
  | cons head rest ih =>
    rw [List.pairwise_cons] at sorted
    simp only [insertEntry]
    split_ifs with before same
    · refine List.pairwise_cons.mpr ⟨?_, List.pairwise_cons.mpr sorted⟩
      intro entry member
      rcases List.mem_cons.mp member with rfl | member
      · exact before
      · exact before.trans (sorted.1 entry member)
    · refine List.pairwise_cons.mpr ⟨?_, sorted.2⟩
      intro entry member
      simpa [same] using sorted.1 entry member
    · refine List.pairwise_cons.mpr ⟨?_, ih sorted.2⟩
      intro entry member
      rcases insertEntry_keys key value rest entry member with rfl | member
      · exact lt_of_le_of_ne (not_lt.mp before) (Ne.symm same)
      · exact sorted.1 entry member

def insert (m : OrdMap K V) (key : K) (value : V) : OrdMap K V :=
  ⟨insertEntry key value m.entries, insertEntry_sorted key value m.entries m.sorted⟩

def filter (m : OrdMap K V) (keep : K → V → Bool) : OrdMap K V :=
  ⟨m.entries.filter (fun entry => keep entry.1 entry.2), m.sorted.filter _⟩

def erase (m : OrdMap K V) (key : K) : OrdMap K V := m.filter (fun other _ => other ≠ key)

theorem get?_eq_some (m : OrdMap K V) (key : K) (value : V) :
    m.get? key = some value ↔ (key, value) ∈ m.entries := by
  obtain ⟨entries, sorted⟩ := m
  simp only [get?]
  induction entries with
  | nil => simp
  | cons head rest ih =>
    rw [List.pairwise_cons] at sorted
    by_cases same : head.1 = key
    · have absent : (key, value) ∉ rest := fun member => by
        simpa [same] using sorted.1 _ member
      rcases head with ⟨first, second⟩
      subst same
      simp [absent, eq_comm]
    · have other : (key, value) ≠ head := fun equal => same (by rw [← equal])
      simp [same, other, ih sorted.2]

theorem get?_eq_none (m : OrdMap K V) (key : K) : m.get? key = none ↔ key ∉ m.keys := by
  rw [Option.eq_none_iff_forall_ne_some, keys, List.mem_map]
  constructor
  · rintro absent ⟨⟨other, value⟩, member, rfl⟩
    exact absent value ((m.get?_eq_some other value).mpr member)
  · intro absent value found
    exact absent ⟨(key, value), (m.get?_eq_some key value).mp found, rfl⟩

theorem mem_keys (m : OrdMap K V) (key : K) : key ∈ m.keys ↔ ∃ value, m.get? key = some value := by
  rw [← Option.isSome_iff_exists, ← not_iff_not, ← get?_eq_none]
  simp

@[simp] theorem contains_eq_false (m : OrdMap K V) (key : K) :
    m.contains key = false ↔ m.get? key = none := by
  simp [contains]

@[simp] theorem contains_eq_true (m : OrdMap K V) (key : K) :
    m.contains key = true ↔ m.get? key ≠ none := by
  simp [contains, Option.isSome_iff_ne_none]

theorem keys_sorted (m : OrdMap K V) : m.keys.Pairwise (· < ·) :=
  List.pairwise_map.mpr m.sorted

theorem keys_nodup (m : OrdMap K V) : m.keys.Nodup :=
  m.keys_sorted.imp (fun less => ne_of_lt less)

/-- Lookups determine the map: both entry lists are sorted and have the same members. -/
theorem ext (m n : OrdMap K V) (same : ∀ key, m.get? key = n.get? key) : m = n := by
  have members (entry : K × V) : entry ∈ m.entries ↔ entry ∈ n.entries := by
    rw [← get?_eq_some, ← get?_eq_some, same]
  have distinct (o : OrdMap K V) : o.entries.Nodup :=
    o.sorted.imp (fun less equal => by simp [equal] at less)
  have equal : m.entries = n.entries := by
    have antisymmetric (left right : K × V) (_ : left ∈ m.entries) (_ : right ∈ n.entries)
        (before : left.1 < right.1) (after : right.1 < left.1) : left = right :=
      absurd (before.trans after) (lt_irrefl _)
    exact List.Perm.eq_of_pairwise antisymmetric m.sorted n.sorted
      ((List.perm_ext_iff_of_nodup (distinct m) (distinct n)).mpr members)
  cases m
  cases n
  simpa using equal

@[simp] theorem get?_empty (key : K) : (empty : OrdMap K V).get? key = none := rfl

@[simp] theorem keys_empty : (empty : OrdMap K V).keys = [] := rfl

@[simp] theorem size_empty : (empty : OrdMap K V).size = 0 := rfl

@[simp] theorem weight_empty (measure : V → Nat) : (empty : OrdMap K V).weight measure = 0 := rfl

@[grind =] theorem get?_filter (m : OrdMap K V) (keep : K → V → Bool) (key : K) :
    (m.filter keep).get? key = (m.get? key).filter (keep key) := by
  apply Option.ext
  intro value
  rw [get?_eq_some, filter, List.mem_filter, ← get?_eq_some, Option.filter_eq_some_iff]

@[grind =] theorem get?_erase (m : OrdMap K V) (key other : K) :
    (m.erase key).get? other = if other = key then none else m.get? other := by
  rw [erase, get?_filter]
  by_cases same : other = key <;> simp [same]
  cases m.get? other <;> simp

theorem mem_insertEntry (key : K) (value : V) (entries : List (K × V))
    (sorted : entries.Pairwise (fun left right => left.1 < right.1)) (entry : K × V) :
    entry ∈ insertEntry key value entries ↔
      entry = (key, value) ∨ entry.1 ≠ key ∧ entry ∈ entries := by
  induction entries with
  | nil => simp [insertEntry]
  | cons head rest ih =>
    rw [List.pairwise_cons] at sorted
    simp only [insertEntry]
    split_ifs with before same
    · have later (entry : K × V) (member : entry ∈ rest) : key < entry.1 :=
        before.trans (sorted.1 entry member)
      grind
    · have later (entry : K × V) (member : entry ∈ rest) : key < entry.1 := by
        simpa [same] using sorted.1 entry member
      grind
    · simp only [List.mem_cons, ih sorted.2]
      grind

@[grind =] theorem get?_insert (m : OrdMap K V) (key other : K) (value : V) :
    (m.insert key value).get? other = if other = key then some value else m.get? other := by
  apply Option.ext
  intro found
  rw [get?_eq_some, insert, mem_insertEntry key value m.entries m.sorted]
  by_cases same : other = key
  · simp [same, eq_comm]
  · simp [same, get?_eq_some]

theorem weight_erase (m : OrdMap K V) (measure : V → Nat) (key : K) (value : V)
    (found : m.get? key = some value) :
    (m.erase key).weight measure + measure value = m.weight measure := by
  rw [get?_eq_some] at found
  obtain ⟨entries, sorted⟩ := m
  simp only [weight, erase, filter] at found ⊢
  induction entries with
  | nil => simp at found
  | cons head rest ih =>
    rw [List.pairwise_cons] at sorted
    rcases List.mem_cons.mp found with rfl | found
    · have kept : rest.filter (fun entry => decide (entry.1 ≠ key)) = rest := by
        refine List.filter_eq_self.mpr (fun entry member => ?_)
        simpa using (ne_of_lt (sorted.1 entry member)).symm
      simp only [ne_eq, decide_not] at kept
      simp [kept, Nat.add_comm]
    · have other : head.1 ≠ key := ne_of_lt (sorted.1 _ found)
      have rest := ih sorted.2 found
      simp [other] at rest ⊢
      omega

theorem weight_insertEntry_of_absent (measure : V → Nat) (key : K) (value : V)
    (entries : List (K × V)) (absent : ∀ entry ∈ entries, entry.1 ≠ key) :
    ((insertEntry key value entries).map (fun entry => measure entry.2)).sum =
      (entries.map (fun entry => measure entry.2)).sum + measure value := by
  induction entries with
  | nil => simp [insertEntry]
  | cons head rest ih =>
    have other : key ≠ head.1 := (absent head (by simp)).symm
    have tail := ih (fun entry member => absent entry (by simp [member]))
    simp only [insertEntry, other, if_false]
    split_ifs <;> simp <;> omega

theorem weight_insert_of_none (m : OrdMap K V) (measure : V → Nat) (key : K) (value : V)
    (absent : m.get? key = none) :
    (m.insert key value).weight measure = m.weight measure + measure value := by
  apply weight_insertEntry_of_absent
  rintro ⟨other, found⟩ member rfl
  rw [← get?_eq_some, absent] at member
  simp at member

theorem insert_eq_erase_insert (m : OrdMap K V) (key : K) (value : V) :
    m.insert key value = (m.erase key).insert key value := by
  apply ext
  intro other
  grind

theorem weight_insert_of_some (m : OrdMap K V) (measure : V → Nat) (key : K) (old value : V)
    (found : m.get? key = some old) :
    (m.insert key value).weight measure + measure old = m.weight measure + measure value := by
  rw [insert_eq_erase_insert, weight_insert_of_none, ← weight_erase m measure key old found]
  · omega
  · simp [get?_erase]

theorem size_eq_weight (m : OrdMap K V) : m.size = m.weight (fun _ => 1) := by
  simp [size, weight]

/-- A map whose lookups are all lookups of another weighs no more. -/
theorem weight_le_of_get? (m n : OrdMap K V) (measure : V → Nat)
    (lookups : ∀ key value, m.get? key = some value → n.get? key = some value) :
    m.weight measure ≤ n.weight measure := by
  have distinct : m.entries.Nodup :=
    m.sorted.imp (fun less equal => by simp [equal] at less)
  have members : m.entries ⊆ n.entries := fun entry member =>
    (n.get?_eq_some entry.1 entry.2).mp
      (lookups entry.1 entry.2 ((m.get?_eq_some entry.1 entry.2).mpr member))
  obtain ⟨kept, perm, sublist⟩ := List.subperm_of_subset distinct members
  calc m.weight measure = (kept.map (fun entry => measure entry.2)).sum :=
        (perm.map _).sum_eq.symm
    _ ≤ n.weight measure := List.Sublist.sum_le_sum (sublist.map _) (fun _ _ => Nat.zero_le _)

theorem size_le_of_get? (m n : OrdMap K V)
    (lookups : ∀ key value, m.get? key = some value → n.get? key = some value) :
    m.size ≤ n.size := by
  rw [size_eq_weight, size_eq_weight]
  exact weight_le_of_get? m n _ lookups

theorem weight_le_size (m : OrdMap K V) (measure : V → Nat) (one : ∀ value, measure value ≤ 1) :
    m.weight measure ≤ m.size := by
  rw [size_eq_weight]
  exact List.sum_le_sum (fun entry _ => one entry.2)

theorem size_erase (m : OrdMap K V) (key : K) (held : m.get? key ≠ none) :
    (m.erase key).size + 1 = m.size := by
  obtain ⟨value, found⟩ := Option.ne_none_iff_exists'.mp held
  rw [size_eq_weight, size_eq_weight]
  exact weight_erase m _ key value found

theorem size_insert_of_none (m : OrdMap K V) (key : K) (value : V) (absent : m.get? key = none) :
    (m.insert key value).size = m.size + 1 := by
  rw [size_eq_weight, size_eq_weight]
  exact weight_insert_of_none m _ key value absent

theorem size_insert_of_some (m : OrdMap K V) (key : K) (old value : V)
    (found : m.get? key = some old) : (m.insert key value).size = m.size := by
  rw [size_eq_weight, size_eq_weight]
  exact Nat.add_right_cancel (weight_insert_of_some m (fun _ => 1) key old value found)

theorem size_eq_zero (m : OrdMap K V) : m.size = 0 ↔ ∀ key, m.get? key = none := by
  constructor
  · intro empty key
    rw [get?, List.eq_nil_of_length_eq_zero empty]
    rfl
  · intro absent
    by_contra nonempty
    obtain ⟨entry, member⟩ := List.exists_mem_of_length_pos (Nat.pos_of_ne_zero nonempty)
    simpa [absent] using (m.get?_eq_some entry.1 entry.2).mpr member

theorem length_keys (m : OrdMap K V) : m.keys.length = m.size := by simp [keys, size]

/-- A map that holds every member of a duplicate-free list is at least as large as the list. -/
theorem length_le_size (m : OrdMap K V) (held : List K) (nodup : held.Nodup)
    (present : ∀ key ∈ held, m.get? key ≠ none) : held.length ≤ m.size := by
  rw [← length_keys]
  refine (List.subperm_of_subset nodup (fun key member => ?_)).length_le
  by_contra absent
  exact present key member ((m.get?_eq_none key).mpr absent)

end OrdMap
