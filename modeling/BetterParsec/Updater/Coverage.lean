import BetterParsec.Updater.CanonText
import BetterParsec.Updater.Manifest

set_option autoImplicit false
set_option linter.all false

/-!
# What a signature covers

Two sorted values are equal exactly if they denote the same JSON value, in which an
object is a finite map, so the canonical text and the JSON value determine each
other. A manifest can be read off the JSON value it is signed as.
-/

namespace BetterParsec

-- JSON values as such: integers by value, objects as maps from keys.
inductive Json where
  | null
  | bool (value : Bool)
  | integer (value : Int)
  | float (text : String)
  | string (text : String)
  | array (items : List Json)
  | object (fields : String → Option Json)

namespace Value

def denote : Value → Json
  | .null => .null
  | .bool value => .bool value
  | .number (.posInt value) => .integer value.toNat
  | .number (.negInt value _) => .integer value
  | .number (.float text) => .float text
  | .string text => .string text
  | .array items => .array (items.map fun item => item.denote)
  | .object entries => .object fun key =>
      (entries.map fun entry => (entry.1, entry.2.denote)).lookup key
termination_by value => sizeOf value
decreasing_by
  · exact sizeOf_item ‹_›
  · exact sizeOf_entry ‹_›

-- The keys of every object in it are distinct, as the keys of a map are.
def Distinct : Value → Prop
  | .array items => ∀ item ∈ items, item.Distinct
  | .object entries =>
      (entries.map Prod.fst).Nodup ∧ ∀ entry ∈ entries, entry.2.Distinct
  | .null | .bool _ | .number _ | .string _ => True
termination_by value => sizeOf value
decreasing_by
  · exact sizeOf_item ‹_›
  · exact sizeOf_entry ‹_›

section Denotation

-- The keys of every object stand in increasing order.
def Canonical : Value → Prop
  | .array items => ∀ item ∈ items, item.Canonical
  | .object entries =>
      entries.Pairwise (fun left right => left.1 < right.1) ∧ ∀ entry ∈ entries, entry.2.Canonical
  | .null | .bool _ | .number _ | .string _ => True
termination_by value => sizeOf value
decreasing_by
  · exact sizeOf_item ‹_›
  · exact sizeOf_entry ‹_›

variable {V : Type}

instance byKeyTotal : Std.Total (@ByKey V) := ⟨fun left right => le_total left.1 right.1⟩

instance byKeyTrans : IsTrans (String × V) ByKey := ⟨fun _ _ _ => le_trans⟩

theorem lookup_cons (entry : String × V) (rest : List (String × V)) (key : String) :
    (entry :: rest).lookup key = if key = entry.1 then some entry.2 else rest.lookup key := by
  obtain ⟨other, value⟩ := entry
  rw [List.lookup_cons]
  split_ifs with same
  · simp [same]
  · simp [beq_false_of_ne same]

theorem lookup_eq_some {entries : List (String × V)} (distinct : (entries.map Prod.fst).Nodup)
    (key : String) (value : V) : entries.lookup key = some value ↔ (key, value) ∈ entries := by
  induction entries with
  | nil => simp
  | cons entry rest ih =>
    obtain ⟨other, held⟩ := entry
    simp only [List.map_cons, List.nodup_cons] at distinct
    rw [lookup_cons]
    by_cases same : key = other
    · have absent : (other, value) ∉ rest := fun member =>
        distinct.1 (List.mem_map_of_mem (f := Prod.fst) member)
      simp [same, absent, eq_comm]
    · simp [same, ih distinct.2]

theorem lookup_perm {entries others : List (String × V)}
    (distinct : (entries.map Prod.fst).Nodup) (perm : entries.Perm others) (key : String) :
    entries.lookup key = others.lookup key := by
  refine Option.ext fun value => ?_
  rw [lookup_eq_some distinct, lookup_eq_some ((perm.map Prod.fst).nodup_iff.mp distinct)]
  exact perm.mem_iff

theorem denote_sorted {value : Value} (distinct : value.Distinct) :
    value.sorted.denote = value.denote := by
  induction value using Value.induction_on with
  | null | bool _ | string _ => simp [sorted]
  | number _ => simp [sorted]
  | array items ih =>
    simp only [Distinct] at distinct
    simp only [sorted, denote, List.map_map]
    exact congrArg Json.array (List.map_congr_left fun item member => ih item member
      (distinct item member))
  | object entries ih =>
    simp only [Distinct] at distinct
    have inner : (entries.map fun entry => (entry.1, entry.2.sorted.denote)) =
        entries.map fun entry => (entry.1, entry.2.denote) :=
      List.map_congr_left fun entry member => by rw [ih entry member (distinct.2 entry member)]
    have keys : ((entries.map fun entry => (entry.1, entry.2.denote)).map Prod.fst).Nodup := by
      simpa [List.map_map, Function.comp_def] using distinct.1
    simp only [sorted, denote, ← sort_map, List.map_map, Function.comp_def]
    refine congrArg Json.object (funext fun key => ?_)
    rw [inner]
    exact (lookup_perm keys (List.perm_insertionSort ByKey _).symm key).symm

theorem sorted_canonical {value : Value} (distinct : value.Distinct) : value.sorted.Canonical := by
  induction value using Value.induction_on with
  | null | bool _ | string _ => simp [sorted, Canonical]
  | number _ => simp [sorted, Canonical]
  | array items ih =>
    simp only [Distinct] at distinct
    simp only [sorted, Canonical, List.forall_mem_map]
    exact fun item member => ih item member (distinct item member)
  | object entries ih =>
    simp only [Distinct] at distinct
    simp only [sorted, Canonical, List.mem_insertionSort, List.forall_mem_map]
    refine ⟨?_, fun entry member => ih entry member (distinct.2 entry member)⟩
    have apart : ((entries.map fun entry => (entry.1, entry.2.sorted)).insertionSort
        ByKey).Pairwise fun left right => left.1 ≠ right.1 := by
      rw [← List.pairwise_map (f := Prod.fst) (R := (· ≠ ·))]
      refine (((List.perm_insertionSort ByKey _).map Prod.fst).nodup_iff).mpr ?_
      simpa [List.map_map, Function.comp_def] using distinct.1
    exact (List.pairwise_insertionSort ByKey _).imp₂ (fun _ _ => lt_of_le_of_ne) apart

theorem lookup_map (change : V → Json) (entries : List (String × V)) (key : String) :
    (entries.map fun entry => (entry.1, change entry.2)).lookup key =
      (entries.lookup key).map change := by
  induction entries with
  | nil => rfl
  | cons entry rest ih =>
    simp only [List.map_cons, lookup_cons, ih]
    split_ifs <;> rfl

theorem lookup_of_lt {entries : List (String × V)} {key : String}
    (later : ∀ entry ∈ entries, key < entry.1) : entries.lookup key = none := by
  induction entries with
  | nil => rfl
  | cons entry rest ih =>
    rw [lookup_cons, if_neg (ne_of_lt (later entry List.mem_cons_self))]
    exact ih fun other member => later other (List.mem_cons_of_mem _ member)

/-- Members in increasing order that denote the same map are the same. -/
theorem entries_eq {entries others : List (String × Value)}
    (increasing : entries.Pairwise fun left right => left.1 < right.1)
    (increasing' : others.Pairwise fun left right => left.1 < right.1)
    (each : ∀ entry ∈ entries, ∀ other ∈ others, entry.2.denote = other.2.denote →
      entry.2 = other.2)
    (same : ∀ key, (entries.lookup key).map denote = (others.lookup key).map denote) :
    entries = others := by
  induction entries generalizing others with
  | nil =>
    cases others with
    | nil => rfl
    | cons other rest => simpa [lookup_cons] using same other.1
  | cons entry rest ih =>
    cases others with
    | nil => simpa [lookup_cons] using same entry.1
    | cons other rest' =>
      rw [List.pairwise_cons] at increasing increasing'
      -- The smaller of the first keys would be missing on the other side.
      have keys : entry.1 = other.1 := by
        rcases lt_trichotomy entry.1 other.1 with less | equal | greater
        · have missing : (other :: rest').lookup entry.1 = none := by
            refine lookup_of_lt fun later member => ?_
            rcases List.mem_cons.mp member with rfl | member
            · exact less
            · exact less.trans (increasing'.1 later member)
          simpa [missing, lookup_cons] using same entry.1
        · exact equal
        · have missing : (entry :: rest).lookup other.1 = none := by
            refine lookup_of_lt fun later member => ?_
            rcases List.mem_cons.mp member with rfl | member
            · exact greater
            · exact greater.trans (increasing.1 later member)
          simpa [missing, lookup_cons] using same other.1
      have first : entry = other := by
        refine Prod.ext keys (each entry List.mem_cons_self other List.mem_cons_self ?_)
        simpa [lookup_cons, keys] using same entry.1
      subst first
      have rests : rest = rest' := by
        refine ih increasing.2 increasing'.2 (fun left member right member' =>
          each left (List.mem_cons_of_mem _ member) right (List.mem_cons_of_mem _ member')) ?_
        intro key
        by_cases here : key = entry.1
        · rw [here, lookup_of_lt increasing.1, lookup_of_lt increasing'.1]
        · simpa [lookup_cons, here] using same key
      rw [rests]

theorem number_eq {left right : Number}
    (same : (Value.number left).denote = (Value.number right).denote) : left = right := by
  cases left with
  | posInt value =>
    cases right with
    | posInt other => simpa [denote, UInt64.toNat_inj] using same
    | negInt other range =>
      simp only [denote, Json.integer.injEq] at same
      omega
    | float text => simp [denote] at same
  | negInt value range =>
    cases right with
    | posInt other =>
      simp only [denote, Json.integer.injEq] at same
      omega
    | negInt other range' => simpa [denote] using same
    | float text => simp [denote] at same
  | float text => cases right <;> simp_all [denote]

theorem items_eq {items others : List Value}
    (each : ∀ item ∈ items, ∀ other ∈ others, item.denote = other.denote → item = other)
    (same : items.map denote = others.map denote) : items = others := by
  induction items generalizing others with
  | nil => simpa [eq_comm] using same
  | cons item rest ih =>
    cases others with
    | nil => simp at same
    | cons other rest' =>
      obtain ⟨first, later⟩ := List.cons.inj same
      rw [each item List.mem_cons_self other List.mem_cons_self first,
        ih (fun left member right member' => each left (List.mem_cons_of_mem _ member) right
          (List.mem_cons_of_mem _ member')) later]

theorem denote_injective {value other : Value} (canonical : value.Canonical)
    (canonical' : other.Canonical) (same : value.denote = other.denote) : value = other := by
  induction value using Value.induction_on generalizing other with
  | null =>
    cases other with
    | number kept => cases kept <;> simp [denote] at same
    | _ => simp_all [denote]
  | bool value =>
    cases other with
    | number kept => cases kept <;> simp [denote] at same
    | _ => simp_all [denote]
  | string text =>
    cases other with
    | number kept => cases kept <;> simp [denote] at same
    | _ => simp_all [denote]
  | number kept =>
    cases other with
    | number other => exact congrArg Value.number (number_eq same)
    | _ => cases kept <;> simp [denote] at same
  | array items ih =>
    cases other with
    | array others =>
      simp only [Canonical] at canonical canonical'
      simp only [denote, Json.array.injEq] at same
      rw [items_eq (fun item member other member' =>
        ih item member (canonical item member) (canonical' other member')) same]
    | number kept => cases kept <;> simp [denote] at same
    | _ => simp [denote] at same
  | object entries ih =>
    cases other with
    | object others =>
      simp only [Canonical] at canonical canonical'
      simp only [denote, Json.object.injEq] at same
      rw [entries_eq canonical.1 canonical'.1
        (fun entry member other member' => ih entry member (canonical.2 entry member)
          (canonical'.2 other member')) fun key => ?_]
      simpa only [lookup_map denote] using congrFun same key
    | number kept => cases kept <;> simp [denote] at same
    | _ => simp [denote] at same

end Denotation

theorem canonicalize_ok {value : Value} {text : String}
    (written : canonicalize value = .ok text) :
    value.sorted.Integral ∧ text = String.ofList value.sorted.print := by
  cases inner : writeCanonical value with
  | error error => simp [canonicalize, inner, Except.map] at written
  | ok chars =>
    obtain ⟨integral, rfl⟩ := writeCanonical_ok _ _ inner
    refine ⟨integral, ?_⟩
    simpa [canonicalize, inner, Except.map, eq_comm] using written

theorem canonicalize_eq_iff {value other : Value} (distinct : value.Distinct)
    (distinct' : other.Distinct) {text text' : String} (written : canonicalize value = .ok text)
    (written' : canonicalize other = .ok text') : text = text' ↔ value.denote = other.denote := by
  obtain ⟨integral, rfl⟩ := canonicalize_ok written
  obtain ⟨integral', rfl⟩ := canonicalize_ok written'
  constructor
  · intro same
    have equal : value.sorted = other.sorted :=
      (print_at integral).injective (by simp [NoDigit]) integral' (String.ofList_injective same)
    rw [← denote_sorted distinct, equal, denote_sorted distinct']
  · intro same
    rw [← denote_sorted distinct, ← denote_sorted distinct'] at same
    rw [denote_injective (sorted_canonical distinct) (sorted_canonical distinct') same]

end Value

structure JsonValue where
  value : Value
  distinct : value.Distinct

section Manifests

theorem Role.toValue_injective : Function.Injective fun role : Role => role.toValue.denote := by
  intro left right same
  cases left <;> cases right <;> simp [Role.toValue, Value.denote] at same <;> rfl

theorem Role.toValue_plain (role : Role) : role.toValue.Distinct ∧ role.toValue.Integral := by
  cases role <;> simp [Role.toValue, Value.Distinct, Value.Integral]

theorem ComponentEntry.toValue_plain (component : ComponentEntry) :
    component.toValue.Distinct ∧ component.toValue.Integral := by
  have role := component.role.toValue_plain
  constructor <;> simp [toValue, Value.Distinct, Value.Integral, role]

theorem ProtocolVersions.toValue_plain (protocol : ProtocolVersions) :
    protocol.toValue.Distinct ∧ protocol.toValue.Integral := by
  constructor <;> simp [toValue, Value.Distinct, Value.Integral]

theorem Manifest.toValue_plain (manifest : Manifest) :
    manifest.toValue.Distinct ∧ manifest.toValue.Integral := by
  have protocol := manifest.protocol.toValue_plain
  have component := ComponentEntry.toValue_plain
  constructor <;> simp [toValue, Value.Distinct, Value.Integral, protocol, component]

theorem ComponentEntry.toValue_injective :
    Function.Injective fun component : ComponentEntry => component.toValue.denote := by
  intro left right same
  simp only [toValue, Value.denote, Json.object.injEq] at same
  have name := congrFun same "name"
  have role := congrFun same "role"
  have sha256 := congrFun same "sha256"
  have size := congrFun same "size"
  simp only [List.map_cons, Value.lookup_cons] at name role sha256 size
  simp [Value.denote] at name role sha256 size
  obtain ⟨name', role', sha256', size'⟩ := left
  obtain ⟨name'', role'', sha256'', size''⟩ := right
  simp only [ComponentEntry.mk.injEq]
  exact ⟨name, Role.toValue_injective role, sha256, UInt64.toNat_inj.mp size⟩

theorem ProtocolVersions.toValue_injective :
    Function.Injective fun protocol : ProtocolVersions => protocol.toValue.denote := by
  intro left right same
  simp only [toValue, Value.denote, Json.object.injEq] at same
  have fec := congrFun same "fec"
  have codes := congrFun same "connection_terminated_codes"
  simp only [List.map_cons, Value.lookup_cons] at fec codes
  simp [Value.denote] at fec codes
  obtain ⟨fec', codes'⟩ := left
  obtain ⟨fec'', codes''⟩ := right
  simp only [ProtocolVersions.mk.injEq]
  exact ⟨UInt32.toNat_inj.mp fec, UInt32.toNat_inj.mp codes⟩

theorem Manifest.toValue_injective :
    Function.Injective fun manifest : Manifest => manifest.toValue.denote := by
  intro left right same
  simp only [toValue, Value.denote, Json.object.injEq] at same
  have version := congrFun same "set_version"
  have protocol := congrFun same "protocol"
  have components := congrFun same "components"
  have key := congrFun same "signing_key_id"
  simp only [List.map_cons, Value.lookup_cons] at version protocol components key
  simp [Value.denote] at version protocol components key
  obtain ⟨version', protocol', components', key'⟩ := left
  obtain ⟨version'', protocol'', components'', key''⟩ := right
  simp only [Manifest.mk.injEq]
  exact ⟨version, ProtocolVersions.toValue_injective protocol,
    List.map_injective_iff.mpr ComponentEntry.toValue_injective components, key⟩

theorem Manifest.canonicalBytes_ok (manifest : Manifest) :
    ∃ text, canonicalize manifest.toValue = .ok text ∧
      manifest.canonicalBytes = .ok text.toUTF8 := by
  obtain ⟨chars, written⟩ := Value.writeCanonical_of_integral manifest.toValue_plain.2
  have canonical : canonicalize manifest.toValue = .ok (String.ofList chars) := by
    simp [canonicalize, written, Except.map]
  refine ⟨String.ofList chars, canonical, ?_⟩
  unfold canonicalBytes
  rw [canonical]

end Manifests

/-- The canonical text tells the JSON value and nothing but the JSON value; every manifest has
canonical bytes, and no other has the same. -/
theorem canonical_text_covers :
    (∀ (left right : JsonValue) (text text' : String), canonicalize left.value = .ok text →
      canonicalize right.value = .ok text' →
        (text = text' ↔ left.value.denote = right.value.denote)) ∧
    ∀ left right : Manifest, (∃ bytes, left.canonicalBytes = .ok bytes) ∧
      (left.canonicalBytes = right.canonicalBytes → left = right) := by
  constructor
  · intro left right text text' written written'
    exact Value.canonicalize_eq_iff left.distinct right.distinct written written'
  · intro left right
    obtain ⟨text, written, bytes⟩ := left.canonicalBytes_ok
    obtain ⟨text', written', bytes'⟩ := right.canonicalBytes_ok
    refine ⟨⟨_, bytes⟩, fun same => Manifest.toValue_injective ?_⟩
    rw [bytes, bytes'] at same
    have texts : text = text' := String.toByteArray_inj.mp (Except.ok.inj same)
    exact (Value.canonicalize_eq_iff left.toValue_plain.1 right.toValue_plain.1 written
      written').mp texts

def leftFirst : JsonValue :=
  ⟨.object [("left", .bool true), ("right", .string "\n")], by simp [Value.Distinct]⟩

def rightFirst : JsonValue :=
  ⟨.object [("right", .string "\n"), ("left", .bool true)], by simp [Value.Distinct]⟩

theorem canonical_text_covers_both_orders :
    leftFirst.value.denote = rightFirst.value.denote :=
  (canonical_text_covers.1 leftFirst rightFirst _ _ rfl rfl).mp rfl

end BetterParsec
