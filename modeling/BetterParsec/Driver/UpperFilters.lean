import BetterParsec.Library.Terminated
import BetterParsec.Library.Utf16
import BetterParsec.Wire.DestName

set_option autoImplicit false
set_option linter.all false

/-!
# The UpperFilters list

`upperfilters.rs` and `multi_sz.rs` of `tools/betterparsec-kbdflt-core`: where the
driver stands among the filters of the keyboard class, and how the list is kept
in the registry.
-/

namespace BetterParsec

namespace UpperFilters

def driverService : List Char := "BetterParsecKbdFlt".toList

def kbdclass : List Char := "kbdclass".toList

def isDriver (filter : List Char) : Bool := DestName.eqIgnoreAsciiCase filter driverService

def isKbdclass (filter : List Char) : Bool := DestName.eqIgnoreAsciiCase filter kbdclass

def preserved (current : List (List Char)) : List (List Char) :=
  current.filter fun filter => !isDriver filter

def resolveInstallOrder (current : List (List Char)) : Except String (List (List Char)) :=
  let preserved := preserved current
  let kbdCount := (preserved.filter isKbdclass).length
  if kbdCount ≠ 1 then
    .error ("expected exactly one kbdclass entry; found " ++ toString kbdCount)
  else
    let idx := preserved.findIdx isKbdclass
    .ok (preserved.take idx ++ driverService :: preserved.drop idx)

def resolveUninstallOrder (current : List (List Char)) : Except String (List (List Char)) :=
  let filtered := preserved current
  if ¬ filtered.any isKbdclass then .error "refusing to write UpperFilters without kbdclass"
  else .ok filtered

namespace MultiSz

-- A surrogate without its other half is read as the replacement character.
def parse (words : List UInt16) : List (List Char) :=
  (Terminated.read 0 [] words).map Utf16.decode

def encode (values : List (List Char)) : List UInt16 :=
  Terminated.write 0 (values.map Utf16.encode)

theorem zero_mem_encode {text : List Char} (member : 0 ∈ Utf16.encode text) :
    Char.ofNat 0 ∈ text := by
  obtain ⟨c, inside, unit⟩ := List.mem_flatMap.mp member
  have valid : c.toNat < 0xD800 ∨ (0xDFFF < c.toNat ∧ c.toNat < 0x110000) := c.valid
  have zero : c.toNat = 0 := by
    rw [Utf16.encodeChar] at unit
    split_ifs at unit with basic
    · have same := congrArg UInt16.toNat (List.mem_singleton.mp unit)
      rw [UInt16.toNat_ofNat_of_lt' (by rw [UInt16.size]; omega)] at same
      exact same.symm
    · rcases List.mem_cons.mp unit with high | low
      · have same := congrArg UInt16.toNat high
        rw [UInt16.toNat_ofNat_of_lt' (by rw [UInt16.size]; omega)] at same
        exact absurd same (by change 0 ≠ _; omega)
      · have same := congrArg UInt16.toNat (List.mem_singleton.mp low)
        rw [UInt16.toNat_ofNat_of_lt' (by rw [UInt16.size]; omega)] at same
        exact absurd same (by change 0 ≠ _; omega)
  rwa [← zero, Char.ofNat_toNat]

theorem encode_ne_nil {text : List Char} (nonempty : text ≠ []) : Utf16.encode text ≠ [] := by
  intro empty
  apply nonempty
  rw [← Utf16.decode_encode text, empty]
  rfl

theorem decode_ne_nil {units : List UInt16} (nonempty : units ≠ []) :
    Utf16.decode units ≠ [] := by
  match units with
  | [] => exact absurd rfl nonempty
  | [u] => exact List.cons_ne_nil _ _
  | u :: v :: rest =>
    rw [Utf16.decode]
    split <;> exact List.cons_ne_nil _ _

theorem parse_encode {values : List (List Char)} (nonempty : ∀ value ∈ values, value ≠ [])
    (plain : ∀ value ∈ values, Char.ofNat 0 ∉ value) : parse (encode values) = values := by
  have stored : Terminated.read 0 [] (encode values) = values.map Utf16.encode := by
    apply Terminated.read_write
    · intro word member
      obtain ⟨value, inside, rfl⟩ := List.mem_map.mp member
      exact encode_ne_nil (nonempty value inside)
    · intro word member
      obtain ⟨value, inside, rfl⟩ := List.mem_map.mp member
      exact fun zero => plain value inside (zero_mem_encode zero)
  rw [parse, stored, List.map_map]
  exact (List.map_congr_left fun value _ => Utf16.decode_encode value).trans (List.map_id _)

theorem parse_nonempty {words : List UInt16} {value : List Char} (member : value ∈ parse words) :
    value ≠ [] := by
  obtain ⟨word, inside, rfl⟩ := List.mem_map.mp member
  exact decode_ne_nil (Terminated.read_nonempty inside)

end MultiSz

section Order

variable {current ordered : List (List Char)}

theorem preserved_preserved (current : List (List Char)) :
    preserved (preserved current) = preserved current := by
  simp [preserved, List.filter_filter]

-- `kbdclass` is not the driver, in whatever case.
theorem not_isDriver_of_isKbdclass {filter : List Char} (kbd : isKbdclass filter = true) :
    isDriver filter = false := by
  by_contra driver
  have first := of_decide_eq_true (eq_true_of_ne_false driver)
  have second := of_decide_eq_true kbd
  exact absurd (first.symm.trans second) (by decide)

theorem filter_preserved (current : List (List Char)) :
    (preserved current).filter isKbdclass = current.filter isKbdclass := by
  rw [preserved, List.filter_filter]
  apply List.filter_congr
  intro filter _
  cases kbd : isKbdclass filter with
  | false => rfl
  | true => rw [not_isDriver_of_isKbdclass kbd]; rfl

-- What the list is before and behind its only `kbdclass`.
structure Around (preserved before after : List (List Char)) (kbd : List Char) : Prop where
  whole : preserved = before ++ kbd :: after
  kbdclass : isKbdclass kbd = true
  others : ∀ filter ∈ before, isKbdclass filter = false

theorem Around.findIdx {preserved before after : List (List Char)} {kbd : List Char}
    (around : Around preserved before after kbd) :
    preserved.findIdx isKbdclass = before.length := by
  rw [around.whole, List.findIdx_append, List.findIdx_eq_length_of_false around.others,
    if_neg (lt_irrefl _), List.findIdx_cons, around.kbdclass, cond_true, Nat.zero_add]

theorem exists_around {preserved : List (List Char)}
    (count : (preserved.filter isKbdclass).length = 1) :
    ∃ before after kbd, Around preserved before after kbd := by
  obtain ⟨kbd, only⟩ := List.length_eq_one_iff.mp count
  obtain ⟨before, after, whole, others, kbdclass, -⟩ := List.filter_eq_cons_iff.mp only
  exact ⟨before, after, kbd, whole, kbdclass, fun filter member => by
    simpa using others filter member⟩

theorem resolveInstallOrder_eq {before after : List (List Char)} {kbd : List Char}
    (around : Around (preserved current) before after kbd)
    (count : (current.filter isKbdclass).length = 1) :
    resolveInstallOrder current = .ok (before ++ driverService :: kbd :: after) := by
  have single : ((preserved current).filter isKbdclass).length = 1 := by
    rw [filter_preserved]
    exact count
  simp only [resolveInstallOrder, single, around.findIdx, ne_eq, not_true_eq_false, if_false]
  rw [around.whole, List.take_left, List.drop_left]

theorem resolveInstallOrder_ok_iff (current : List (List Char)) :
    (∃ ordered, resolveInstallOrder current = .ok ordered) ↔
      (current.filter isKbdclass).length = 1 := by
  constructor
  · rintro ⟨ordered, result⟩
    by_contra count
    rw [← filter_preserved] at count
    simp only [resolveInstallOrder, ne_eq, count, not_false_eq_true, if_true] at result
    exact absurd result (by simp)
  · intro count
    obtain ⟨before, after, kbd, around⟩ :=
      exists_around ((congrArg List.length (filter_preserved current)).trans count)
    exact ⟨_, resolveInstallOrder_eq around count⟩

-- What an installed list should be.
structure Installed (current ordered : List (List Char)) : Prop where
  once : ordered.filter isDriver = [driverService]
  placed : ∃ before after kbd, ordered = before ++ driverService :: kbd :: after ∧
    isKbdclass kbd = true
  others : preserved ordered = preserved current
  again : resolveInstallOrder ordered = .ok ordered
  removed : resolveUninstallOrder ordered = .ok (preserved current)
  stored : MultiSz.parse (MultiSz.encode ordered) = ordered

theorem preserved_insert {before after : List (List Char)} {kbd : List Char}
    (around : Around (preserved current) before after kbd) :
    preserved (before ++ driverService :: kbd :: after) = preserved current := by
  have removed : preserved (before ++ driverService :: kbd :: after) =
      preserved (before ++ kbd :: after) := by
    simp only [preserved, List.filter_append, List.filter_cons]
    rfl
  rw [removed, ← around.whole, preserved_preserved]

theorem installed {before after : List (List Char)} {kbd : List Char}
    (around : Around (preserved current) before after kbd)
    (count : (current.filter isKbdclass).length = 1)
    (nonempty : ∀ filter ∈ current, filter ≠ [])
    (plain : ∀ filter ∈ current, Char.ofNat 0 ∉ filter) :
    Installed current (before ++ driverService :: kbd :: after) := by
  have same := preserved_insert around
  have none : ∀ filter ∈ preserved current, isDriver filter = false := by
    intro filter member
    simpa using (List.mem_filter.mp member).2
  rw [around.whole] at none
  have inside : ∀ filter ∈ before ++ driverService :: kbd :: after,
      filter = driverService ∨ filter ∈ current := by
    intro filter member
    by_cases driver : filter = driverService
    · exact .inl driver
    · have kept : filter ∈ preserved current := by
        rw [around.whole]
        simpa [driver] using member
      exact .inr (List.mem_filter.mp kept).1
  constructor
  · have left : before.filter isDriver = [] :=
      List.filter_eq_nil_iff.mpr fun filter member => by
        simp [none filter (List.mem_append_left _ member)]
    have right : (kbd :: after).filter isDriver = [] :=
      List.filter_eq_nil_iff.mpr fun filter member => by
        simp [none filter (List.mem_append_right _ member)]
    have own : isDriver driverService = true := by decide
    rw [List.filter_append, List.filter_cons, own, left, right]
    rfl
  · exact ⟨before, after, kbd, rfl, around.kbdclass⟩
  · exact same
  · have again : Around (preserved (before ++ driverService :: kbd :: after)) before after kbd := by
      rw [same]
      exact around
    apply resolveInstallOrder_eq again
    rw [← filter_preserved, same, filter_preserved]
    exact count
  · have kept : (preserved current).any isKbdclass = true := by
      rw [around.whole]
      simp [around.kbdclass]
    simp [resolveUninstallOrder, same, kept]
  · apply MultiSz.parse_encode
    · intro filter member
      rcases inside filter member with rfl | old
      · decide
      · exact nonempty filter old
    · intro filter member
      rcases inside filter member with rfl | old
      · decide
      · exact plain filter old

/-- The list is edited exactly if it has one `kbdclass`; what is written then has the driver once,
right above it, and can be read back, written again and undone. Neither function ever writes a list
without `kbdclass`, and no empty entry is read. -/
theorem upperFilters_edit (current : List (List Char))
    (nonempty : ∀ filter ∈ current, filter ≠ [])
    (plain : ∀ filter ∈ current, Char.ofNat 0 ∉ filter) :
    ((∃ ordered, resolveInstallOrder current = .ok ordered) ↔
        (current.filter isKbdclass).length = 1) ∧
      (∀ ordered, resolveInstallOrder current = .ok ordered → Installed current ordered) ∧
      (∀ list kept, resolveUninstallOrder list = .ok kept → ∃ filter ∈ kept, isKbdclass filter) ∧
      ∀ words, ∀ value ∈ MultiSz.parse words, value ≠ [] := by
  refine ⟨resolveInstallOrder_ok_iff current, ?_, ?_, fun _ _ => MultiSz.parse_nonempty⟩
  · intro ordered result
    have count := (resolveInstallOrder_ok_iff current).mp ⟨ordered, result⟩
    obtain ⟨before, after, kbd, around⟩ :=
      exists_around ((congrArg List.length (filter_preserved current)).trans count)
    rw [resolveInstallOrder_eq around count] at result
    cases result
    exact installed around count nonempty plain
  · intro list kept result
    rw [resolveUninstallOrder] at result
    split at result
    · cases result
    next found =>
      cases result
      simpa using found

theorem upperFilters_edit_vendor :
    (∀ filter ∈ ["VendorA".toList, "KbdClass".toList, "betterparsecKBDFLT".toList], filter ≠ []) ∧
      (∀ filter ∈ ["VendorA".toList, "KbdClass".toList, "betterparsecKBDFLT".toList],
        Char.ofNat 0 ∉ filter) ∧
      Installed ["VendorA".toList, "KbdClass".toList, "betterparsecKBDFLT".toList]
        ["VendorA".toList, driverService, "KbdClass".toList] := by
  have nonempty : ∀ filter ∈ ["VendorA".toList, "KbdClass".toList, "betterparsecKBDFLT".toList],
      filter ≠ [] := by decide
  have plain : ∀ filter ∈ ["VendorA".toList, "KbdClass".toList, "betterparsecKBDFLT".toList],
      Char.ofNat 0 ∉ filter := by decide
  exact ⟨nonempty, plain, (upperFilters_edit _ nonempty plain).2.1 _ (by decide)⟩

end Order

end UpperFilters

end BetterParsec
