import BetterParsec.Updater.Canon

set_option autoImplicit false
set_option linter.all false

/-!
# Canonical texts

`canonicalize` prints the value with the entries of every object in the order of
their keys. Printing is delimited at every value without floats: no character of a
string can imitate the structure around it, and a number ends before its comma or
bracket.
-/

namespace BetterParsec

open Delimited

namespace Value

theorem sizeOf_item {items : List Value} {item : Value} (member : item ∈ items) :
    sizeOf item < sizeOf (Value.array items) := by
  have smaller := List.sizeOf_lt_of_mem member
  simp only [Value.array.sizeOf_spec]
  omega

theorem sizeOf_entry {entries : List (String × Value)} {entry : String × Value}
    (member : entry ∈ entries) : sizeOf entry.2 < sizeOf (Value.object entries) := by
  have smaller := List.sizeOf_lt_of_mem member
  have parts : sizeOf entry = 1 + sizeOf entry.1 + sizeOf entry.2 := rfl
  simp only [Value.object.sizeOf_spec]
  omega

/-- Induction on a value, with what holds of the elements of its lists. -/
theorem induction_on {motive : Value → Prop} (value : Value) (null : motive .null)
    (bool : ∀ value, motive (.bool value)) (number : ∀ number, motive (.number number))
    (string : ∀ text, motive (.string text))
    (array : ∀ items, (∀ item ∈ items, motive item) → motive (.array items))
    (object : ∀ entries, (∀ entry ∈ entries, motive entry.2) → motive (.object entries)) :
    motive value :=
  match value with
  | .null => null
  | .bool value => bool value
  | .number value => number value
  | .string text => string text
  | .array items =>
      array items fun item _ => item.induction_on null bool number string array object
  | .object entries =>
      object entries fun entry _ => entry.2.induction_on null bool number string array object
termination_by sizeOf value
decreasing_by
  · exact sizeOf_item ‹_›
  · exact sizeOf_entry ‹_›

def Integral : Value → Prop
  | .number kept => ∀ text, kept ≠ .float text
  | .array items => ∀ item ∈ items, item.Integral
  | .object entries => ∀ entry ∈ entries, entry.2.Integral
  | .null | .bool _ | .string _ => True
termination_by value => sizeOf value
decreasing_by
  · exact sizeOf_item ‹_›
  · exact sizeOf_entry ‹_›

def sorted : Value → Value
  | .null => .null
  | .bool value => .bool value
  | .number kept => .number kept
  | .string text => .string text
  | .array items => .array (items.map fun item => item.sorted)
  | .object entries =>
      .object ((entries.map fun entry => (entry.1, entry.2.sorted)).insertionSort ByKey)
termination_by value => sizeOf value
decreasing_by
  · exact sizeOf_item ‹_›
  · exact sizeOf_entry ‹_›

def printNumber : Number → List Char
  | .posInt value => decimal value.toNat
  | .negInt value _ => signedDecimal value
  | .float text => text.toList

def print : Value → List Char
  | .null => ['n', 'u', 'l', 'l']
  | .bool value => if value then ['t', 'r', 'u', 'e'] else ['f', 'a', 'l', 's', 'e']
  | .number kept => printNumber kept
  | .string text => writeCanonicalString text
  | .array items => '[' :: commaSeparated (items.map fun item => item.print) ++ [']']
  | .object entries =>
      '\x7b' :: commaSeparated (entries.map fun entry =>
        writeCanonicalString entry.1 ++ ':' :: entry.2.print) ++ ['\x7d']
termination_by value => sizeOf value
decreasing_by
  · exact sizeOf_item ‹_›
  · exact sizeOf_entry ‹_›

section Writing

theorem sort_map {V W : Type} (change : V → W) (entries : List (String × V)) :
    (entries.map fun entry => (entry.1, change entry.2)).insertionSort ByKey =
      (entries.insertionSort ByKey).map fun entry => (entry.1, change entry.2) :=
  (List.map_insertionSort (@ByKey V) (@ByKey W) (fun entry => (entry.1, change entry.2)) entries
    fun _ _ _ _ => Iff.rfl).symm

theorem writeMembers_eq_map (entries : List (String × Value)) :
    writeMembers entries = entries.map fun entry => (entry.1, writeCanonical entry.2) := by
  induction entries with
  | nil => rfl
  | cons entry rest ih => simp [writeMembers, ih]

theorem writeItems_ok {items : List Value} {texts : List (List Char)}
    (written : writeItems items = .ok texts) :
    (∀ item ∈ items, ∃ text, writeCanonical item = .ok text) ∧
      ∀ print : Value → List Char, (∀ item ∈ items, ∀ text, writeCanonical item = .ok text →
        text = print item) → texts = items.map print := by
  induction items generalizing texts with
  | nil => simp_all [writeItems]
  | cons item rest ih =>
    simp only [writeItems] at written
    cases first : writeCanonical item with
    | error error => simp [first, bind, Except.bind] at written
    | ok text =>
      cases later : writeItems rest with
      | error error => simp [first, later, bind, Except.bind] at written
      | ok others =>
        obtain rfl : text :: others = texts := by
          simpa [first, later, bind, Except.bind, pure, Except.pure] using written
        obtain ⟨each, mapped⟩ := ih later
        refine ⟨?_, fun print agrees => ?_⟩
        · simpa [first] using each
        · rw [List.map_cons, agrees item List.mem_cons_self text first,
            mapped print fun other member => agrees other (List.mem_cons_of_mem _ member)]

theorem collectMembers_each {members : List (String × Except CanonError (List Char))}
    {texts : List (List Char)} (collected : collectMembers members = .ok texts) :
    ∀ member ∈ members, ∃ text, member.2 = .ok text := by
  induction members generalizing texts with
  | nil => simp
  | cons member rest ih =>
    obtain ⟨key, written⟩ := member
    simp only [collectMembers] at collected
    cases written with
    | error error => simp [bind, Except.bind] at collected
    | ok text =>
      cases later : collectMembers rest with
      | error error => simp [later, bind, Except.bind] at collected
      | ok others => simpa using ih later

theorem collectMembers_map (written : List (String × List Char)) :
    collectMembers (written.map fun member => (member.1, .ok member.2)) =
      .ok (written.map fun member => writeCanonicalString member.1 ++ ':' :: member.2) := by
  induction written with
  | nil => rfl
  | cons member rest ih =>
    simp [collectMembers, ih, bind, Except.bind, pure, Except.pure]

def PrintsSorted (value : Value) : Prop :=
  ∀ text, writeCanonical value = .ok text → value.sorted.Integral ∧ text = value.sorted.print

theorem printsSorted_array {items : List Value} (each : ∀ item ∈ items, item.PrintsSorted) :
    (Value.array items).PrintsSorted := by
  intro text written
  simp only [writeCanonical] at written
  cases inner : writeItems items with
  | error error => simp [inner, bind, Except.bind] at written
  | ok texts =>
    obtain ⟨done, mapped⟩ := writeItems_ok inner
    have whole : '[' :: commaSeparated texts ++ [']'] = text := by
      simpa [inner, bind, Except.bind, pure, Except.pure] using written
    rw [mapped (fun item => item.sorted.print) fun item member text done =>
      (each item member text done).2] at whole
    refine ⟨?_, ?_⟩
    · simp only [sorted, Integral, List.forall_mem_map]
      intro item member
      obtain ⟨text, done⟩ := done item member
      exact (each item member text done).1
    · simp only [sorted, print, List.map_map]
      exact whole.symm

theorem printsSorted_object {entries : List (String × Value)}
    (each : ∀ entry ∈ entries, entry.2.PrintsSorted) : (Value.object entries).PrintsSorted := by
  intro text written
  simp only [writeCanonical] at written
  rw [writeMembers_eq_map] at written
  cases inner : collectMembers ((entries.map fun entry =>
      (entry.1, writeCanonical entry.2)).insertionSort ByKey) with
  | error error => simp [inner, bind, Except.bind] at written
  | ok texts =>
    have texts_ok (entry : String × Value) (member : entry ∈ entries) :
        ∃ text, writeCanonical entry.2 = .ok text := by
      refine collectMembers_each inner (entry.1, writeCanonical entry.2) ?_
      rw [List.mem_insertionSort]
      exact List.mem_map_of_mem member
    have printed : (entries.map fun entry => (entry.1, writeCanonical entry.2)) =
        (entries.map fun entry => (entry.1, entry.2.sorted)).map fun entry =>
          (entry.1, .ok entry.2.print) := by
      rw [List.map_map]
      refine List.map_congr_left fun entry member => ?_
      obtain ⟨text, done⟩ := texts_ok entry member
      simp [done, (each entry member text done).2]
    have collected : texts = ((entries.map fun entry =>
        (entry.1, entry.2.sorted)).insertionSort ByKey).map fun entry =>
          writeCanonicalString entry.1 ++ ':' :: entry.2.print := by
      have all := collectMembers_map (((entries.map fun entry =>
        (entry.1, entry.2.sorted)).insertionSort ByKey).map fun entry =>
          (entry.1, entry.2.print))
      rw [List.map_map, List.map_map] at all
      rw [printed, sort_map fun value : Value => Except.ok value.print] at inner
      exact Except.ok.inj (inner.symm.trans all)
    have whole : '\x7b' :: commaSeparated texts ++ ['\x7d'] = text := by
      simpa [inner, bind, Except.bind, pure, Except.pure] using written
    rw [collected] at whole
    refine ⟨?_, ?_⟩
    · simp only [sorted, Integral, List.mem_insertionSort, List.forall_mem_map]
      intro entry member
      obtain ⟨text, done⟩ := texts_ok entry member
      exact (each entry member text done).1
    · simp only [sorted, print]
      exact whole.symm

/-- What `canonicalize` writes is the sorted value, which has no floats. -/
theorem writeCanonical_ok (value : Value) : value.PrintsSorted := by
  induction value using Value.induction_on with
  | null | bool _ | string _ => simp [PrintsSorted, writeCanonical, sorted, Integral, print]
  | number kept =>
    cases kept with
    | posInt value =>
      simp [PrintsSorted, writeCanonical, writeNumber, Number.asU64, sorted, Integral, print,
        printNumber]
    | negInt value range =>
      simp [PrintsSorted, writeCanonical, writeNumber, Number.asU64, Number.asI64, sorted, Integral,
        print, printNumber]
    | float content =>
      simp [PrintsSorted, writeCanonical, writeNumber, Number.asU64, Number.asI64]
  | array items ih => exact printsSorted_array ih
  | object entries ih => exact printsSorted_object ih

theorem writeItems_of_each {items : List Value}
    (each : ∀ item ∈ items, ∃ text, writeCanonical item = .ok text) :
    ∃ texts, writeItems items = .ok texts := by
  induction items with
  | nil => exact ⟨[], rfl⟩
  | cons item rest ih =>
    obtain ⟨text, first⟩ := each item List.mem_cons_self
    obtain ⟨texts, later⟩ := ih fun other member => each other (List.mem_cons_of_mem _ member)
    exact ⟨text :: texts, by
      simp [writeItems, first, later, bind, Except.bind, pure, Except.pure]⟩

theorem collectMembers_of_each {members : List (String × Except CanonError (List Char))}
    (each : ∀ member ∈ members, ∃ text, member.2 = .ok text) :
    ∃ texts, collectMembers members = .ok texts := by
  induction members with
  | nil => exact ⟨[], rfl⟩
  | cons member rest ih =>
    obtain ⟨key, written⟩ := member
    obtain ⟨text, rfl⟩ := each (key, written) List.mem_cons_self
    obtain ⟨texts, later⟩ := ih fun other member => each other (List.mem_cons_of_mem _ member)
    exact ⟨(writeCanonicalString key ++ ':' :: text) :: texts, by
      simp [collectMembers, later, bind, Except.bind, pure, Except.pure]⟩

/-- Only a float is refused. -/
theorem writeCanonical_of_integral {value : Value} (integral : value.Integral) :
    ∃ text, writeCanonical value = .ok text := by
  induction value using Value.induction_on with
  | null | bool _ | string _ => exact ⟨_, by rw [writeCanonical]⟩
  | number kept =>
    simp only [Integral] at integral
    cases kept with
    | posInt value => exact ⟨_, rfl⟩
    | negInt value range => exact ⟨_, rfl⟩
    | float text => exact absurd rfl (integral text)
  | array items ih =>
    simp only [Integral] at integral
    obtain ⟨texts, written⟩ := writeItems_of_each fun item member =>
      ih item member (integral item member)
    exact ⟨'[' :: commaSeparated texts ++ [']'], by
      simp [writeCanonical, written, bind, Except.bind, pure, Except.pure]⟩
  | object entries ih =>
    simp only [Integral] at integral
    obtain ⟨texts, written⟩ : ∃ texts,
        collectMembers ((writeMembers entries).insertionSort ByKey) = .ok texts := by
      refine collectMembers_of_each fun member held => ?_
      rw [List.mem_insertionSort, writeMembers_eq_map] at held
      obtain ⟨entry, kept, rfl⟩ := List.mem_map.mp held
      exact ih entry kept (integral entry kept)
    exact ⟨'\x7b' :: commaSeparated texts ++ ['\x7d'], by
      simp [writeCanonical, written, bind, Except.bind, pure, Except.pure]⟩

end Writing

section Printing

def hexDigit (c : Char) : Nat := if c.isDigit then c.toNat - '0'.toNat else c.toNat - 'a'.toNat + 10

def unescape : List Char → Option (Char × List Char)
  | '\\' :: 'u' :: '0' :: '0' :: high :: low :: rest =>
      some (Char.ofNat (16 * hexDigit high + hexDigit low), rest)
  | '\\' :: 'b' :: rest => some ('\x08', rest)
  | '\\' :: 'f' :: rest => some ('\x0c', rest)
  | '\\' :: 'n' :: rest => some ('\n', rest)
  | '\\' :: 'r' :: rest => some ('\r', rest)
  | '\\' :: 't' :: rest => some ('\t', rest)
  | '\\' :: c :: rest => some (c, rest)
  | c :: rest => some (c, rest)
  | [] => none

theorem unescape_hexFour {code : Nat} (control : code < 0x20) (rest : List Char) :
    unescape ('\\' :: 'u' :: hexFour code ++ rest) = some (Char.ofNat code, rest) := by
  interval_cases code <;> rfl

theorem unescape_escape (c : Char) (rest : List Char) :
    unescape (escape c ++ rest) = some (c, rest) := by
  by_cases short : c ∈ ['"', '\\', '\x08', '\x0c', '\n', '\r', '\t']
  · simp only [List.mem_cons, List.not_mem_nil, or_false] at short
    obtain rfl | rfl | rfl | rfl | rfl | rfl | rfl := short <;> rfl
  · simp only [List.mem_cons, List.not_mem_nil, or_false, not_or] at short
    obtain ⟨quote, backslash, backspace, formFeed, newline, carriage, tab⟩ := short
    unfold escape
    rw [if_neg quote, if_neg backslash, if_neg backspace, if_neg formFeed, if_neg newline,
      if_neg carriage, if_neg tab]
    by_cases control : c.toNat < 0x20
    · rw [if_pos control, unescape_hexFour control, Char.ofNat_toNat]
    · rw [if_neg control]
      simp [unescape, backslash]

theorem escape_starts (c : Char) : ∃ first rest, escape c = first :: rest ∧ first ≠ '"' := by
  by_cases plain : escape c = [c]
  · refine ⟨c, [], plain, ?_⟩
    rintro rfl
    revert plain
    decide
  -- Every other form begins with a backslash.
  · refine ⟨'\\', (escape c).tail, ?_, by decide⟩
    unfold escape at plain ⊢
    grind

theorem writeCanonicalString_eq (text : String) :
    writeCanonicalString text = '"' :: closed '"' escape text.toList := by
  have inner (chars : List Char) : chars.flatMap escape ++ ['"'] = closed '"' escape chars := by
    induction chars with
    | nil => rfl
    | cons c rest ih => rw [List.flatMap_cons, List.append_assoc, ih, closed]
  rw [writeCanonicalString, List.cons_append, inner]

theorem string_at (text : String) :
    At (fun _ => True) (fun _ => True) writeCanonicalString text := by
  intro other rest rest' _ _ _ same
  rw [writeCanonicalString_eq, writeCanonicalString_eq] at same
  obtain ⟨chars, final⟩ := closed_at (fun c _ => escape_starts c) (fun _ _ => trivial)
    (fun c _ => at_of_decode unescape unescape_escape c) other.toList rest rest'
    (fun _ _ => trivial) trivial trivial (List.cons.inj same).2
  exact ⟨String.toList_inj.mp chars, final⟩

def NoDigit (rest : List Char) : Prop := ∀ c ∈ rest.head?, c.isDigit = false

theorem isDigit_of_mem_decimal {value : Nat} {c : Char} (member : c ∈ decimal value) :
    c.isDigit = true :=
  Nat.isDigit_of_mem_toDigits (b := 10) (by decide) (by decide) member

theorem decimal_at (value : Nat) : At NoDigit (fun _ => True) decimal value := by
  intro other rest rest' _ ends ends' same
  obtain ⟨run, final⟩ := run_unique Char.isDigit (fun _ => isDigit_of_mem_decimal)
    (fun _ => isDigit_of_mem_decimal) ends ends' same
  refine ⟨?_, final⟩
  rw [← Nat.ofDigitChars_ten_toDigits (n := value), ← Nat.ofDigitChars_ten_toDigits (n := other)]
  exact congrArg (fun chars => Nat.ofDigitChars 10 chars 0) run

theorem decimal_starts (value : Nat) :
    ∃ first rest, decimal value = first :: rest ∧ first.isDigit = true := by
  obtain ⟨first, rest, starts⟩ := List.exists_cons_of_ne_nil
    (Nat.toDigits_ne_nil (n := value) (b := 10))
  exact ⟨first, rest, starts, isDigit_of_mem_decimal (starts ▸ List.mem_cons_self)⟩

theorem signedDecimal_of_neg {value : Int} (negative : value < 0) :
    signedDecimal value = '-' :: decimal value.natAbs := by
  rw [signedDecimal, if_pos negative]

theorem decimal_ne_minus (value : Nat) (rest rest' : List Char) :
    decimal value ++ rest ≠ '-' :: rest' := by
  obtain ⟨first, later, starts, digit⟩ := decimal_starts value
  rw [starts, List.cons_append]
  intro same
  rw [(List.cons.inj same).1] at digit
  simp at digit

theorem number_at {kept : Number} (integral : ∀ text, kept ≠ .float text) :
    At NoDigit (fun other => ∀ text, other ≠ .float text) printNumber kept := by
  intro other rest rest' integral' ends ends' same
  cases kept with
  | float text => exact absurd rfl (integral text)
  | posInt value =>
    cases other with
    | float text => exact absurd rfl (integral' text)
    | posInt value' =>
      obtain ⟨equal, final⟩ := decimal_at value.toNat _ rest rest' trivial ends ends' same
      exact ⟨by rw [UInt64.toNat_inj.mp equal], final⟩
    | negInt value' range =>
      simp only [printNumber, signedDecimal_of_neg range.2] at same
      exact absurd same (decimal_ne_minus _ _ _)
  | negInt value range =>
    cases other with
    | float text => exact absurd rfl (integral' text)
    | posInt value' =>
      simp only [printNumber, signedDecimal_of_neg range.2] at same
      exact absurd same.symm (decimal_ne_minus _ _ _)
    | negInt value' range' =>
      simp only [printNumber, signedDecimal_of_neg range.2, signedDecimal_of_neg range'.2] at same
      obtain ⟨equal, final⟩ := decimal_at value.natAbs _ rest rest' trivial ends ends'
        (List.cons.inj same).2
      obtain rfl : value = value' := by omega
      exact ⟨rfl, final⟩

inductive Kind where
  | null
  | bool
  | number
  | string
  | array
  | object
  deriving DecidableEq

def kind : Value → Kind
  | .null => .null
  | .bool _ => .bool
  | .number _ => .number
  | .string _ => .string
  | .array _ => .array
  | .object _ => .object

def starts (c : Char) : Option Kind :=
  if c = 'n' then some .null
  else if c = 't' || c = 'f' then some .bool
  else if c = '-' || c.isDigit then some .number
  else if c = '"' then some .string
  else if c = '[' then some .array
  else if c = '\x7b' then some .object
  else none

theorem starts_digit {c : Char} (digit : c.isDigit = true) : starts c = some .number := by
  unfold starts
  split_ifs with null bool
  · simp [null] at digit
  · simp only [Bool.or_eq_true, decide_eq_true_eq] at bool
    obtain rfl | rfl := bool <;> simp at digit
  all_goals simp_all

theorem print_starts {value : Value} (integral : value.Integral) :
    ∃ first rest, value.print = first :: rest ∧ starts first = some value.kind := by
  cases value with
  | null => exact ⟨'n', _, by rw [print], rfl⟩
  | bool value =>
    cases value with
    | true => exact ⟨'t', _, by rw [print]; rfl, rfl⟩
    | false => exact ⟨'f', _, by rw [print]; rfl, rfl⟩
  | number kept =>
    cases kept with
    | float text =>
      simp only [Integral] at integral
      exact absurd rfl (integral text)
    | posInt value =>
      obtain ⟨first, rest, digits, digit⟩ := decimal_starts value.toNat
      exact ⟨first, rest, by rw [print, printNumber, digits], starts_digit digit⟩
    | negInt value range =>
      exact ⟨'-', _, by rw [print, printNumber, signedDecimal_of_neg range.2], rfl⟩
  | string text => exact ⟨'"', _, by rw [print, writeCanonicalString_eq], rfl⟩
  | array items => exact ⟨'[', _, by rw [print, List.cons_append], rfl⟩
  | object entries => exact ⟨'\x7b', _, by rw [print, List.cons_append], rfl⟩

theorem kind_eq {value other : Value} (integral : value.Integral) (integral' : other.Integral)
    {rest rest' : List Char} (same : value.print ++ rest = other.print ++ rest') :
    value.kind = other.kind := by
  obtain ⟨first, later, printed, begins⟩ := print_starts integral
  obtain ⟨first', later', printed', begins'⟩ := print_starts integral'
  rw [printed, printed', List.cons_append, List.cons_append] at same
  rw [(List.cons.inj same).1, begins'] at begins
  exact (Option.some.inj begins).symm

theorem print_unclosed {close : Char} (closes : starts close = none) :
    Unclosed close Integral print := by
  intro value integral
  obtain ⟨first, rest, printed, begins⟩ := print_starts integral
  refine ⟨first, rest, printed, ?_⟩
  rintro rfl
  simp [closes] at begins

theorem commaSeparated_eq {A : Type} (close : Char) (code : A → List Char) (values : List A) :
    commaSeparated (values.map code) ++ [close] = block ',' close code values := by
  have rest (values : List A) : (values.map code).flatMap (fun text => ',' :: text) ++ [close] =
      tail ',' close code values := by
    induction values with
    | nil => rfl
    | cons value values ih =>
      rw [List.map_cons, List.flatMap_cons, List.append_assoc, ih, tail, List.cons_append]
  cases values with
  | nil => rfl
  | cons value values => rw [List.map_cons, commaSeparated, List.append_assoc, rest, block]

theorem noDigit_tail {A : Type} {close : Char} (closes : close.isDigit = false)
    (code : A → List Char) (values : List A) (rest : List Char) :
    NoDigit (tail ',' close code values ++ rest) := by
  intro c head
  obtain rfl | rfl := tail_starts values rest c head
  · rfl
  · exact closes

def printEntry (entry : String × Value) : List Char :=
  writeCanonicalString entry.1 ++ ':' :: entry.2.print

theorem printEntry_at {entry : String × Value} (inner : At NoDigit Integral print entry.2) :
    At NoDigit (fun other : String × Value => other.2.Integral) printEntry entry := by
  intro other rest rest' integral ends ends' same
  rw [printEntry, printEntry, List.append_assoc, List.append_assoc] at same
  obtain ⟨keys, remaining⟩ := string_at entry.1 other.1 _ _ trivial trivial trivial same
  obtain ⟨values, final⟩ := inner other.2 rest rest' integral ends ends'
    (List.cons.inj remaining).2
  exact ⟨Prod.ext keys values, final⟩

theorem printEntry_unclosed : Unclosed '\x7d' (fun entry : String × Value => entry.2.Integral)
    printEntry := by
  intro entry _
  exact ⟨'"', _, by rw [printEntry, writeCanonicalString_eq, List.cons_append], by decide⟩

theorem print_array (items : List Value) :
    (Value.array items).print = '[' :: block ',' ']' print items := by
  rw [print, List.cons_append, commaSeparated_eq]

theorem print_object (entries : List (String × Value)) :
    (Value.object entries).print = '\x7b' :: block ',' '\x7d' printEntry entries := by
  rw [← commaSeparated_eq, print]
  rfl

/-- The text of a value without floats tells the value, and where it ends. -/
theorem print_at {value : Value} (integral : value.Integral) :
    At NoDigit Integral print value := by
  induction value using Value.induction_on with
  | null =>
    intro other rest rest' integral' _ _ same
    have kinds := kind_eq integral integral' same
    cases other with
    | null => exact ⟨rfl, List.append_cancel_left same⟩
    | _ => simp [kind] at kinds
  | bool value =>
    intro other rest rest' integral' _ _ same
    have kinds := kind_eq integral integral' same
    cases other with
    | bool other => cases value <;> cases other <;> simp_all [print]
    | _ => simp [kind] at kinds
  | string text =>
    intro other rest rest' integral' _ _ same
    have kinds := kind_eq integral integral' same
    cases other with
    | string other =>
      rw [print, print] at same
      obtain ⟨rfl, final⟩ := string_at text other rest rest' trivial trivial trivial same
      exact ⟨rfl, final⟩
    | _ => simp [kind] at kinds
  | number kept =>
    intro other rest rest' integral' ends ends' same
    have kinds := kind_eq integral integral' same
    cases other with
    | number other =>
      simp only [Integral] at integral integral'
      rw [print, print] at same
      obtain ⟨rfl, final⟩ := number_at integral other rest rest' integral' ends ends' same
      exact ⟨rfl, final⟩
    | _ => simp [kind] at kinds
  | array items ih =>
    intro other rest rest' integral' _ _ same
    have kinds := kind_eq integral integral' same
    cases other with
    | array others =>
      simp only [Integral] at integral integral'
      rw [print_array, print_array] at same
      obtain ⟨rfl, final⟩ := block_at (print_unclosed rfl) (by decide)
        (noDigit_tail rfl print) integral (fun item member => ih item member (integral item member))
        others rest rest' integral' trivial trivial (List.cons.inj same).2
      exact ⟨rfl, final⟩
    | _ => simp [kind] at kinds
  | object entries ih =>
    intro other rest rest' integral' _ _ same
    have kinds := kind_eq integral integral' same
    cases other with
    | object others =>
      simp only [Integral] at integral integral'
      rw [print_object, print_object] at same
      obtain ⟨rfl, final⟩ := block_at printEntry_unclosed (by decide)
        (noDigit_tail rfl printEntry) integral
        (fun entry member => printEntry_at (ih entry member (integral entry member)))
        others rest rest' integral' trivial trivial (List.cons.inj same).2
      exact ⟨rfl, final⟩
    | _ => simp [kind] at kinds

end Printing

end Value

end BetterParsec
