import Mathlib

set_option autoImplicit false
set_option linter.all false

/-!
# Redacted logs

`redact` of `app-native/src/supervisor.rs`, on characters.  A line goes through a
pass for bearer tokens and then through a scanner that takes a key, a separator and
a value at a time.  The scanner is an automaton that reads one character after
another; what it is in the middle of says what becomes of the next one.
-/

namespace BetterParsec

namespace Redaction

-- `char::is_whitespace`.
def isWhitespace (c : Char) : Bool :=
  (9 ≤ c.val && c.val ≤ 13) || c.val = 0x20 || c.val = 0x85 || c.val = 0xA0 || c.val = 0x1680 ||
    (0x2000 ≤ c.val && c.val ≤ 0x200A) || c.val = 0x2028 || c.val = 0x2029 || c.val = 0x202F ||
    c.val = 0x205F || c.val = 0x3000

def isSeparator (c : Char) : Bool := c = '=' || c = ':'

def sensitiveKeys : List (List Char) :=
  ["password".toList, "passwd".toList, "token".toList, "secret".toList, "apikey".toList,
    "api_key".toList, "credential".toList, "cred".toList, "pkey".toList, "private_key".toList,
    "privatekey".toList, "authorization".toList, "auth".toList, "cookie".toList, "session".toList]

def trim (text : List Char) : List Char :=
  ((text.dropWhile isWhitespace).reverse.dropWhile isWhitespace).reverse

def isQuote (c : Char) : Bool := c = '-' || c = '"' || c = '\''

def keyIsSensitive (key : List Char) : Bool :=
  let key := ((trim key).dropWhile isQuote).map Char.toLower
  sensitiveKeys.any fun sensitive => sensitive.isSuffixOf key || key == sensitive

def redacted : List Char := "<redacted>".toList

-- What stands after the last whitespace.
def keyOf (beforeSep : List Char) : List Char :=
  (beforeSep.reverse.takeWhile (!isWhitespace ·)).reverse

-- `rfind` gives the first byte of the last whitespace, and the byte behind it is inside the
-- character if it has more than one.
def cutsCharacter (beforeSep : List Char) : Bool :=
  (beforeSep.reverse.find? isWhitespace).any fun c => c.utf8Size ≠ 1

-- The loop of `redact_line`; `none` is a panic of `split_at`.
def redactRest : Nat → List Char → List Char → Option (List Char)
  | 0, out, rest => some (out ++ rest)
  | fuel + 1, out, rest =>
    let beforeSep := rest.takeWhile (!isSeparator ·)
    match rest.dropWhile (!isSeparator ·) with
    | [] => some (out ++ rest)
    | sep :: afterSep =>
      if cutsCharacter beforeSep then none
      else
        let leadingWs := afterSep.takeWhile isWhitespace
        let afterWs := afterSep.dropWhile isWhitespace
        let value := afterWs.takeWhile (!isWhitespace ·)
        let valueRest := afterWs.dropWhile (!isWhitespace ·)
        let shown :=
          if keyIsSensitive (keyOf beforeSep) && !(trim value).isEmpty then redacted else value
        let out := out ++ beforeSep ++ [sep] ++ leadingWs ++ shown
        if valueRest = [] then some out else redactRest fuel out valueRest

def marker : List Char := "Bearer ".toList

-- The text up to the end of the first marker, and the text behind it.
def splitMarker : List Char → Option (List Char × List Char)
  | [] => none
  | c :: rest =>
    if marker.isPrefixOf (c :: rest) then some (marker, (c :: rest).drop marker.length)
    else (splitMarker rest).map fun found => (c :: found.1, found.2)

def redactBearer (line : List Char) : List Char :=
  match splitMarker line with
  | none => line
  | some (front, after) => front ++ redacted ++ after.dropWhile (!isWhitespace ·)

def redactLine (line : List Char) : Option (List Char) :=
  let line := redactBearer line
  redactRest (line.length + 1) [] line

def stripReturn (line : List Char) : List Char :=
  if line.getLast? = some '\r' then line.dropLast else line

-- `str::lines`: a line feed ends a line, with the carriage return before it.
def linesFrom : List Char → List Char → List (List Char)
  | current, [] => if current = [] then [] else [current]
  | current, c :: rest =>
    if c = '\n' then stripReturn current :: linesFrom [] rest else linesFrom (current ++ [c]) rest

def lines (text : List Char) : List (List Char) := linesFrom [] text

def redact (input : List Char) : Option (List Char) :=
  ((lines input).mapM redactLine).map (List.intercalate ['\n'])

example : redact "user=ann token: abc\nok".toList =
    some "user=ann token: <redacted>\nok".toList := by
  decide +kernel

section Scanner

-- Before a separator, with what was read since the last value; behind one; or in its value.
inductive Scan where
  | free (beforeSep : List Char)
  | awaiting (sensitive : Bool)
  | inside (sensitive : Bool)
  deriving DecidableEq

namespace Scan

def next : Scan → Char → Option (Scan × List Char)
  | .free beforeSep, c =>
    if isSeparator c then
      if cutsCharacter beforeSep then none
      else some (.awaiting (keyIsSensitive (keyOf beforeSep)), [c])
    else some (.free (beforeSep ++ [c]), [c])
  | .awaiting sensitive, c =>
    if isWhitespace c then some (.awaiting sensitive, [c])
    else some (.inside sensitive, if sensitive then redacted else [c])
  | .inside sensitive, c =>
    if isWhitespace c then some (.free [c], [c])
    else some (.inside sensitive, if sensitive then [] else [c])

def run : Scan → List Char → Option (Scan × List Char)
  | scan, [] => some (scan, [])
  | scan, c :: rest =>
    (scan.next c).bind fun first =>
      (run first.1 rest).map fun later => (later.1, first.2 ++ later.2)

-- What is written.
def out (scan : Scan) (text : List Char) : Option (List Char) := (scan.run text).map Prod.snd

theorem run_append (scan : Scan) (front back : List Char) :
    scan.run (front ++ back) = (scan.run front).bind fun first =>
      (first.1.run back).map fun later => (later.1, first.2 ++ later.2) := by
  induction front generalizing scan with
  | nil =>
    rw [List.nil_append, run, Option.bind_some]
    cases scan.run back <;> rfl
  | cons c front ih =>
    rw [List.cons_append, run, run]
    cases scan.next c with
    | none => rfl
    | some first =>
      simp only [Option.bind_some, ih]
      cases first.1.run front with
      | none => rfl
      | some middle =>
        simp only [Option.bind_some, Option.map_some, Option.map_map]
        cases middle.1.run back with
        | none => rfl
        | some later => simp

theorem out_append {scan middle : Scan} {front back written : List Char}
    (ran : scan.run front = some (middle, written)) :
    scan.out (front ++ back) = (middle.out back).map (written ++ ·) := by
  rw [out, out, run_append, ran, Option.bind_some, Option.map_map, Option.map_map]
  rfl

theorem run_free {text : List Char} (plain : ∀ c ∈ text, isSeparator c = false)
    (beforeSep : List Char) :
    (Scan.free beforeSep).run text = some (.free (beforeSep ++ text), text) := by
  induction text generalizing beforeSep with
  | nil => simp [run]
  | cons c text ih =>
    have other := plain c List.mem_cons_self
    simp [run, next, other, ih fun c member => plain c (List.mem_cons_of_mem _ member)]

theorem run_awaiting {text : List Char} (blank : ∀ c ∈ text, isWhitespace c = true)
    (sensitive : Bool) : (Scan.awaiting sensitive).run text = some (.awaiting sensitive, text) := by
  induction text with
  | nil => rfl
  | cons c text ih =>
    simp [run, next, blank c List.mem_cons_self,
      ih fun c member => blank c (List.mem_cons_of_mem _ member)]

theorem run_inside {text : List Char} (value : ∀ c ∈ text, isWhitespace c = false)
    (sensitive : Bool) :
    (Scan.inside sensitive).run text =
      some (.inside sensitive, if sensitive then [] else text) := by
  induction text with
  | nil => cases sensitive <;> rfl
  | cons c text ih =>
    cases sensitive <;>
      simp [run, next, value c List.mem_cons_self,
        ih fun c member => value c (List.mem_cons_of_mem _ member)]

theorem run_value {text : List Char} (value : ∀ c ∈ text, isWhitespace c = false)
    (some : text ≠ []) (sensitive : Bool) :
    (Scan.awaiting sensitive).run text =
      .some (.inside sensitive, if sensitive then redacted else text) := by
  cases text with
  | nil => exact absurd rfl some
  | cons c text =>
    have rest := run_inside (fun c member => value c (List.mem_cons_of_mem _ member)) sensitive
    cases sensitive <;> simp [run, next, value c List.mem_cons_self, rest]

theorem separator_plain {c : Char} (blank : isWhitespace c = true) : isSeparator c = false := by
  have equals : c ≠ '=' := fun same => absurd (same ▸ blank) (by decide)
  have colon : c ≠ ':' := fun same => absurd (same ▸ blank) (by decide)
  simp [isSeparator, equals, colon]

-- Whitespace ends a value, and the scanner starts afresh with it.
theorem out_inside {rest : List Char} (blank : ∀ c ∈ rest.head?, isWhitespace c = true)
    (sensitive : Bool) : (Scan.inside sensitive).out rest = (Scan.free []).out rest := by
  cases rest with
  | nil => rfl
  | cons c rest =>
    have blank := blank c rfl
    simp [out, run, next, blank, separator_plain blank]

end Scan

theorem trim_value {value : List Char} (inside : ∀ c ∈ value, isWhitespace c = false) :
    trim value = value := by
  have front : value.dropWhile isWhitespace = value := by
    cases value with
    | nil => rfl
    | cons c value => simp [inside c List.mem_cons_self]
  have back : value.reverse.dropWhile isWhitespace = value.reverse := by
    cases same : value.reverse with
    | nil => rfl
    | cons c rest =>
      have member : c ∈ value := List.mem_reverse.mp (same ▸ List.mem_cons_self)
      simp [inside c member]
  rw [trim, front, back, List.reverse_reverse]

theorem out_separator {sep : Char} (isSep : isSeparator sep = true) (beforeSep afterSep : List Char) :
    (Scan.free beforeSep).out (sep :: afterSep) =
      if cutsCharacter beforeSep then none
      else ((Scan.awaiting (keyIsSensitive (keyOf beforeSep))).out afterSep).map (sep :: ·) := by
  rw [Scan.out, Scan.run, Scan.next, if_pos isSep]
  split_ifs
  · rfl
  · simp [Scan.out, Function.comp_def]

-- Behind a separator: the whitespace, the value, and the rest that the value leaves.
theorem out_awaiting (sensitive : Bool) (afterSep : List Char) :
    let leadingWs := afterSep.takeWhile isWhitespace
    let afterWs := afterSep.dropWhile isWhitespace
    let value := afterWs.takeWhile (!isWhitespace ·)
    let valueRest := afterWs.dropWhile (!isWhitespace ·)
    (Scan.awaiting sensitive).out afterSep = ((Scan.free []).out valueRest).map
      (leadingWs ++ (if sensitive && !(trim value).isEmpty then redacted else value) ++ ·) := by
  intro leadingWs afterWs value valueRest
  have blank : ∀ c ∈ leadingWs, isWhitespace c = true := fun c member =>
    List.mem_takeWhile_imp member
  have inside : ∀ c ∈ value, isWhitespace c = false := fun c member => by
    simpa using List.mem_takeWhile_imp member
  have split : afterSep = leadingWs ++ (value ++ valueRest) := by
    rw [List.takeWhile_append_dropWhile, List.takeWhile_append_dropWhile]
  rw [trim_value inside, split, Scan.out_append (Scan.run_awaiting blank sensitive)]
  have ends : ∀ c ∈ valueRest.head?, isWhitespace c = true := fun c first => by
    have last := List.head?_dropWhile_not (!isWhitespace ·) afterWs
    rw [Option.mem_def.mp first] at last
    simpa using last
  by_cases empty : value = []
  · -- Where no value stands the line is over.
    have finished : afterWs = [] := by
      cases found : afterWs with
      | nil => rfl
      | cons c more =>
        have first := List.head?_dropWhile_not isWhitespace afterSep
        have blanks : afterSep.dropWhile isWhitespace = c :: more := found
        rw [blanks] at first
        have starts : isWhitespace c = false := by simpa using first
        have value : afterWs.takeWhile (!isWhitespace ·) = [] := empty
        simp [found, starts] at value
    have rest : valueRest = [] := by
      have drops : valueRest = afterWs.dropWhile (!isWhitespace ·) := rfl
      rw [drops, finished]
      rfl
    rw [empty, rest]
    simp [Scan.out, Scan.run]
  · have more : value.isEmpty = false := by simpa using empty
    rw [Scan.out_append (Scan.run_value inside empty sensitive), Scan.out_inside ends, more,
      Option.map_map]
    simp [Function.comp_def]

-- One round of the loop is what the scanner writes for its characters.
theorem redactRest_scan (fuel : Nat) (out rest : List Char) (enough : rest.length < fuel) :
    redactRest fuel out rest = ((Scan.free []).out rest).map (out ++ ·) := by
  induction fuel generalizing out rest with
  | zero => omega
  | succ fuel ih =>
    have split := List.takeWhile_append_dropWhile (p := (!isSeparator ·)) (l := rest)
    have plain : ∀ c ∈ rest.takeWhile (!isSeparator ·), isSeparator c = false :=
      fun c member => by simpa using List.mem_takeWhile_imp member
    rw [redactRest]
    cases found : rest.dropWhile (!isSeparator ·) with
    | nil =>
      rw [found, List.append_nil] at split
      rw [split] at plain
      simp [Scan.out, Scan.run_free plain]
    | cons sep afterSep =>
      have isSep : isSeparator sep = true := by
        have last := List.head_dropWhile_not (!isSeparator ·) (l := rest) (by simp [found])
        simpa [found] using last
      have scanned := @Scan.out_append _ _ _ (sep :: afterSep) _ (Scan.run_free plain [])
      rw [← found, split, found, List.nil_append] at scanned
      have shorter : ((afterSep.dropWhile isWhitespace).dropWhile (!isWhitespace ·)).length ≤
          afterSep.length :=
        Nat.le_trans (List.dropWhile_suffix _).length_le (List.dropWhile_suffix _).length_le
      have longer : afterSep.length < rest.length := by
        rw [← split, found, List.length_append, List.length_cons]
        omega
      rw [scanned, out_separator isSep]
      cases cuts : cutsCharacter (rest.takeWhile (!isSeparator ·)) with
      | true => rfl
      | false =>
        simp only [Bool.false_eq_true, if_false]
        split
        next finished =>
          rw [out_awaiting, finished]
          simp [Scan.out, Scan.run]
        next =>
          rw [out_awaiting, ih _ _ (by omega)]
          simp [Function.comp_def]

theorem redactLine_scan (line : List Char) :
    redactLine line = (Scan.free []).out (redactBearer line) := by
  rw [redactLine, redactRest_scan _ _ _ (Nat.lt_succ_self _)]
  cases (Scan.free []).out (redactBearer line) <;> rfl

end Scanner

end Redaction

end BetterParsec
