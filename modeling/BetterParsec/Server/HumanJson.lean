import Mathlib

set_option autoImplicit false
set_option linter.all false

/-!
# Human JSON

`preprocess_human_json` of `src/src/human_json.rs`, a scanner that blanks comments
and trailing commas.  What `peek` has read ahead and what `iter` still holds are one
list, so that peeking N characters succeeds exactly if the list has as many.
-/

namespace BetterParsec

namespace HumanJson

inductive CommentState where
  | none
  | singleLine
  | multiLine
  deriving DecidableEq

structure JsonPreprocessor where
  newString : List Char
  rest : List Char
  deriving DecidableEq

def isBreak (c : Char) : Bool := c = '\n' || c = '\r'

def validateEmpty : CommentState → List Char → List Char → JsonPreprocessor
  | .none, new, first :: second :: rest =>
    if first = '#' then validateEmpty .singleLine (new ++ [' ']) (second :: rest)
    else if first = '/' ∧ second = '/' then validateEmpty .singleLine (new ++ [' ', ' ']) rest
    else if first = '/' ∧ second = '*' then validateEmpty .multiLine (new ++ [' ', ' ']) rest
    else if first = ' ' ∨ isBreak first then validateEmpty .none (new ++ [first]) (second :: rest)
    else ⟨new, first :: second :: rest⟩
  | .none, new, rest => ⟨new, rest⟩
  | .singleLine, new, first :: rest =>
    if isBreak first then validateEmpty .none (new ++ [first]) rest
    else validateEmpty .singleLine (new ++ [' ']) rest
  | .singleLine, new, [] => ⟨new, []⟩
  | .multiLine, new, first :: second :: rest =>
    if first = '*' ∧ second = '/' then validateEmpty .none (new ++ [' ', ' ']) rest
    else if isBreak first then validateEmpty .multiLine (new ++ [first]) (second :: rest)
    else validateEmpty .multiLine (new ++ [' ']) (second :: rest)
  -- The end of the text is a plain character again.
  | .multiLine, new, rest => ⟨new, rest⟩

-- The loop behind an opening quote; the answer is whether to continue.
def validateString : Bool → List Char → List Char → Bool × JsonPreprocessor
  | _, new, [] => (false, ⟨new, []⟩)
  | escaped, new, first :: rest =>
    if !escaped && first = '"' then (true, ⟨new ++ [first], rest⟩)
    else validateString (!escaped && first = '\\') (new ++ [first]) rest

def closesAt (rest : List Char) : Bool := rest.head?.any fun c => c = '}' || c = ']'

def validateNext (preprocessor : JsonPreprocessor) : Bool × JsonPreprocessor :=
  let preprocessor := validateEmpty .none preprocessor.newString preprocessor.rest
  match preprocessor.rest with
  | [] => (false, preprocessor)
  | first :: rest =>
    if first = '"' then validateString false (preprocessor.newString ++ [first]) rest
    else if first = ',' then
      let maybeCommaIndex := preprocessor.newString.length
      let removed := validateEmpty .none (preprocessor.newString ++ [' ']) rest
      if removed.rest = [] then (false, removed)
      else if closesAt removed.rest then (true, removed)
      -- The index counts bytes in the source; it is the one of the space either way.
      else (true, { removed with newString := removed.newString.set maybeCommaIndex ',' })
    else (true, ⟨preprocessor.newString ++ [first], rest⟩)

def preprocess : Nat → JsonPreprocessor → JsonPreprocessor
  | 0, preprocessor => preprocessor
  | fuel + 1, preprocessor =>
    match validateNext preprocessor with
    | (true, next) => preprocess fuel next
    | (false, last) => last

-- Every round takes a character, so that one more round than characters is enough.
def preprocessHumanJson (json : List Char) : List Char :=
  (preprocess (json.length + 1) ⟨[], json⟩).newString

example : preprocessHumanJson "[1,2, // two\n]".toList = "[1,2        \n]".toList := by
  decide +kernel

section Cleaning

inductive Mode where
  | code
  | line
  | block
  | text (escaped : Bool)
  deriving DecidableEq

def CommentState.mode : CommentState → Mode
  | .none => .code
  | .singleLine => .line
  | .multiLine => .block

def blank (c : Char) : Char := if isBreak c then c else ' '

-- What the scanner leaves of a comma before `rest`.
def closes (rest : List Char) : Bool :=
  let left := (validateEmpty .none [] rest).rest
  left = [] || closesAt left

def cleanComma (rest : List Char) : Char := if closes rest then ' ' else ','

-- The last character of a text is never a comment.
def cleanLast (c : Char) : Char := if c = ',' then ' ' else c

-- The scanner without its rounds: what it makes of a text, character by character.
def clean : Mode → List Char → List Char
  | _, [] => []
  | .code, [last] => [cleanLast last]
  | .code, first :: second :: rest =>
    if first = '#' then ' ' :: clean .line (second :: rest)
    else if first = '/' ∧ second = '/' then ' ' :: ' ' :: clean .line rest
    else if first = '/' ∧ second = '*' then ' ' :: ' ' :: clean .block rest
    else if first = '"' then first :: clean (.text false) (second :: rest)
    else if first = ',' then cleanComma (second :: rest) :: clean .code (second :: rest)
    else first :: clean .code (second :: rest)
  | .line, first :: rest =>
    if isBreak first then first :: clean .code rest else ' ' :: clean .line rest
  | .block, [last] => [cleanLast last]
  | .block, first :: second :: rest =>
    if first = '*' ∧ second = '/' then ' ' :: ' ' :: clean .code rest
    else blank first :: clean .block (second :: rest)
  | .text escaped, first :: rest =>
    if !escaped && first = '"' then first :: clean .code rest
    else first :: clean (.text (!escaped && first = '\\')) rest

theorem validateEmpty_append (state : CommentState) (before new rest : List Char) :
    validateEmpty state (before ++ new) rest =
      ⟨before ++ (validateEmpty state new rest).newString, (validateEmpty state new rest).rest⟩ := by
  fun_induction validateEmpty state new rest with
  | case1 new second rest ih => rw [validateEmpty, if_pos rfl, List.append_assoc, ih]
  | case2 new first second rest hash slashes ih =>
    rw [validateEmpty, if_neg hash, if_pos slashes, List.append_assoc, ih]
  | case3 new first second rest hash slashes star ih =>
    rw [validateEmpty, if_neg hash, if_neg slashes, if_pos star, List.append_assoc, ih]
  | case4 new first second rest hash slashes star space ih =>
    rw [validateEmpty, if_neg hash, if_neg slashes, if_neg star, if_pos space, List.append_assoc, ih]
  | case5 new first second rest hash slashes star space =>
    rw [validateEmpty, if_neg hash, if_neg slashes, if_neg star, if_neg space]
  | case6 new rest short =>
    rw [validateEmpty]
    exact short
  | case7 new first rest breaks ih =>
    rw [← ih, ← List.append_assoc]
    exact if_pos breaks
  | case8 new first rest breaks ih => rw [validateEmpty, if_neg breaks, List.append_assoc, ih]
  | case9 new => rw [validateEmpty]
  | case10 new first second rest ends ih =>
    rw [← ih, ← List.append_assoc]
    exact if_pos ends
  | case11 new first second rest ends breaks ih =>
    rw [validateEmpty, if_neg ends, if_pos breaks, List.append_assoc, ih]
  | case12 new first second rest ends breaks ih =>
    rw [validateEmpty, if_neg ends, if_neg breaks, List.append_assoc, ih]
  | case13 new rest short =>
    rw [validateEmpty]
    exact short

theorem validateEmpty_shorter (state : CommentState) (new rest : List Char) :
    (validateEmpty state new rest).rest.length ≤ rest.length := by
  fun_induction validateEmpty state new rest with
  | case1 new second rest ih | case4 new first second rest hash slashes star space ih
  | case7 new first rest breaks ih | case8 new first rest breaks ih
  | case11 new first second rest ends breaks ih | case12 new first second rest ends breaks ih =>
    exact Nat.le_succ_of_le ih
  | case2 new first second rest hash slashes ih | case3 new first second rest hash slashes star ih
  | case10 new first second rest ends ih => exact Nat.le_succ_of_le (Nat.le_succ_of_le ih)
  | case5 | case6 | case9 | case13 => exact le_rfl

-- Blanks and comments come out as they come out of the scanner without rounds.
theorem clean_validateEmpty (state : CommentState) (new rest : List Char) :
    new ++ clean state.mode rest =
      (validateEmpty state new rest).newString ++ clean .code (validateEmpty state new rest).rest := by
  fun_induction validateEmpty state new rest with
  | case1 new second rest ih => 
    rw [← ih, CommentState.mode, CommentState.mode]
    simp [clean]
  | case2 new first second rest hash slashes ih =>
    rw [← ih, CommentState.mode, CommentState.mode, clean, if_neg hash, if_pos slashes]
    simp
  | case3 new first second rest hash slashes star ih =>
    rw [← ih, CommentState.mode, CommentState.mode, clean, if_neg hash, if_neg slashes, if_pos star]
    simp
  | case4 new first second rest hash slashes star space ih =>
    have plain : first ≠ '"' ∧ first ≠ ',' := by
      rcases space with rfl | breaks
      · decide
      · constructor <;> (rintro rfl; revert breaks; decide)
    rw [← ih, CommentState.mode, clean, if_neg hash, if_neg slashes, if_neg star, if_neg plain.1,
      if_neg plain.2]
    simp
  | case5 new first second rest hash slashes star space => rfl
  | case6 new rest short => rfl
  | case7 new first rest breaks ih =>
    rw [← ih, CommentState.mode, CommentState.mode, clean, if_pos breaks]
    simp
  | case8 new first rest breaks ih =>
    rw [← ih, CommentState.mode, clean, if_neg breaks]
    simp
  | case9 new => rfl
  | case10 new first second rest ends ih =>
    rw [← ih, CommentState.mode, CommentState.mode, clean, if_pos ends]
    simp
  | case11 new first second rest inside breaks ih =>
    rw [← ih, CommentState.mode, clean, if_neg inside, blank, if_pos breaks]
    simp
  | case12 new first second rest inside breaks ih =>
    rw [← ih, CommentState.mode, clean, if_neg inside, blank, if_neg breaks]
    simp
  | case13 new rest short =>
    cases rest with
    | nil => rfl
    | cons last rest =>
      cases rest with
      | nil => rfl
      | cons second rest => exact absurd rfl (short last second rest)

-- Where blanks and comments end.
structure Stuck (first : Char) (rest : List Char) : Prop where
  hash : rest ≠ [] → first ≠ '#'
  slash : first = '/' → rest.head? ≠ some '/' ∧ rest.head? ≠ some '*'

theorem stuck_validateEmpty {state : CommentState} {new rest after : List Char} {first : Char}
    (left : (validateEmpty state new rest).rest = first :: after) : Stuck first after := by
  fun_induction validateEmpty state new rest with
  | case5 new one second rest hash slashes star space =>
    obtain ⟨rfl, rfl⟩ := List.cons.inj left
    exact ⟨fun _ => hash, fun same => ⟨fun next => slashes ⟨same, by simpa using next⟩,
      fun next => star ⟨same, by simpa using next⟩⟩⟩
  | case6 new rest short =>
    cases rest with
    | nil => simp at left
    | cons one rest =>
      cases rest with
      | nil =>
        obtain ⟨rfl, rfl⟩ := List.cons.inj left
        exact ⟨fun some => absurd rfl some, fun _ => by simp⟩
      | cons second rest => exact absurd rfl (short one second rest)
  | case13 new rest short =>
    cases rest with
    | nil => simp at left
    | cons one rest =>
      cases rest with
      | nil =>
        obtain ⟨rfl, rfl⟩ := List.cons.inj left
        exact ⟨fun some => absurd rfl some, fun _ => by simp⟩
      | cons second rest => exact absurd rfl (short one second rest)
  | case9 new => simp at left
  | _ => simp_all

-- What becomes of a character that is neither blank nor a comment.
def cleanPlain (first : Char) (rest : List Char) : List Char :=
  if first = '"' then first :: clean (.text false) rest
  else if first = ',' then cleanComma rest :: clean .code rest
  else first :: clean .code rest

theorem clean_stuck {first : Char} {rest : List Char} (stuck : Stuck first rest) :
    clean .code (first :: rest) = cleanPlain first rest := by
  cases rest with
  | nil =>
    simp only [cleanPlain, clean, cleanLast]
    split_ifs with comma quote
    · simp [comma] at quote
    · rfl
    · rfl
    · rfl
  | cons second rest =>
    obtain ⟨hash, slash⟩ := stuck
    rw [clean, if_neg (hash (by simp)), if_neg fun both => (slash both.1).1 (by simp [both.2]),
      if_neg fun both => (slash both.1).2 (by simp [both.2])]
    rfl

theorem validateString_clean (escaped : Bool) (new rest : List Char) :
    (validateString escaped new rest).2.newString ++
        clean .code (validateString escaped new rest).2.rest =
      new ++ clean (.text escaped) rest := by
  fun_induction validateString escaped new rest with
  | case1 => simp [clean]
  | case2 escaped new first rest ends =>
    rw [clean, if_pos ends]
    simp
  | case3 escaped new first rest inside ih =>
    rw [ih, clean, if_neg inside]
    simp

theorem validateString_shorter (escaped : Bool) (new rest : List Char) :
    (validateString escaped new rest).2.rest.length ≤ rest.length := by
  fun_induction validateString escaped new rest with
  | case1 => exact Nat.le_refl _
  | case2 => simp
  | case3 escaped new first rest inside ih => exact Nat.le_succ_of_le ih

theorem validateString_stops {escaped : Bool} {new rest : List Char}
    (stops : (validateString escaped new rest).1 = false) :
    (validateString escaped new rest).2.rest = [] := by
  fun_induction validateString escaped new rest <;> simp_all

-- One round: nothing is lost, and the scanner stops only where nothing is left.
structure Round (before : JsonPreprocessor) (round : Bool × JsonPreprocessor) : Prop where
  same : round.2.newString ++ clean .code round.2.rest =
    before.newString ++ clean .code before.rest
  shorter : round.1 = true → round.2.rest.length < before.rest.length
  stops : round.1 = false → round.2.rest = []

theorem Round.after {before middle : JsonPreprocessor} {round : Bool × JsonPreprocessor}
    (rest : Round middle round) (shorter : middle.rest.length ≤ before.rest.length)
    (same : before.newString ++ clean .code before.rest =
      middle.newString ++ clean .code middle.rest) : Round before round :=
  ⟨rest.same.trans same.symm, fun goes => Nat.lt_of_lt_of_le (rest.shorter goes) shorter, rest.stops⟩

theorem round_comma (new rest : List Char) :
    Round ⟨new, ',' :: rest⟩
      (let removed := validateEmpty .none (new ++ [' ']) rest
      if removed.rest = [] then (false, removed)
      else if closesAt removed.rest then (true, removed)
      else (true, { removed with newString := removed.newString.set new.length ',' })) := by
  have appended := validateEmpty_append .none (new ++ [' ']) [] rest
  rw [List.append_nil] at appended
  have same := clean_validateEmpty .none [] rest
  have shorter := validateEmpty_shorter .none [] rest
  have plain := @clean_stuck ',' rest ⟨fun _ => by decide, fun no => by simp at no⟩
  rw [cleanPlain, if_neg (by decide), if_pos rfl, cleanComma, closes] at plain
  rw [appended]
  generalize validateEmpty .none [] rest = left at same shorter plain
  obtain ⟨leftNew, leftRest⟩ := left
  simp only [List.nil_append, CommentState.mode] at same
  simp only
  split_ifs with ends bracket
  · refine ⟨?_, fun goes => (nomatch goes), fun _ => ends⟩
    simp [plain, same, ends]
  · refine ⟨?_, fun _ => Nat.lt_succ_of_le shorter, fun stops => (nomatch stops)⟩
    simp [plain, same, bracket]
  · refine ⟨?_, fun _ => Nat.lt_succ_of_le shorter, fun stops => (nomatch stops)⟩
    simp [plain, same, bracket, ends]

theorem round_validateNext (before : JsonPreprocessor) : Round before (validateNext before) := by
  obtain ⟨new, rest⟩ := before
  have same := clean_validateEmpty .none new rest
  have shorter := validateEmpty_shorter .none new rest
  rw [validateNext]
  cases empty : validateEmpty .none new rest with
  | mk skippedNew skippedRest =>
    rw [empty] at same shorter
    cases skippedRest with
    | nil => exact ⟨same.symm, fun goes => (nomatch goes), fun _ => rfl⟩
    | cons first after =>
      have stuck : Stuck first after := stuck_validateEmpty (congrArg JsonPreprocessor.rest empty)
      have plain := clean_stuck stuck
      refine @Round.after _ ⟨skippedNew, first :: after⟩ _ ?_ shorter same
      simp only
      by_cases quote : first = '"'
      · rw [if_pos quote]
        refine ⟨?_, fun _ => ?_, validateString_stops⟩
        · rw [validateString_clean, plain]
          simp [cleanPlain, quote]
        · exact Nat.lt_succ_of_le (validateString_shorter _ _ _)
      rw [if_neg quote]
      by_cases comma : first = ','
      · rw [if_pos comma, comma]
        exact round_comma skippedNew after
      · rw [if_neg comma]
        refine ⟨?_, fun _ => Nat.lt_succ_self _, fun stops => (nomatch stops)⟩
        simp [plain, cleanPlain, quote, comma]

theorem preprocess_clean (fuel : Nat) (before : JsonPreprocessor)
    (enough : before.rest.length < fuel) :
    (preprocess fuel before).newString = before.newString ++ clean .code before.rest := by
  induction fuel generalizing before with
  | zero => omega
  | succ fuel ih =>
    have round := round_validateNext before
    rw [preprocess]
    cases found : validateNext before with
    | mk goes after =>
      rw [found] at round
      cases goes with
      | false =>
        rw [← round.same, round.stops rfl]
        simp [clean]
      | true =>
        have less : after.rest.length < before.rest.length := round.shorter rfl
        simp only
        rw [ih after (by omega), ← round.same]

theorem preprocessHumanJson_clean (json : List Char) :
    preprocessHumanJson json = clean .code json := by
  exact preprocess_clean (json.length + 1) ⟨[], json⟩ (Nat.lt_succ_self _)

-- A character stays or is blanked; line breaks stay.
def Kept (before after : Char) : Prop := after = before ∨ after = ' ' ∧ isBreak before = false

theorem kept_cleanLast (c : Char) : Kept c (cleanLast c) := by
  unfold cleanLast
  split_ifs with comma
  · exact .inr ⟨rfl, by rw [comma]; rfl⟩
  · exact .inl rfl

theorem clean_kept (mode : Mode) (text : List Char) : List.Forall₂ Kept text (clean mode text) := by
  have blanked (c : Char) (plain : isBreak c = false) : Kept c ' ' := .inr ⟨rfl, plain⟩
  fun_induction clean mode text with
  | case1 => exact .nil
  | case2 last => exact .cons (kept_cleanLast last) .nil
  | case3 second rest ih => exact .cons (blanked _ rfl) ih
  | case4 first second rest hash slashes ih =>
    obtain ⟨rfl, rfl⟩ := slashes
    exact .cons (blanked _ rfl) (.cons (blanked _ rfl) ih)
  | case5 first second rest hash slashes star ih =>
    obtain ⟨rfl, rfl⟩ := star
    exact .cons (blanked _ rfl) (.cons (blanked _ rfl) ih)
  | case6 second rest hash slashes star ih => exact .cons (.inl rfl) ih
  | case7 second rest hash slashes star quote ih =>
    refine .cons ?_ ih
    unfold cleanComma
    split_ifs
    · exact blanked _ rfl
    · exact .inl rfl
  | case8 first second rest hash slashes star quote comma ih => exact .cons (.inl rfl) ih
  | case9 first rest breaks ih => exact .cons (.inl rfl) ih
  | case10 first rest breaks ih => exact .cons (blanked _ (by simpa using breaks)) ih
  | case11 last => exact .cons (kept_cleanLast last) .nil
  | case12 first second rest ends ih =>
    obtain ⟨rfl, rfl⟩ := ends
    exact .cons (blanked _ rfl) (.cons (blanked _ rfl) ih)
  | case13 first second rest inside ih =>
    refine .cons ?_ ih
    unfold blank
    split_ifs with breaks
    · exact .inl rfl
    · exact blanked _ (by simpa using breaks)
  | case14 escaped first rest ends ih => exact .cons (.inl rfl) ih
  | case15 escaped first rest inside ih => exact .cons (.inl rfl) ih

end Cleaning

section Literals

-- Where in a text one is: in code, behind a slash there, in a comment or in a string.
inductive Lexed where
  | code
  | slash
  | line
  | block
  | star
  | text (escaped : Bool)
  deriving DecidableEq

def lexCode (c : Char) : Lexed :=
  if c = '"' then .text false else if c = '#' then .line else if c = '/' then .slash else .code

def lexNext : Lexed → Char → Lexed
  | .code, c => lexCode c
  | .slash, c => if c = '/' then .line else if c = '*' then .block else lexCode c
  | .line, c => if isBreak c then .code else .line
  | .block, c => if c = '*' then .star else .block
  | .star, c => if c = '/' then .code else if c = '*' then .star else .block
  | .text escaped, c => if !escaped && c = '"' then .code else .text (!escaped && c = '\\')

def lexed (text : List Char) : Lexed := text.foldl lexNext .code

def Lexed.inCode (lexed : Lexed) : Bool := lexed = .code || lexed = .slash

-- What stands between the quotes of a literal.
inductive LiteralBody : List Char → Prop where
  | nil : LiteralBody []
  | plain {c : Char} {rest : List Char} (quote : c ≠ '"') (slash : c ≠ '\\')
      (body : LiteralBody rest) : LiteralBody (c :: rest)
  | escape (c : Char) {rest : List Char} (body : LiteralBody rest) : LiteralBody ('\\' :: c :: rest)

def Literal (text : List Char) : Prop := ∃ body, LiteralBody body ∧ text = '"' :: (body ++ ['"'])

def Mode.lexed : Mode → Lexed
  | .code => .code
  | .line => .line
  | .block => .block
  | .text escaped => .text escaped

theorem clean_body {body : List Char} (literal : LiteralBody body) (back : List Char) :
    clean (.text false) (body ++ '"' :: back) = body ++ '"' :: clean .code back := by
  induction literal with
  | nil => simp [clean]
  | plain quote slash _ ih => simp [clean, quote, slash, ih]
  | escape c _ ih => simp [clean, ih]

theorem clean_literal {literal : List Char} (isLiteral : Literal literal) (back : List Char) :
    clean .code (literal ++ back) = literal ++ clean .code back := by
  obtain ⟨body, isBody, rfl⟩ := isLiteral
  have plain := @clean_stuck '"' (body ++ '"' :: back)
    ⟨fun _ => by decide, fun no => by simp at no⟩
  rw [cleanPlain, if_pos rfl, clean_body isBody] at plain
  simpa using plain

theorem clean_hash {rest : List Char} (more : rest ≠ []) :
    clean .code ('#' :: rest) = ' ' :: clean .line rest := by
  cases rest with
  | nil => exact absurd rfl more
  | cons second rest => rw [clean, if_pos rfl]

theorem clean_slashes (rest : List Char) :
    clean .code ('/' :: '/' :: rest) = ' ' :: ' ' :: clean .line rest := by
  rw [clean, if_neg (by decide), if_pos ⟨rfl, rfl⟩]

theorem clean_star (rest : List Char) :
    clean .code ('/' :: '*' :: rest) = ' ' :: ' ' :: clean .block rest := by
  rw [clean, if_neg (by decide), if_neg (by decide), if_pos ⟨rfl, rfl⟩]

theorem clean_inside {first : Char} {rest : List Char} (more : rest ≠ [])
    (inside : first = '*' → rest.head? ≠ some '/') :
    clean .block (first :: rest) = blank first :: clean .block rest := by
  cases rest with
  | nil => exact absurd rfl more
  | cons second rest =>
    rw [clean, if_neg]
    rintro ⟨same, ends⟩
    exact inside same (by rw [ends]; rfl)

-- A slash or a star that starts and ends nothing was a character like any other.
theorem lexed_slash {front : List Char} (slash : front.head? ≠ some '/')
    (star : front.head? ≠ some '*') (inCode : (front.foldl lexNext .slash).inCode = true) :
    (front.foldl lexNext .code).inCode = true := by
  cases front with
  | nil => rfl
  | cons c front =>
    have same : lexNext .slash c = lexNext .code c := by
      simp only [lexNext]
      rw [if_neg (by simpa using slash), if_neg (by simpa using star)]
    rw [List.foldl_cons, same] at inCode
    exact inCode

theorem lexed_star {front : List Char} (slash : front.head? ≠ some '/')
    (inCode : (front.foldl lexNext .star).inCode = true) :
    (front.foldl lexNext .block).inCode = true := by
  cases front with
  | nil => exact absurd inCode (by decide)
  | cons c front =>
    have same : lexNext .star c = lexNext .block c := by
      simp only [lexNext]
      rw [if_neg (by simpa using slash)]
    rw [List.foldl_cons, same] at inCode
    exact inCode

theorem head_append_ne {front back : List Char} {c other : Char} (quoted : back.head? = some c)
    (different : c ≠ other) (unlike : front.head? ≠ some other) :
    (front ++ back).head? ≠ some other := by
  cases front with
  | nil => simpa [quoted] using different
  | cons first front => exact unlike

-- The scanner is in the mode that the text before says.
theorem clean_front (mode : Mode) (front back : List Char) (quoted : back.head? = some '"')
    (inCode : (front.foldl lexNext mode.lexed).inCode = true) :
    ∃ out, out.length = front.length ∧ clean mode (front ++ back) = out ++ clean .code back := by
  have long : back ≠ [] := by
    rintro rfl
    simp at quoted
  induction length : front.length using Nat.strong_induction_on generalizing mode front with
  | _ count ih =>
  subst length
  have more (front : List Char) : front ++ back ≠ [] := by simp [long]
  cases front with
  | nil =>
    cases mode with
    | code => exact ⟨[], rfl, rfl⟩
    | line | block | text escaped => simp [Mode.lexed, Lexed.inCode] at inCode
  | cons first front =>
    have next (mode : Mode) (c : Char)
        (inCode : (front.foldl lexNext mode.lexed).inCode = true) :
        ∃ out, out.length = (first :: front).length ∧
          c :: clean mode (front ++ back) = out ++ clean .code back := by
      obtain ⟨out, length, same⟩ := ih front.length (by simp) mode front inCode rfl
      exact ⟨c :: out, by simp [length], by simp [same]⟩
    rw [List.foldl_cons] at inCode
    cases mode with
    | code =>
      by_cases hash : first = '#'
      · subst hash
        rw [List.cons_append, clean_hash (more front)]
        exact next .line ' ' inCode
      by_cases slashes : first = '/' ∧ front.head? = some '/'
      · obtain ⟨rfl, follows⟩ := slashes
        obtain ⟨front, rfl⟩ := List.head?_eq_some_iff.mp follows
        obtain ⟨out, length, same⟩ := ih front.length (by simp) .line front inCode rfl
        refine ⟨' ' :: ' ' :: out, by simp [length], ?_⟩
        rw [List.cons_append, List.cons_append, clean_slashes, same]
        rfl
      by_cases star : first = '/' ∧ front.head? = some '*'
      · obtain ⟨rfl, follows⟩ := star
        obtain ⟨front, rfl⟩ := List.head?_eq_some_iff.mp follows
        obtain ⟨out, length, same⟩ := ih front.length (by simp) .block front inCode rfl
        refine ⟨' ' :: ' ' :: out, by simp [length], ?_⟩
        rw [List.cons_append, List.cons_append, clean_star, same]
        rfl
      have stuck : Stuck first (front ++ back) := by
        refine ⟨fun _ => hash, fun same => ⟨?_, ?_⟩⟩
        · exact head_append_ne quoted (by decide) fun follows => slashes ⟨same, follows⟩
        · exact head_append_ne quoted (by decide) fun follows => star ⟨same, follows⟩
      rw [List.cons_append, clean_stuck stuck, cleanPlain]
      simp only [Mode.lexed, lexNext, lexCode, if_neg hash] at inCode
      by_cases quote : first = '"'
      · rw [if_pos quote] at inCode ⊢
        exact next (.text false) first inCode
      rw [if_neg quote] at inCode ⊢
      have code : (front.foldl lexNext .code).inCode = true := by
        split_ifs at inCode with slash
        · apply lexed_slash _ _ inCode
          · exact fun follows => slashes ⟨slash, follows⟩
          · exact fun follows => star ⟨slash, follows⟩
        · exact inCode
      split_ifs with comma
      · exact next .code _ code
      · exact next .code first code
    | line =>
      rw [List.cons_append, clean]
      simp only [Mode.lexed, lexNext] at inCode
      split_ifs at inCode ⊢ with breaks
      · exact next .code first inCode
      · exact next .line ' ' inCode
    | block =>
      by_cases ends : first = '*' ∧ front.head? = some '/'
      · obtain ⟨rfl, follows⟩ := ends
        obtain ⟨front, rfl⟩ := List.head?_eq_some_iff.mp follows
        obtain ⟨out, length, same⟩ := ih front.length (by simp) .code front inCode rfl
        refine ⟨' ' :: ' ' :: out, by simp [length], ?_⟩
        rw [List.cons_append, List.cons_append, clean, if_pos ⟨rfl, rfl⟩, same]
        rfl
      have inside (same : first = '*') : front.head? ≠ some '/' := fun follows => ends ⟨same, follows⟩
      rw [List.cons_append, clean_inside (more front) fun same =>
        head_append_ne quoted (by decide) (inside same)]
      apply next .block
      simp only [Mode.lexed, lexNext] at inCode ⊢
      split_ifs at inCode with same
      · exact lexed_star (inside same) inCode
      · exact inCode
    | text escaped =>
      rw [List.cons_append, clean]
      simp only [Mode.lexed, lexNext] at inCode
      split_ifs at inCode ⊢ with ends
      · exact next .code first inCode
      · exact next (.text _) first inCode

/-- A string literal in code comes out as it is, where it was. -/
theorem preprocess_literal {front literal : List Char} (back : List Char)
    (inCode : (lexed front).inCode = true) (isLiteral : Literal literal) :
    ∃ out more, preprocessHumanJson (front ++ literal ++ back) = out ++ literal ++ more ∧
      out.length = front.length := by
  have quoted : (literal ++ back).head? = some '"' := by
    obtain ⟨body, -, rfl⟩ := isLiteral
    rfl
  obtain ⟨out, length, same⟩ := clean_front .code front (literal ++ back) quoted inCode
  refine ⟨out, clean .code back, ?_, length⟩
  rw [preprocessHumanJson_clean, List.append_assoc, same, clean_literal isLiteral,
    ← List.append_assoc]

end Literals

end HumanJson

end BetterParsec
