import BetterParsec.Server.HumanJson

set_option autoImplicit false
set_option linter.all false

/-!
# JSON with comments and trailing commas

A layout of a JSON text: its tokens in their order, with blanks and comments between
them and with trailing commas.  The scanner blanks the comments and the trailing
commas of every layout but for two kinds: a tab between a trailing comma and its
bracket, and a lone `#` as the last character.
-/

namespace BetterParsec

namespace HumanJson

inductive Space where
  | blank
  | tab
  | newline
  | carriageReturn
  deriving DecidableEq

def Space.char : Space → Char
  | .blank => ' '
  | .tab => '\t'
  | .newline => '\n'
  | .carriageReturn => '\r'

structure LineText where
  chars : List Char
  oneLine : ∀ c ∈ chars, isBreak c = false

structure BlockText where
  chars : List Char
  unended : ¬['*', '/'] <:+: chars

inductive Comment where
  | hash (body : LineText)
  | slashes (body : LineText)
  | block (body : BlockText)

def Comment.text : Comment → List Char
  | .hash body => '#' :: body.chars
  | .slashes body => '/' :: '/' :: body.chars
  | .block body => '/' :: '*' :: (body.chars ++ ['*', '/'])

-- A number or a literal name; more than JSON has.
structure Word where
  chars : List Char
  plain : ∀ c ∈ chars, (c.isAlphanum || c = '+' || c = '-' || c = '.') = true
  nonempty : chars ≠ []

inductive Token where
  | openBrace
  | closeBrace
  | openBracket
  | closeBracket
  | colon
  | comma
  | word (word : Word)
  | string (literal : Subtype Literal)

namespace Token

def text : Token → List Char
  | .openBrace => ['{']
  | .closeBrace => ['}']
  | .openBracket => ['[']
  | .closeBracket => [']']
  | .colon => [':']
  | .comma => [',']
  | .word letters => letters.chars
  | .string literal => literal.val

def isClosing : Token → Bool
  | .closeBrace | .closeBracket => true
  | _ => false

def isComma : Token → Bool
  | .comma => true
  | _ => false

end Token

inductive Part where
  | value
  | items
  | members

-- The grammar of JSON over its tokens.
inductive Derives : Part → List Token → Prop where
  | word (word : Word) : Derives .value [.word word]
  | string (literal : Subtype Literal) : Derives .value [.string literal]
  | emptyArray : Derives .value [.openBracket, .closeBracket]
  | array {items : List Token} (derives : Derives .items items) :
      Derives .value (.openBracket :: items ++ [Token.closeBracket])
  | emptyObject : Derives .value [.openBrace, .closeBrace]
  | object {members : List Token} (derives : Derives .members members) :
      Derives .value (.openBrace :: members ++ [Token.closeBrace])
  | item {value : List Token} (derives : Derives .value value) : Derives .items value
  | items {value rest : List Token} (derives : Derives .value value)
      (more : Derives .items rest) : Derives .items (value ++ Token.comma :: rest)
  | member (key : Subtype Literal) {value : List Token} (derives : Derives .value value) :
      Derives .members (.string key :: .colon :: value)
  | members (key : Subtype Literal) {value rest : List Token} (derives : Derives .value value)
      (more : Derives .members rest) :
      Derives .members (.string key :: .colon :: value ++ Token.comma :: rest)

inductive Piece where
  | space (space : Space)
  | comment (comment : Comment)
  | token (token : Token)
  | trailing

namespace Piece

def text : Piece → List Char
  | .space kind => [kind.char]
  | .comment note => note.text
  | .token symbol => symbol.text
  | .trailing => [',']

-- What should be left of a piece.
def cleaned : Piece → List Char
  | .comment note => note.text.map blank
  | .trailing => [' ']
  | piece => piece.text

def isGap : Piece → Bool
  | .space _ | .comment _ => true
  | _ => false

def isTab : Piece → Bool
  | .space .tab => true
  | _ => false

-- Part of the JSON text itself.
def isJson : Piece → Bool
  | .space _ | .token _ => true
  | _ => false

def token? : Piece → Option Token
  | .token symbol => some symbol
  | _ => none

end Piece

def render (pieces : List Piece) : List Char := pieces.flatMap Piece.text

def cleaned (pieces : List Piece) : List Char := pieces.flatMap Piece.cleaned

-- The next piece that is no gap is a token of this kind.
def Next (kind : Token → Bool) (pieces : List Piece) : Prop :=
  ∃ gap token after, pieces = gap ++ Piece.token token :: after ∧
    (∀ piece ∈ gap, piece.isGap = true) ∧ kind token = true

-- A comment to the end of the line ends there.
def EndsLine (pieces : List Piece) : Prop :=
  pieces = [] ∨ ∃ space after, pieces = .space space :: after ∧ isBreak space.char = true

def LaidOut : List Piece → Prop
  | [] => True
  | .comment (.hash _) :: rest | .comment (.slashes _) :: rest => EndsLine rest ∧ LaidOut rest
  | .trailing :: rest => Next Token.isClosing rest ∧ LaidOut rest
  | _ :: rest => LaidOut rest

-- A JSON text with comments and trailing commas between its tokens.
structure Human (pieces : List Piece) : Prop where
  json : Derives .value (pieces.filterMap Piece.token?)
  laidOut : LaidOut pieces

def untabbedGap (pieces : List Piece) : Bool := (pieces.takeWhile Piece.isGap).all (!·.isTab)

-- No tab stands between a trailing comma and its bracket.
def Untabbed (pieces : List Piece) : Prop :=
  ∀ before after, pieces = before ++ Piece.trailing :: after → untabbedGap after = true

-- The text does not end with a comment that is nothing but its `#`.
def NoLoneHash (pieces : List Piece) : Prop :=
  ∀ before body, pieces = before ++ [Piece.comment (.hash body)] → body.chars ≠ []

section Gaps

theorem validateEmpty_plain {first : Char} {rest : List Char}
    (hash : first ≠ '#') (slash : first ≠ '/') (space : first ≠ ' ') (breaks : isBreak first = false) :
    validateEmpty .none [] (first :: rest) = ⟨[], first :: rest⟩ := by
  cases rest with
  | nil => rfl
  | cons second rest => simp [validateEmpty, hash, slash, space, breaks]

theorem closes_plain {first : Char} {rest : List Char}
    (hash : first ≠ '#') (slash : first ≠ '/') (space : first ≠ ' ') (breaks : isBreak first = false) :
    closes (first :: rest) = (first = '}' || first = ']') := by
  rw [closes, validateEmpty_plain hash slash space breaks]
  simp [closesAt]

-- What is skipped does not depend on what was written before.
theorem validateEmpty_rest (state : CommentState) (new rest : List Char) :
    (validateEmpty state new rest).rest = (validateEmpty state [] rest).rest := by
  have appended := validateEmpty_append state new [] rest
  rw [List.append_nil] at appended
  rw [appended]

theorem closes_congr {text rest : List Char}
    (same : (validateEmpty .none [] text).rest = (validateEmpty .none [] rest).rest) :
    closes text = closes rest := by
  rw [closes, closes, same]

theorem closes_space {first : Char} {rest : List Char} (space : first = ' ' ∨ isBreak first = true)
    (more : rest ≠ []) : closes (first :: rest) = closes rest := by
  apply closes_congr
  cases rest with
  | nil => exact absurd rfl more
  | cons second rest =>
    have plain : first ≠ '#' ∧ first ≠ '/' := by
      rcases space with rfl | breaks
      · decide
      · constructor <;> (rintro rfl; revert breaks; decide)
    rw [validateEmpty, if_neg plain.1, if_neg fun both => plain.2 both.1,
      if_neg fun both => plain.2 both.1, if_pos space, validateEmpty_rest]

theorem rest_line {body : List Char} (oneLine : ∀ c ∈ body, isBreak c = false) {first : Char}
    (breaks : isBreak first = true) (rest : List Char) :
    (validateEmpty .singleLine [] (body ++ first :: rest)).rest =
      (validateEmpty .none [] rest).rest := by
  induction body with
  | nil =>
    conv_lhs => rw [List.nil_append, validateEmpty, if_pos breaks, validateEmpty_rest]
  | cons c body ih =>
    have plain : ¬isBreak c = true := by simp [oneLine c List.mem_cons_self]
    conv_lhs => rw [List.cons_append, validateEmpty, if_neg plain, validateEmpty_rest]
    exact ih fun c member => oneLine c (List.mem_cons_of_mem _ member)

theorem not_ends {first : Char} {body rest : List Char} (unended : ¬['*', '/'] <:+: first :: body) :
    ¬(first = '*' ∧ (body ++ '*' :: '/' :: rest).head? = some '/') := by
  rintro ⟨rfl, follows⟩
  cases body with
  | nil => simp at follows
  | cons second body =>
    obtain rfl : second = '/' := by simpa using follows
    exact unended ⟨[], body, rfl⟩

theorem unended_tail {first : Char} {body : List Char} (unended : ¬['*', '/'] <:+: first :: body) :
    ¬['*', '/'] <:+: body :=
  fun inside => unended (inside.trans (List.suffix_cons first body).isInfix)

theorem rest_block {body : List Char} (unended : ¬['*', '/'] <:+: body) (rest : List Char) :
    (validateEmpty .multiLine [] (body ++ '*' :: '/' :: rest)).rest =
      (validateEmpty .none [] rest).rest := by
  induction body with
  | nil =>
    conv_lhs => rw [List.nil_append, validateEmpty, if_pos (by decide), validateEmpty_rest]
  | cons c body ih =>
    have inside := @not_ends _ _ rest unended
    have ih := ih (unended_tail unended)
    rw [List.cons_append]
    cases split : body ++ '*' :: '/' :: rest with
    | nil => simp at split
    | cons second more =>
      rw [split] at inside ih
      have goesOn : ¬(c = '*' ∧ second = '/') := fun both => inside ⟨both.1, by rw [both.2]; rfl⟩
      conv_lhs => rw [validateEmpty, if_neg goesOn]
      split_ifs
      · rw [validateEmpty_rest, ih]
      · rw [validateEmpty_rest, ih]

theorem closes_line {text body : List Char} (oneLine : ∀ c ∈ body, isBreak c = false)
    {first : Char} (breaks : isBreak first = true) {rest : List Char} (more : rest ≠ [])
    (starts : (validateEmpty .none [] text).rest =
      (validateEmpty .singleLine [] (body ++ first :: rest)).rest) :
    closes text = closes (first :: rest) := by
  rw [closes_space (.inr breaks) more]
  exact closes_congr (starts.trans (rest_line oneLine breaks rest))

theorem starts_hash {rest : List Char} (more : rest ≠ []) :
    (validateEmpty .none [] ('#' :: rest)).rest = (validateEmpty .singleLine [] rest).rest := by
  cases rest with
  | nil => exact absurd rfl more
  | cons second rest =>
    conv_lhs => rw [validateEmpty, if_pos rfl, validateEmpty_rest]

theorem starts_slashes (rest : List Char) :
    (validateEmpty .none [] ('/' :: '/' :: rest)).rest =
      (validateEmpty .singleLine [] rest).rest := by
  conv_lhs => rw [validateEmpty, if_neg (by decide), if_pos (by decide), validateEmpty_rest]

theorem closes_block {body : List Char} (unended : ¬['*', '/'] <:+: body) (rest : List Char) :
    closes ('/' :: '*' :: (body ++ '*' :: '/' :: rest)) = closes rest := by
  apply closes_congr
  rw [← rest_block unended rest]
  conv_lhs =>
    rw [validateEmpty, if_neg (by decide), if_neg (by decide), if_pos (by decide),
      validateEmpty_rest]

end Gaps

section Layouts

theorem Next.cons {kind : Token → Bool} {piece : Piece} {rest : List Piece}
    (isGap : piece.isGap = true) (next : Next kind (piece :: rest)) : Next kind rest := by
  obtain ⟨gap, token, after, split, gaps, holds⟩ := next
  cases gap with
  | nil =>
    obtain ⟨rfl, -⟩ := List.cons.inj split
    simp [Piece.isGap] at isGap
  | cons first gap =>
    obtain ⟨rfl, rfl⟩ := List.cons.inj split
    exact ⟨gap, token, after, rfl, fun piece member => gaps piece (List.mem_cons_of_mem _ member),
      holds⟩

theorem Next.ne {kind : Token → Bool} {rest : List Piece} (next : Next kind rest) : rest ≠ [] := by
  obtain ⟨gap, token, after, rfl, -⟩ := next
  simp

theorem text_nonempty (token : Token) : token.text ≠ [] := by
  cases token with
  | word letters => exact letters.nonempty
  | string literal =>
    obtain ⟨_, body, -, rfl⟩ := literal
    simp [Token.text]
  | _ => simp [Token.text]

theorem Next.render_ne {kind : Token → Bool} {rest : List Piece} (next : Next kind rest) :
    render rest ≠ [] := by
  obtain ⟨gap, token, after, rfl, -⟩ := next
  simp [render, Piece.text, text_nonempty]

-- A token starts with a character that is neither blank nor the start of a comment.
theorem token_starts (token : Token) :
    ∃ first rest, token.text = first :: rest ∧ first ≠ '#' ∧ first ≠ '/' ∧ first ≠ ' ' ∧
      isBreak first = false ∧ (first = '}' || first = ']') = token.isClosing := by
  cases token with
  | word letters =>
    obtain ⟨chars, plain, nonempty⟩ := letters
    cases chars with
    | nil => exact absurd rfl nonempty
    | cons first rest =>
      have letter := plain first List.mem_cons_self
      refine ⟨first, rest, rfl, ?_, ?_, ?_, ?_, ?_⟩
      · exact fun same => absurd (same ▸ letter) (by decide)
      · exact fun same => absurd (same ▸ letter) (by decide)
      · exact fun same => absurd (same ▸ letter) (by decide)
      · have newline : first ≠ '\n' := fun same => absurd (same ▸ letter) (by decide)
        have carriageReturn : first ≠ '\r' := fun same => absurd (same ▸ letter) (by decide)
        simp [isBreak, newline, carriageReturn]
      · have brace : first ≠ '}' := fun same => absurd (same ▸ letter) (by decide)
        have bracket : first ≠ ']' := fun same => absurd (same ▸ letter) (by decide)
        simp [Token.isClosing, brace, bracket]
  | string literal =>
    obtain ⟨_, body, -, rfl⟩ := literal
    exact ⟨'"', body ++ ['"'], rfl, by decide, by decide, by decide, by decide,
      by simp [Token.isClosing]⟩
  | _ => exact ⟨_, [], rfl, by decide, by decide, by decide, by decide, by decide⟩

theorem closes_token (token : Token) (more : List Char) :
    closes (token.text ++ more) = token.isClosing := by
  obtain ⟨first, rest, starts, hash, slash, space, breaks, closing⟩ := token_starts token
  rw [starts, List.cons_append, closes_plain hash slash space breaks, closing]

theorem render_cons (piece : Piece) (rest : List Piece) :
    render (piece :: rest) = piece.text ++ render rest := rfl

theorem untabbedGap_cons {piece : Piece} (isGap : piece.isGap = true) (rest : List Piece) :
    untabbedGap (piece :: rest) = (!piece.isTab && untabbedGap rest) := by
  rw [untabbedGap, List.takeWhile_cons_of_pos isGap, List.all_cons]
  rfl

-- Up to the next token `closes` sees nothing but tabs.
theorem closes_next {kind : Token → Bool} {pieces : List Piece} (laidOut : LaidOut pieces)
    (next : Next kind pieces) :
    ∃ token, kind token = true ∧
      closes (render pieces) = (untabbedGap pieces && token.isClosing) := by
  induction pieces with
  | nil =>
    obtain ⟨gap, token, after, split, -⟩ := next
    simp at split
  | cons piece rest ih =>
    rw [render_cons]
    cases piece with
    | token symbol =>
      obtain ⟨gap, token, after, split, gaps, holds⟩ := next
      cases gap with
      | nil =>
        obtain ⟨same, -⟩ := List.cons.inj split
        cases same
        exact ⟨symbol, holds, by simp [Piece.text, closes_token, Piece.isGap, untabbedGap]⟩
      | cons first gap =>
        obtain ⟨rfl, -⟩ := List.cons.inj split
        simpa [Piece.isGap] using gaps _ List.mem_cons_self
    | trailing =>
      obtain ⟨gap, token, after, split, gaps, holds⟩ := next
      cases gap with
      | nil => simp at split
      | cons first gap =>
        obtain ⟨rfl, -⟩ := List.cons.inj split
        simpa [Piece.isGap] using gaps _ List.mem_cons_self
    | space kind =>
      have later := next.cons rfl
      obtain ⟨token, holds, same⟩ := ih laidOut later
      refine ⟨token, holds, ?_⟩
      rw [untabbedGap_cons rfl]
      cases kind with
      | tab => exact closes_plain (by decide) (by decide) (by decide) (by decide)
      | blank | newline | carriageReturn =>
        exact (closes_space (by decide) later.render_ne).trans same
    | comment note =>
      have later := next.cons rfl
      rw [untabbedGap_cons rfl]
      cases note with
      | block body =>
        obtain ⟨token, holds, same⟩ := ih laidOut later
        refine ⟨token, holds, ?_⟩
        have skipped := closes_block body.unended (render rest)
        simpa [Piece.text, Comment.text, skipped, Piece.isTab] using same
      | hash body =>
        obtain ⟨ends, laidOut⟩ := laidOut
        obtain ⟨token, holds, same⟩ := ih laidOut later
        refine ⟨token, holds, .trans ?_ same⟩
        obtain ⟨kind, after, rfl, breaks⟩ := ends.resolve_left (by rintro rfl; exact later.ne rfl)
        exact closes_line body.oneLine breaks (later.cons rfl).render_ne 
          (starts_hash (by simp [Space.char, render_cons, Piece.text]))
      | slashes body =>
        obtain ⟨ends, laidOut⟩ := laidOut
        obtain ⟨token, holds, same⟩ := ih laidOut later
        refine ⟨token, holds, .trans ?_ same⟩
        obtain ⟨kind, after, rfl, breaks⟩ := ends.resolve_left (by rintro rfl; exact later.ne rfl)
        exact closes_line body.oneLine breaks (later.cons rfl).render_ne (starts_slashes _)

end Layouts

section Cleaned

theorem clean_line_body {body : List Char} (oneLine : ∀ c ∈ body, isBreak c = false)
    (rest : List Char) : clean .line (body ++ rest) = body.map blank ++ clean .line rest := by
  induction body with
  | nil => rfl
  | cons c body ih =>
    have plain : ¬isBreak c = true := by simp [oneLine c List.mem_cons_self]
    rw [List.cons_append, clean, if_neg plain,
      ih fun c member => oneLine c (List.mem_cons_of_mem _ member), List.map_cons, blank,
      if_neg plain]
    rfl

theorem clean_block_body {body : List Char} (unended : ¬['*', '/'] <:+: body) (rest : List Char) :
    clean .block (body ++ '*' :: '/' :: rest) =
      body.map blank ++ ' ' :: ' ' :: clean .code rest := by
  induction body with
  | nil =>
    rw [List.nil_append, clean, if_pos (by decide)]
    rfl
  | cons c body ih =>
    have inside := @not_ends _ _ rest unended
    rw [List.cons_append, clean_inside (by simp) fun same follows => inside ⟨same, follows⟩,
      ih (unended_tail unended)]
    rfl

theorem clean_after_line {rest : List Piece} (ends : EndsLine rest) :
    clean .line (render rest) = clean .code (render rest) := by
  obtain rfl | ⟨kind, after, rfl, breaks⟩ := ends
  · rfl
  · have plain := @clean_stuck kind.char (render after)
      ⟨fun _ => by cases kind <;> decide, fun same => absurd same (by cases kind <;> decide)⟩
    rw [cleanPlain, if_neg (by cases kind <;> decide), if_neg (by cases kind <;> decide)] at plain
    rw [render_cons, Piece.text, List.singleton_append, plain, clean, if_pos breaks]

-- A character that neither starts something nor may be blanked.
theorem clean_plain {first : Char} (hash : first ≠ '#') (slash : first ≠ '/') (quote : first ≠ '"')
    (comma : first ≠ ',') (rest : List Char) :
    clean .code (first :: rest) = first :: clean .code rest := by
  rw [clean_stuck ⟨fun _ => hash, fun same => absurd same slash⟩, cleanPlain, if_neg quote,
    if_neg comma]

theorem clean_word {chars : List Char}
    (plain : ∀ c ∈ chars, (c.isAlphanum || c = '+' || c = '-' || c = '.') = true)
    (rest : List Char) : clean .code (chars ++ rest) = chars ++ clean .code rest := by
  induction chars with
  | nil => rfl
  | cons first chars ih =>
    have letter := plain first List.mem_cons_self
    have other {c : Char} (no : (c.isAlphanum || c = '+' || c = '-' || c = '.') = false) :
        first ≠ c := by
      rintro rfl
      simp [no] at letter
    rw [List.cons_append, clean_plain (other (by decide)) (other (by decide)) (other (by decide))
      (other (by decide)), ih fun c member => plain c (List.mem_cons_of_mem _ member)]
    rfl

theorem clean_token {token : Token} (comma : token.isComma = false) (rest : List Char) :
    clean .code (token.text ++ rest) = token.text ++ clean .code rest := by
  cases token with
  | word letters => exact clean_word letters.plain rest
  | string literal => exact clean_literal literal.property rest
  | comma => cases comma
  | _ => exact clean_plain (by decide) (by decide) (by decide) (by decide) rest

theorem clean_comma (rest : List Char) :
    clean .code (',' :: rest) = cleanComma rest :: clean .code rest := by
  rw [clean_stuck ⟨fun _ => by decide, fun same => absurd same (by decide)⟩, cleanPlain,
    if_neg (by decide), if_pos rfl]

theorem clean_comment {note : Comment} {rest : List Piece}
    (laidOut : LaidOut (.comment note :: rest))
    (lone : rest = [] → ∀ body, note = .hash body → body.chars ≠ []) :
    clean .code (note.text ++ render rest) = note.text.map blank ++ clean .code (render rest) := by
  cases note with
  | block body =>
    have cleaned := clean_block_body body.unended (render rest)
    simp only [Comment.text, List.cons_append, List.append_assoc, clean_star, List.nil_append,
      cleaned, List.map_cons, List.map_append, List.map_nil]
    rfl
  | slashes body =>
    simp only [Comment.text, List.cons_append, clean_slashes, clean_line_body body.oneLine,
      clean_after_line laidOut.1, List.map_cons]
    rfl
  | hash body =>
    have more : body.chars ++ render rest ≠ [] := by
      obtain rfl | ⟨kind, after, rfl, -⟩ := laidOut.1
      · simpa [render] using lone rfl body rfl
      · simp [render_cons, Piece.text]
    simp only [Comment.text, List.cons_append, clean_hash more, clean_line_body body.oneLine,
      clean_after_line laidOut.1, List.map_cons]
    rfl

-- The commas of the text itself: another token but a closing bracket follows.
def Commas (pieces : List Piece) : Prop :=
  ∀ before after, pieces = before ++ Piece.token .comma :: after → Next (!·.isClosing) after

theorem forall_split {property : List Piece → Prop} {target piece : Piece} {rest : List Piece} :
    (∀ before after, piece :: rest = before ++ target :: after → property after) ↔
      (piece = target → property rest) ∧
        ∀ before after, rest = before ++ target :: after → property after := by
  constructor
  · intro all
    exact ⟨fun same => all [] rest (by rw [same]; rfl),
      fun before after split => all (piece :: before) after (by rw [split]; rfl)⟩
  · rintro ⟨first, later⟩ before after split
    cases before with
    | nil =>
      obtain ⟨rfl, rfl⟩ := List.cons.inj split
      exact first rfl
    | cons other before =>
      obtain ⟨rfl, rfl⟩ := List.cons.inj split
      exact later before after rfl

theorem noLoneHash_cons {piece : Piece} {rest : List Piece} :
    NoLoneHash (piece :: rest) ↔
      (rest = [] → ∀ body, piece = .comment (.hash body) → body.chars ≠ []) ∧
        NoLoneHash rest := by
  constructor
  · intro none
    refine ⟨fun ends body same => none [] body (by rw [ends, same]; rfl), fun before body split => ?_⟩
    exact none (piece :: before) body (by rw [split]; rfl)
  · rintro ⟨first, later⟩ before body split
    cases before with
    | nil =>
      obtain ⟨rfl, rfl⟩ := List.cons.inj split
      exact first rfl body rfl
    | cons other before =>
      obtain ⟨rfl, rfl⟩ := List.cons.inj split
      exact later before body rfl

theorem LaidOut.tail {piece : Piece} {rest : List Piece} (laidOut : LaidOut (piece :: rest)) :
    LaidOut rest := by
  cases piece with
  | space kind => exact laidOut
  | comment note =>
    cases note with
    | block body => exact laidOut
    | hash body | slashes body => exact laidOut.2
  | token symbol => exact laidOut
  | trailing => exact laidOut.2

theorem clean_render_iff {pieces : List Piece} (laidOut : LaidOut pieces) (commas : Commas pieces) :
    clean .code (render pieces) = cleaned pieces ↔ Untabbed pieces ∧ NoLoneHash pieces := by
  induction pieces with
  | nil => exact iff_of_true rfl ⟨fun before after split => by simp at split,
      fun before body split => by simp at split⟩
  | cons piece rest ih =>
    obtain ⟨comma, commas⟩ := forall_split.mp commas
    have rests := ih laidOut.tail commas
    have split : cleaned (piece :: rest) = piece.cleaned ++ cleaned rest := rfl
    have untabbed : Untabbed (piece :: rest) ↔
        (piece = .trailing → untabbedGap rest = true) ∧ Untabbed rest :=
      @forall_split (fun after => untabbedGap after = true) _ _ _
    -- Where the piece comes out as it should, the rest decides.
    have same (goes : clean .code (piece.text ++ render rest) =
          piece.cleaned ++ clean .code (render rest))
        (gap : piece = .trailing → untabbedGap rest = true)
        (lone : rest = [] → ∀ body, piece = .comment (.hash body) → body.chars ≠ []) :
        clean .code (piece.text ++ render rest) = piece.cleaned ++ cleaned rest ↔
          ((piece = .trailing → untabbedGap rest = true) ∧ Untabbed rest) ∧
            (rest = [] → ∀ body, piece = .comment (.hash body) → body.chars ≠ []) ∧
              NoLoneHash rest := by
      rw [goes, List.append_cancel_left_eq, rests]
      exact ⟨fun both => ⟨⟨gap, both.1⟩, lone, both.2⟩, fun all => ⟨all.1.2, all.2.2⟩⟩
    rw [untabbed, noLoneHash_cons, render_cons, split]
    cases piece with
    | space kind =>
      refine same ?_ (by simp) (by simp)
      cases kind <;> exact clean_plain (by decide) (by decide) (by decide) (by decide) _
    | comment note =>
      by_cases lone : rest = [] → ∀ body, note = .hash body → body.chars ≠ []
      · refine same (clean_comment laidOut lone) (by simp) fun ends body hash => ?_
        exact lone ends body (Piece.comment.inj hash)
      · push Not at lone
        obtain ⟨rfl, body, rfl, empty⟩ := lone
        refine iff_of_false ?_ fun all => all.2.1 rfl body rfl empty
        simp [Piece.text, Piece.cleaned, Comment.text, empty, render, cleaned, clean, cleanLast,
          blank, isBreak]
    | token symbol =>
      refine same ?_ (by simp) (by simp)
      cases isComma : symbol.isComma with
      | false => exact clean_token isComma _
      | true =>
        obtain rfl : symbol = .comma := by cases symbol <;> first | rfl | cases isComma
        obtain ⟨token, other, ends⟩ := closes_next laidOut.tail (comma rfl)
        have stays : closes (render rest) = false := by
          rw [ends, Bool.not_eq_true' _ |>.mp other, Bool.and_false]
        have cleans := clean_comma (render rest)
        rw [cleanComma, stays] at cleans
        exact cleans
    | trailing =>
      obtain ⟨token, closing, ends⟩ := closes_next laidOut.tail laidOut.1
      have cleans := clean_comma (render rest)
      rw [cleanComma, ends, closing, Bool.and_true] at cleans
      cases gap : untabbedGap rest with
      | true =>
        rw [gap] at cleans same
        exact same cleans (fun _ => rfl) (by simp)
      | false =>
        rw [gap] at cleans
        refine iff_of_false ?_ fun all => absurd (all.1.1 rfl) (by simp)
        rw [Piece.text, List.singleton_append, cleans]
        simp [Piece.cleaned]

end Cleaned

section Grammar

-- What the grammar says about commas.
structure Proper (tokens : List Token) : Prop where
  chain : tokens.IsChain fun first second => first.isComma = true → second.isClosing = false
  first : ∃ token ∈ tokens.head?, token.isClosing = false
  last : ∃ token ∈ tokens.getLast?, token.isComma = false

namespace Proper

theorem single {token : Token} (comma : token.isComma = false) (closing : token.isClosing = false) :
    Proper [token] :=
  ⟨List.isChain_singleton _, ⟨token, rfl, closing⟩, token, rfl, comma⟩

-- A value, then the rest.
theorem join {front back : List Token} (before : Proper front) (after : Proper back) :
    Proper (front ++ back) := by
  obtain ⟨first, isFirst, unclosing⟩ := before.first
  obtain ⟨last, isLast, uncomma⟩ := after.last
  refine ⟨List.isChain_append.mpr ⟨before.chain, after.chain, fun x isLast _ _ comma => ?_⟩,
    ⟨first, ?_, unclosing⟩, last, ?_, uncomma⟩
  · obtain ⟨other, isOther, uncomma⟩ := before.last
    obtain rfl : other = x := Option.some.inj (isOther.symm.trans isLast)
    simp [uncomma] at comma
  · rw [List.head?_append, Option.mem_def.mp isFirst]
    rfl
  · rw [List.getLast?_append, Option.mem_def.mp isLast]
    rfl

theorem append {front back : List Token} (before : Proper front) (after : Proper back) :
    Proper (front ++ Token.comma :: back) := by
  apply before.join
  obtain ⟨first, isFirst, unclosing⟩ := after.first
  obtain ⟨last, isLast, uncomma⟩ := after.last
  refine ⟨List.isChain_cons.mpr ⟨fun y isNext _ => ?_, after.chain⟩, ⟨_, rfl, rfl⟩, last, ?_, uncomma⟩
  · obtain rfl : first = y := Option.some.inj (isFirst.symm.trans isNext)
    exact unclosing
  · rw [List.getLast?_cons, Option.mem_def.mp isLast]
    rfl

theorem close {front : List Token} {token : Token} (before : Proper front)
    (comma : token.isComma = false) : Proper (front ++ [token]) := by
  obtain ⟨first, isFirst, unclosing⟩ := before.first
  refine ⟨List.isChain_append.mpr ⟨before.chain, List.isChain_singleton _,
    fun x isLast _ _ isComma => ?_⟩, ⟨first, ?_, unclosing⟩, token, by simp, comma⟩
  · obtain ⟨other, isOther, uncomma⟩ := before.last
    obtain rfl : other = x := Option.some.inj (isOther.symm.trans isLast)
    simp [uncomma] at isComma
  · rw [List.head?_append, Option.mem_def.mp isFirst]
    rfl

theorem next {tokens before after : List Token} (proper : Proper tokens)
    (split : tokens = before ++ Token.comma :: after) :
    ∃ token rest, after = token :: rest ∧ token.isClosing = false := by
  obtain ⟨chain, -, last, isLast, uncomma⟩ := proper
  subst split
  cases after with
  | nil =>
    obtain rfl : last = .comma := by simpa using isLast.symm
    cases uncomma
  | cons token rest =>
    exact ⟨token, rest, rfl, (List.isChain_append_cons_cons.mp chain).2.1 rfl⟩

end Proper

theorem Derives.proper {part : Part} {tokens : List Token} (derives : Derives part tokens) :
    Proper tokens := by
  induction derives with
  | word letters => exact .single rfl rfl
  | string literal => exact .single rfl rfl
  | emptyArray => exact Proper.close (.single rfl rfl) rfl
  | array _ ih => exact ((Proper.single rfl rfl).join ih).close rfl
  | emptyObject => exact Proper.close (.single rfl rfl) rfl
  | object _ ih => exact ((Proper.single rfl rfl).join ih).close rfl
  | item _ ih => exact ih
  | items _ _ value rest => exact value.append rest
  | member key _ ih => exact (Proper.single rfl rfl).join ((Proper.single rfl rfl).join ih)
  | members key _ _ value rest =>
    exact ((Proper.single rfl rfl).join ((Proper.single rfl rfl).join value)).append rest

theorem LaidOut.suffix {before after : List Piece} (laidOut : LaidOut (before ++ after)) :
    LaidOut after := by
  induction before with
  | nil => exact laidOut
  | cons piece before ih => exact ih laidOut.tail

-- A token that does not close cannot follow a trailing comma.
theorem next_of_tokens {pieces : List Piece} (laidOut : LaidOut pieces) {token : Token}
    {rest : List Token} (tokens : pieces.filterMap Piece.token? = token :: rest)
    (unclosing : token.isClosing = false) : Next (!·.isClosing) pieces := by
  induction pieces with
  | nil => simp at tokens
  | cons piece pieces ih =>
    cases piece with
    | space kind =>
      obtain ⟨gap, next, after, rfl, gaps, holds⟩ := ih laidOut.tail tokens
      exact ⟨.space kind :: gap, next, after, rfl, List.forall_mem_cons.mpr ⟨rfl, gaps⟩, holds⟩
    | comment note =>
      obtain ⟨gap, next, after, rfl, gaps, holds⟩ := ih laidOut.tail tokens
      exact ⟨.comment note :: gap, next, after, rfl, List.forall_mem_cons.mpr ⟨rfl, gaps⟩, holds⟩
    | token symbol =>
      obtain ⟨rfl, -⟩ := List.cons.inj tokens
      exact ⟨[], symbol, pieces, rfl, by simp, by simp [unclosing]⟩
    | trailing =>
      obtain ⟨gap, next, after, rfl, gaps, holds⟩ := laidOut.1
      have none : gap.filterMap Piece.token? = [] := by
        rw [List.filterMap_eq_nil_iff]
        intro piece member
        have isGap := gaps piece member
        cases piece with
        | space kind | comment note | trailing => rfl
        | token symbol => cases isGap
      have first : next :: after.filterMap Piece.token? = token :: rest := by
        rw [← tokens, List.filterMap_cons_none rfl, List.filterMap_append, none]
        rfl
      obtain ⟨rfl, -⟩ := List.cons.inj first
      exact absurd (holds.symm.trans unclosing) (by decide)

theorem Human.commas {pieces : List Piece} (human : Human pieces) : Commas pieces := by
  rintro before after rfl
  have tokens : (before ++ Piece.token .comma :: after).filterMap Piece.token? =
      before.filterMap Piece.token? ++ Token.comma :: after.filterMap Piece.token? := by
    simp [Piece.token?]
  obtain ⟨token, rest, follows, unclosing⟩ := human.json.proper.next tokens
  have laidOut : LaidOut after := human.laidOut.suffix.tail
  exact next_of_tokens laidOut follows unclosing

end Grammar

theorem untouched {pieces : List Piece} (json : ∀ piece ∈ pieces, piece.isJson = true) :
    cleaned pieces = render pieces ∧ Untabbed pieces ∧ NoLoneHash pieces := by
  refine ⟨?_, ?_, ?_⟩
  · apply List.flatMap_congr
    intro piece member
    have isJson := json piece member
    cases piece with
    | space kind | token symbol => rfl
    | comment note | trailing => cases isJson
  · rintro before after rfl
    have isJson := json .trailing (by simp)
    cases isJson
  · rintro before body rfl
    have isJson := json (.comment (.hash body)) (by simp)
    cases isJson

/-- Nothing is lost and lines stay, whatever the text; string literals stay; and comments and
trailing commas of a JSON text are blanked, and nothing else, exactly if no tab stands between a
trailing comma and its bracket and no lone `#` at the end.  Without any of them the text stays. -/
theorem preprocess_exact_iff (text front literal back : List Char) (pieces : List Piece) :
    List.Forall₂ Kept text (preprocessHumanJson text) ∧
      ((lexed front).inCode = true → Literal literal →
        ∃ out more, preprocessHumanJson (front ++ literal ++ back) = out ++ literal ++ more ∧
          out.length = front.length) ∧
      (Human pieces →
        (preprocessHumanJson (render pieces) = cleaned pieces ↔
            Untabbed pieces ∧ NoLoneHash pieces) ∧
          ((∀ piece ∈ pieces, piece.isJson = true) →
            preprocessHumanJson (render pieces) = render pieces)) := by
  refine ⟨?_, preprocess_literal back, fun human => ?_⟩
  · rw [preprocessHumanJson_clean]
    exact clean_kept .code text
  · rw [preprocessHumanJson_clean]
    have exact := clean_render_iff human.laidOut human.commas
    exact ⟨exact, fun json => (exact.mpr (untouched json).2).trans (untouched json).1⟩

def one : Word := ⟨['1'], List.forall_mem_singleton.mpr (by decide), by decide⟩

-- A trailing comma before a tab and a bracket.
def tabbedArray : List Piece :=
  [.token .openBracket, .token (.word one), .trailing, .space .tab,
    .token .closeBracket]

theorem tab_keeps_comma :
    Human tabbedArray ∧ preprocessHumanJson (render tabbedArray) ≠ cleaned tabbedArray := by
  refine ⟨⟨.array (.item (.word _)), ?_⟩, by decide +kernel⟩
  exact ⟨⟨[.space .tab], .closeBracket, [], rfl, by decide, rfl⟩, trivial⟩

-- A trailing comma before a comment and a bracket, and a comment at the end.
def commentedArray : List Piece :=
  [.token .openBracket, .token (.word one), .trailing,
    .comment (.block ⟨['\t'], by decide⟩), .token .closeBracket,
    .comment (.hash ⟨[' '], List.forall_mem_singleton.mpr (by decide)⟩)]

theorem commentedArray_human : Human commentedArray := by
  refine ⟨.array (.item (.word _)), ?_⟩
  exact ⟨⟨[.comment (.block ⟨['\t'], by decide⟩)], .closeBracket, _, rfl, by decide, rfl⟩,
    .inl rfl, trivial⟩

theorem preprocess_exact_iff_commented :
    preprocessHumanJson (render commentedArray) = "[1      ]  ".toList ∧
      Untabbed commentedArray ∧ NoLoneHash commentedArray := by
  have cleans : preprocessHumanJson (render commentedArray) = cleaned commentedArray := by
    decide +kernel
  exact ⟨by decide +kernel, ((preprocess_exact_iff [] [] [] [] _).2.2 commentedArray_human).1.mp cleans⟩

end HumanJson

end BetterParsec
