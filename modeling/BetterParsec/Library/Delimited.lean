import Mathlib

set_option autoImplicit false
set_option linter.all false

/-!
# Self-delimiting codes

A code is delimited at a value if, in any text that starts with the code of the
value, both the value and where its code ends can be told from the text alone.
What follows the code may be restricted: a decimal number is delimited before
anything but another digit. Codes of lists are delimited where the codes of their
elements are.
-/

namespace Delimited

variable {A B T : Type}

-- No other value of the domain starts the same text, and no text is split elsewhere.
def At (ends : List T → Prop) (domain : A → Prop) (code : A → List T) (value : A) : Prop :=
  ∀ other rest rest', domain other → ends rest → ends rest' →
    code value ++ rest = code other ++ rest' → value = other ∧ rest = rest'

theorem At.injective {ends : List T → Prop} {domain : A → Prop} {code : A → List T} {value : A}
    (delimited : At ends domain code value) (empty : ends []) {other : A} (known : domain other)
    (same : code value = code other) : value = other :=
  (delimited other [] [] known empty empty (by rw [same])).1

/-- A code that can be read back is delimited. -/
theorem at_of_decode {code : A → List T} (decode : List T → Option (A × List T))
    (inverse : ∀ value rest, decode (code value ++ rest) = some (value, rest)) (value : A) :
    At (fun _ => True) (fun _ => True) code value := by
  intro other rest rest' _ _ _ same
  have read := inverse value rest
  rw [same, inverse other rest'] at read
  exact ⟨(Prod.mk.inj (Option.some.inj read)).1.symm, (Prod.mk.inj (Option.some.inj read)).2.symm⟩

/-- A run of symbols of one kind ends before the first of another kind. -/
theorem run_unique (kind : T → Bool) {run run' rest rest' : List T}
    (all : ∀ symbol ∈ run, kind symbol = true) (all' : ∀ symbol ∈ run', kind symbol = true)
    (ends : ∀ symbol ∈ rest.head?, kind symbol = false)
    (ends' : ∀ symbol ∈ rest'.head?, kind symbol = false) (same : run ++ rest = run' ++ rest') :
    run = run' ∧ rest = rest' := by
  have none (more : List T) (stop : ∀ symbol ∈ more.head?, kind symbol = false) :
      more.takeWhile kind = [] := by
    cases more with
    | nil => rfl
    | cons symbol tail => simp [List.takeWhile, stop symbol (by simp)]
  have taken := congrArg (List.takeWhile kind) same
  rw [List.takeWhile_append_of_pos all, List.takeWhile_append_of_pos all', none rest ends,
    none rest' ends', List.append_nil, List.append_nil] at taken
  rw [taken] at same
  exact ⟨taken, List.append_cancel_left same⟩

section Lists

variable (separator close : T) (code : A → List T)

-- The codes one after the other, then the closing symbol.
def closed : List A → List T
  | [] => [close]
  | value :: rest => code value ++ closed rest

-- The codes after the first, each behind a separator, then the closing symbol.
def tail : List A → List T
  | [] => [close]
  | value :: rest => separator :: (code value ++ tail rest)

-- The codes with separators between them, then the closing symbol.
def block : List A → List T
  | [] => [close]
  | value :: rest => code value ++ tail separator close code rest

variable {separator close code} {ends : List T → Prop} {domain : A → Prop}

-- The closing symbol does not start the code of a value.
def Unclosed (close : T) (domain : A → Prop) (code : A → List T) : Prop :=
  ∀ value, domain value → ∃ symbol rest, code value = symbol :: rest ∧ symbol ≠ close

theorem Unclosed.ne (unclosed : Unclosed close domain code) {value : A} (known : domain value)
    (more rest : List T) : code value ++ more ≠ close :: rest := by
  obtain ⟨symbol, later, starts, different⟩ := unclosed value known
  rw [starts, List.cons_append]
  intro same
  exact different (List.cons.inj same).1

theorem closed_at (unclosed : Unclosed close domain code) {values : List A}
    (known : ∀ value ∈ values, domain value)
    (each : ∀ value ∈ values, At (fun _ => True) domain code value) :
    At (fun _ => True) (fun others => ∀ value ∈ others, domain value) (closed close code)
      values := by
  intro others rest rest' known' _ _ same
  induction values generalizing others with
  | nil =>
    cases others with
    | nil => exact ⟨rfl, (List.cons.inj same).2⟩
    | cons other later =>
      rw [closed, closed, List.append_assoc] at same
      exact absurd same.symm (unclosed.ne (known' other List.mem_cons_self) _ _)
  | cons value values ih =>
    cases others with
    | nil =>
      rw [closed, closed, List.append_assoc] at same
      exact absurd same (unclosed.ne (known value List.mem_cons_self) _ _)
    | cons other later =>
      rw [closed, closed, List.append_assoc, List.append_assoc] at same
      obtain ⟨rfl, remaining⟩ := each value List.mem_cons_self other _ _
        (known' other List.mem_cons_self) trivial trivial same
      obtain ⟨rfl, final⟩ := ih (fun value member => known value (List.mem_cons_of_mem _ member))
        (fun value member => each value (List.mem_cons_of_mem _ member)) later
        (fun value member => known' value (List.mem_cons_of_mem _ member)) remaining
      exact ⟨rfl, final⟩

theorem tail_starts (values : List A) (rest : List T) (symbol : T)
    (starts : (tail separator close code values ++ rest).head? = some symbol) :
    symbol = separator ∨ symbol = close := by
  cases values with
  | nil => exact .inr (by simpa [tail] using starts.symm)
  | cons value values => exact .inl (by simpa [tail] using starts.symm)

theorem tail_at (different : separator ≠ close)
    (stops : ∀ values rest, ends (tail separator close code values ++ rest)) {values : List A}
    (each : ∀ value ∈ values, At ends domain code value) :
    At (fun _ => True) (fun others => ∀ value ∈ others, domain value)
      (tail separator close code) values := by
  intro others rest rest' known' _ _ same
  induction values generalizing others with
  | nil =>
    cases others with
    | nil => exact ⟨rfl, (List.cons.inj same).2⟩
    | cons other later => exact absurd (List.cons.inj same).1.symm different
  | cons value values ih =>
    cases others with
    | nil => exact absurd (List.cons.inj same).1 different
    | cons other later =>
      rw [tail, tail, List.cons_append, List.cons_append, List.append_assoc,
        List.append_assoc] at same
      have inner := (List.cons.inj same).2
      obtain ⟨rfl, remaining⟩ := each value List.mem_cons_self other _ _
        (known' other List.mem_cons_self) (stops _ _) (stops _ _) inner
      obtain ⟨rfl, final⟩ := ih (fun value member => each value (List.mem_cons_of_mem _ member))
        later (fun value member => known' value (List.mem_cons_of_mem _ member)) remaining
      exact ⟨rfl, final⟩

theorem block_at (unclosed : Unclosed close domain code) (different : separator ≠ close)
    (stops : ∀ values rest, ends (tail separator close code values ++ rest)) {values : List A}
    (known : ∀ value ∈ values, domain value)
    (each : ∀ value ∈ values, At ends domain code value) :
    At (fun _ => True) (fun others => ∀ value ∈ others, domain value)
      (block separator close code) values := by
  intro others rest rest' known' _ _ same
  cases values with
  | nil =>
    cases others with
    | nil => exact ⟨rfl, (List.cons.inj same).2⟩
    | cons other later =>
      rw [block, block, List.append_assoc] at same
      exact absurd same.symm (unclosed.ne (known' other List.mem_cons_self) _ _)
  | cons value values =>
    cases others with
    | nil =>
      rw [block, block, List.append_assoc] at same
      exact absurd same (unclosed.ne (known value List.mem_cons_self) _ _)
    | cons other later =>
      rw [block, block, List.append_assoc, List.append_assoc] at same
      obtain ⟨rfl, remaining⟩ := each value List.mem_cons_self other _ _
        (known' other List.mem_cons_self) (stops _ _) (stops _ _) same
      obtain ⟨rfl, final⟩ := tail_at different stops
        (fun value member => each value (List.mem_cons_of_mem _ member)) later _ _
        (fun value member => known' value (List.mem_cons_of_mem _ member)) trivial trivial remaining
      exact ⟨rfl, final⟩

end Lists

end Delimited
