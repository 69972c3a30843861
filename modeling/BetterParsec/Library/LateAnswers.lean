import BetterParsec.Library.Runs

set_option autoImplicit false
set_option linter.all false

/-!
# A client with one request in flight and late answers

A client remembers the last request it made and what the last answer granted, and
is told of resources that are lost.  Its requests are answered in order, each
after any delay; answers do not say which request they belong to.
-/

namespace LateAnswers

open Runs

variable {S Request Answer Resource : Type}

structure Client (S Request Answer Resource : Type) where
  pending : S → Option Request
  held : S → Option Resource
  request : S → Request → S
  answer : S → Answer → S
  -- The resource that is lost and the one to fall back to; a request is made if one is needed.
  lost : S → Resource → Resource → S × Option Request
  granted : Answer → Option Resource

structure Client.Lawful (client : Client S Request Answer Resource) : Prop where
  pending_request : ∀ state req, client.pending (client.request state req) = some req
  held_request : ∀ state req, client.held (client.request state req) = client.held state
  pending_answer : ∀ state answer, client.pending (client.answer state answer) = none
  held_answer : ∀ state answer,
    client.held (client.answer state answer) = (client.granted answer).or (client.held state)
  lost_held : ∀ state resource fallback, client.held state = some resource →
    ∃ next req, client.lost state resource fallback = (next, some req) ∧
      client.pending next = some req ∧ client.held next = none
  lost_other : ∀ state resource fallback, client.held state ≠ some resource →
    client.lost state resource fallback = (state, none)

inductive Event (Request Answer Resource : Type) where
  | request (req : Request)
  | answer (answer : Answer)
  | lost (resource fallback : Resource)

-- The client beside what the other side knows of its requests.
structure Session (S Resource : Type) where
  client : S
  -- For each unanswered request, the oldest first, the resources that were lost since it was made.
  unanswered : List (List Resource)
  -- The same for the request that gave what the client holds.
  since : List Resource

namespace Client

variable (client : Client S Request Answer Resource)

-- The requests are what a step emits; there is no answer where all requests are answered.
def step (session : Session S Resource) :
    Event Request Answer Resource → Session S Resource × List Request
  | .request req =>
      ({ session with
          client := client.request session.client req
          unanswered := session.unanswered ++ [[]] }, [req])
  | .answer answer =>
      match session.unanswered with
      | [] => (session, [])
      | lost :: later =>
          ({ client := client.answer session.client answer
             unanswered := later
             since := if (client.granted answer).isSome then lost else session.since }, [])
  | .lost resource fallback =>
      let (next, made) := client.lost session.client resource fallback
      ({ client := next
         unanswered := session.unanswered.map (· ++ [resource]) ++ made.toList.map fun _ => []
         since := session.since ++ [resource] }, made.toList)

def start (state : S) : Session S Resource := ⟨state, [], []⟩

-- The client knows whether a request is unanswered, and holds nothing that was lost since it
-- asked for it.
structure Faithful (session : Session S Resource) : Prop where
  pending : (client.pending session.client).isSome ↔ session.unanswered ≠ []
  held : ∀ resource ∈ client.held session.client, resource ∉ session.since

instance decidableFaithful [DecidableEq Resource] (session : Session S Resource) :
    Decidable (client.Faithful session) :=
  decidable_of_iff
    (((client.pending session.client).isSome ↔ session.unanswered ≠ []) ∧
      ∀ resource ∈ client.held session.client, resource ∉ session.since)
    ⟨fun both => ⟨both.1, both.2⟩, fun faithful => ⟨faithful.pending, faithful.held⟩⟩

-- An answer belongs to the only request in flight and grants nothing that was lost in the meantime.
def OnTime (session : Session S Resource) : Event Request Answer Resource → Prop
  | .answer answer =>
      session.unanswered.length ≤ 1 ∧
        ∀ lost ∈ session.unanswered.head?, ∀ resource ∈ client.granted answer, resource ∉ lost
  | _ => True

theorem faithful_start (state : S) (pending : client.pending state = none)
    (held : client.held state = none) : client.Faithful (start state) :=
  ⟨by simp [start, pending], by simp [start, held]⟩

namespace Lawful

variable {client : Client S Request Answer Resource}

theorem faithful_request (lawful : client.Lawful) {session : Session S Resource} (req : Request)
    (faithful : client.Faithful session) :
    client.Faithful (client.step session (.request req)).1 := by
  constructor
  · simp [step, lawful.pending_request]
  · simpa only [step, lawful.held_request] using faithful.held

theorem faithful_lost (lawful : client.Lawful) {session : Session S Resource}
    (resource fallback : Resource) (faithful : client.Faithful session) :
    client.Faithful (client.step session (.lost resource fallback)).1 := by
  by_cases same : client.held session.client = some resource
  · obtain ⟨next, req, result, pending, held⟩ :=
      lawful.lost_held session.client resource fallback same
    constructor
    · simp [step, result, pending]
    · simp [step, result, held]
  · have result := lawful.lost_other session.client resource fallback same
    constructor
    · simpa [step, result] using faithful.pending
    · intro other found member
      simp only [step, result] at found member
      rcases List.mem_append.mp member with earlier | last
      · exact faithful.held other found earlier
      · rw [List.mem_singleton.mp last] at found
        exact same found

theorem faithful_answer (lawful : client.Lawful) {session : Session S Resource} (answer : Answer)
    (faithful : client.Faithful session) :
    client.Faithful (client.step session (.answer answer)).1 ↔
      client.OnTime session (.answer answer) := by
  obtain ⟨state, unanswered, since⟩ := session
  cases unanswered with
  | nil => exact iff_of_true faithful ⟨Nat.zero_le 1, by simp⟩
  | cons lost later =>
    have pending : (client.pending (client.answer state answer)).isSome ↔ False := by
      simp [lawful.pending_answer]
    have single : (lost :: later).length ≤ 1 ↔ later = [] := by
      simp [List.length_eq_zero_iff]
    have inTime : (∀ resource ∈ client.held (client.answer state answer),
          resource ∉ if (client.granted answer).isSome then lost else since) ↔
        ∀ resource ∈ client.granted answer, resource ∉ lost := by
      rw [lawful.held_answer]
      cases granted : client.granted answer with
      | none => simpa using faithful.held
      | some resource => simp
    constructor
    · intro after
      have known := pending.symm.trans after.pending
      refine ⟨single.mpr (not_not.mp known.mpr), fun first found => ?_⟩
      cases found
      exact inTime.mp after.held
    · intro onTime
      have none_left := single.mp onTime.1
      exact ⟨pending.trans (by simp [step, none_left]), inTime.mpr (onTime.2 lost rfl)⟩

theorem faithful_step (lawful : client.Lawful) {session : Session S Resource}
    (event : Event Request Answer Resource) (faithful : client.Faithful session) :
    client.Faithful (client.step session event).1 ↔ client.OnTime session event := by
  cases event with
  | request req => exact iff_of_true (lawful.faithful_request req faithful) trivial
  | answer answer => exact lawful.faithful_answer answer faithful
  | lost resource fallback =>
    exact iff_of_true (lawful.faithful_lost resource fallback faithful) trivial

/-- A session is faithful throughout exactly if every answer is on time. -/
theorem faithful_iff_onTime (lawful : client.Lawful) {state : S}
    (initial : client.Faithful (start state)) (events : List (Event Request Answer Resource)) :
    (∀ taken, taken <+: events → client.Faithful (run client.step (start state) taken).1) ↔
      Along client.step (fun _ => client.OnTime) [] (start state) events :=
  along_iff_states client.step client.Faithful (fun _ => True) (fun _ _ _ => trivial)
    (fun _ _ event _ faithful => lawful.faithful_step event faithful) trivial initial

end Lawful

end Client

end LateAnswers
