import BetterParsec.Server.StorageMoves

set_option autoImplicit false
set_option linter.all false

/-!
# Session tokens

The sessions of the store are those created and not ended since, where a session
ends by its removal, by the removal of all sessions of its user, by the creation of
another under the same token or by a sweep that finds it expired.
-/

namespace BetterParsec

def StorageEvent.endsSession (token : SessionToken) (session : JsonStorage.Session) :
    StorageEvent → Bool
  | sessionCreated other _ => other = token
  | sessionRemoved other => other = token
  | userSessionsRemoved userId => userId = session.userId
  | sessionsSwept now => session.expiration ≤ now - session.createdAt
  | returned _ _ | userAdded _ | usersRemoved _ | userBySession _ _ _ => false

def StorageEvent.follow (token : SessionToken) (held : Option JsonStorage.Session) :
    StorageEvent → Option JsonStorage.Session
  | sessionCreated other session => if other = token then some session else held
  | event => held.filter (fun session => !event.endsSession token session)

def liveSession (token : SessionToken) (log : List StorageEvent) : Option JsonStorage.Session :=
  log.foldl (StorageEvent.follow token) none

-- The session was the last created under its token and nothing has ended it since.
def Lives (token : SessionToken) (session : JsonStorage.Session) (log : List StorageEvent) : Prop :=
  ∃ before after, log = before ++ StorageEvent.sessionCreated token session :: after ∧
    ∀ event ∈ after, event.endsSession token session = false

variable {token : SessionToken} {session : JsonStorage.Session}

@[simp] theorem liveSession_append (log more : List StorageEvent) :
    liveSession token (log ++ more) =
      more.foldl (StorageEvent.follow token) (liveSession token log) := by
  simp [liveSession]

theorem StorageEvent.follow_of_lasts {event : StorageEvent}
    (lasts : event.endsSession token session = false) :
    event.follow token (some session) = some session := by
  cases event with
  | sessionCreated other created =>
    have different : other ≠ token := by simpa [endsSession] using lasts
    simp [follow, different]
  | returned _ _ | userAdded _ | usersRemoved _ | sessionRemoved _ | userSessionsRemoved _
  | sessionsSwept _ | userBySession _ _ _ => simp [follow, lasts]

theorem StorageEvent.follow_eq_some {event : StorageEvent} {held : Option JsonStorage.Session}
    (followed : event.follow token held = some session) :
    event = .sessionCreated token session ∨
      held = some session ∧ event.endsSession token session = false := by
  cases event with
  | sessionCreated other created =>
    simp only [follow] at followed
    split_ifs at followed with same
    · exact .inl (by rw [same, Option.some.inj followed])
    · exact .inr ⟨followed, by simp [endsSession, same]⟩
  | returned _ _ | userAdded _ | usersRemoved _ | sessionRemoved _ | userSessionsRemoved _
  | sessionsSwept _ | userBySession _ _ _ =>
    exact .inr (by simpa [follow, Option.filter_eq_some_iff] using followed)

theorem StorageEvent.follow_eq_self {event : StorageEvent}
    (lasts : ∀ session, event.endsSession token session = false)
    (held : Option JsonStorage.Session) :
    event.follow token held = held := by
  cases held with
  | some session => exact follow_of_lasts (lasts session)
  | none =>
    refine Option.eq_none_iff_forall_ne_some.mpr (fun session followed => ?_)
    obtain rfl | ⟨absurd, -⟩ := follow_eq_some followed
    · simpa [endsSession] using lasts session
    · simp at absurd

theorem liveSession_eq_some (log : List StorageEvent) :
    liveSession token log = some session ↔ Lives token session log := by
  constructor
  · -- The last event created the session, or it was live before and the event let it live.
    induction log using List.reverseRecOn with
    | nil => simp [liveSession]
    | append_singleton log event ih =>
      intro live
      rw [liveSession_append] at live
      obtain rfl | ⟨held, lasts⟩ := StorageEvent.follow_eq_some live
      · exact ⟨log, [], rfl, by simp⟩
      · obtain ⟨before, after, split, quiet⟩ := ih held
        refine ⟨before, after ++ [event], by simp [split], fun other member => ?_⟩
        rcases List.mem_append.mp member with member | member
        · exact quiet other member
        · rw [List.mem_singleton.mp member]
          exact lasts
  · rintro ⟨before, after, rfl, quiet⟩
    rw [liveSession_append, List.foldl_cons]
    have created : StorageEvent.follow token (liveSession token before)
        (.sessionCreated token session) = some session := by simp [StorageEvent.follow]
    rw [created]
    induction after with
    | nil => rfl
    | cons event rest ih =>
      rw [List.foldl_cons, StorageEvent.follow_of_lasts (quiet event List.mem_cons_self)]
      exact ih (fun other member => quiet other (List.mem_cons_of_mem _ member))

-- A lookup finds the user of the session that lives under the token, and nothing otherwise.
def LookedUp (log : List StorageEvent) : StorageEvent → Prop
  | .userBySession token _ result =>
      ∀ userId, result = .ok userId ↔ ∃ session, Lives token session log ∧ session.userId = userId
  | _ => True

namespace JsonStorage

def Tracked (log : List StorageEvent) (storage : JsonStorage) : Prop :=
  ∀ token, storage.sessions.get? token = liveSession token log

variable {log : List StorageEvent} {storage : JsonStorage} {ticket now : Nat} {draw : Draw}
  {stage : Stage}

-- Events that say nothing of sessions, or of lookups, leave everything as it is tracked.
def Quiet (events : List StorageEvent) : Prop :=
  ∀ event ∈ events, (∀ token held, event.follow token held = held) ∧ ∀ log, LookedUp log event

theorem quiet_nil : Quiet [] := by simp [Quiet]

theorem quiet_singleton {event : StorageEvent}
    (lasts : ∀ token session, event.endsSession token session = false)
    (silent : ∀ log, LookedUp log event) : Quiet [event] := by
  intro other member
  rw [List.mem_singleton.mp member]
  exact ⟨fun token => StorageEvent.follow_eq_self (lasts token), silent⟩

theorem quiet_returned (ticket : Nat) (reply : StorageReply) : Quiet [.returned ticket reply] :=
  quiet_singleton (fun _ _ => rfl) (fun _ => trivial)

theorem Quiet.foldl {events : List StorageEvent} (quiet : Quiet events) (token : SessionToken)
    (held : Option JsonStorage.Session) : events.foldl (StorageEvent.follow token) held = held := by
  induction events with
  | nil => rfl
  | cons event rest ih =>
    rw [List.foldl_cons, (quiet event List.mem_cons_self).1]
    exact ih (fun other member => quiet other (List.mem_cons_of_mem _ member))

-- What is tracked of the sessions, and that every lookup so far told the truth.
structure Truthful (log : List StorageEvent) (storage : JsonStorage) : Prop where
  tracked : Tracked log storage
  lookups : Runs.Emissions LookedUp log

theorem Truthful.quiet (truthful : Truthful log storage) {next : JsonStorage}
    {events : List StorageEvent} (sessions : next.sessions = storage.sessions)
    (quiet : Quiet events) : Truthful (log ++ events) next := by
  constructor
  · intro token
    rw [sessions, liveSession_append, quiet.foldl, truthful.tracked token]
  · exact truthful.lookups.append (fun before event member => (quiet event member).2 before)

/-- An event that changes sessions, with the change it reports. -/
theorem Truthful.changes (truthful : Truthful log storage) {next : JsonStorage}
    (event : StorageEvent)
    (sessions : ∀ token, next.sessions.get? token =
      event.follow token (storage.sessions.get? token))
    (silent : ∀ log, LookedUp log event) : Truthful (log ++ [event]) next := by
  constructor
  · intro token
    rw [sessions, liveSession_append, truthful.tracked token]
    rfl
  · exact truthful.lookups.concat (silent log)

theorem Truthful.move (truthful : Truthful log storage) {next : JsonStorage}
    {events : List StorageEvent} (move : Move storage ticket draw now stage next events) :
    Truthful (log ++ events) next := by
  cases move with
  | wait | moved | userModified | roleRemoved | roleWritten | hostsWritten | unchanged | sentOn =>
    exact truthful.quiet rfl quiet_nil
  | ended reply | sent reply => exact truthful.quiet rfl (quiet_returned ticket reply)
  | userAdded | userRemoved | roleUsersRemoved =>
    exact truthful.quiet rfl (quiet_singleton (fun _ _ => rfl) (fun _ => trivial))
  | sessionCreated token userId expiration =>
    have created : Truthful (log ++ [StorageEvent.sessionCreated token ⟨now, expiration, userId⟩])
        (storage.createSession ticket token ⟨now, expiration, userId⟩).1 := by
      refine truthful.changes _ (fun other => ?_) (fun _ => trivial)
      simp only [createSession, JsonStorage.reply, OrdMap.get?_insert, StorageEvent.follow,
        eq_comm (a := other)]
    simpa [createSession] using created.quiet rfl (quiet_returned ticket (.sessionToken token))
  | sessionRemoved token =>
    have removed : Truthful (log ++ [StorageEvent.sessionRemoved token])
        (storage.removeSessionToken ticket token).1 := by
      refine truthful.changes _ (fun other => ?_) (fun _ => trivial)
      simp only [removeSessionToken, JsonStorage.reply, OrdMap.get?_erase]
      split_ifs with same
      · simp [StorageEvent.follow, StorageEvent.endsSession, same]
      · refine (StorageEvent.follow_eq_self (fun session => ?_) _).symm
        simpa [StorageEvent.endsSession] using Ne.symm same
    simpa [removeSessionToken] using removed.quiet rfl (quiet_returned ticket .done)
  | sessionsRemoved userId =>
    have removed : Truthful (log ++ [StorageEvent.userSessionsRemoved userId])
        (storage.removeAllUserSessionTokens ticket userId).1 := by
      refine truthful.changes _ (fun other => ?_) (fun _ => trivial)
      simp only [removeAllUserSessionTokens, JsonStorage.reply, OrdMap.get?_filter,
        StorageEvent.follow, StorageEvent.endsSession]
      simp [eq_comm]
    simpa [removeAllUserSessionTokens] using removed.quiet rfl (quiet_returned ticket .done)

theorem Truthful.step (truthful : Truthful log storage) (config : WebServerConfig)
    (input : StorageStep) :
    Truthful (log ++ (storage.step config input).2) (storage.step config input).1 := by
  by_cases writes : input.ofWriter
  · obtain ⟨_, _, _, same⟩ := storage.step_of_writer config writes
    rw [same]
    exact truthful.quiet rfl quiet_nil
  cases input with
  | call request => exact truthful.quiet rfl quiet_nil
  | advance ticket draw now =>
    simp only [JsonStorage.step]
    split
    next stage found => exact truthful.move (storage.advance_move ticket draw now config stage)
    · exact truthful.quiet rfl quiet_nil
  | userBySession token now =>
    have told : LookedUp log (.userBySession token now (storage.userBySession token)) := by
      intro userId
      simp only [← liveSession_eq_some, ← truthful.tracked token, JsonStorage.userBySession]
      split
      next session found => simp [found]
      next absent => simp [absent]
    refine ⟨fun other => ?_, truthful.lookups.concat told⟩
    simp only [JsonStorage.step, liveSession_append, List.foldl_cons, List.foldl_nil]
    rw [StorageEvent.follow_eq_self (fun _ => rfl)]
    exact truthful.tracked other
  | sweepSessions now =>
    refine truthful.changes (.sessionsSwept now) (fun token => ?_) (fun _ => trivial)
    simp only [JsonStorage.step, JsonStorage.sweepSessions, OrdMap.get?_filter,
      StorageEvent.follow, StorageEvent.endsSession, ← decide_not, Nat.not_le]
  | receive | snapshot | readEntry _ | writeFile => exact absurd rfl writes

def oneUser : V3 :=
  { users := V3.empty.users.insert 1 ⟨1, "ann", none, "ann"⟩
    hosts := V3.empty.hosts
    roles := V3.empty.roles.insert 1 firstAdmin }

def tokenSeven : Draw := ⟨none, some ⟨7⟩⟩

-- A session that lasts 10 is created at 0, looked up at 20 and swept at 30.
def sweptLate : List StorageStep :=
  [.call (.createSessionToken 1 10), .advance 0 tokenSeven 0, .advance 0 tokenSeven 0,
    .userBySession ⟨7⟩ 20, .sweepSessions 30, .userBySession ⟨7⟩ 31]

-- The user is removed after its session was created.
def removedUser : List StorageStep :=
  [.call (.createSessionToken 1 10), .advance 0 tokenSeven 0, .advance 0 tokenSeven 0,
    .call (.removeUser 1), .advance 1 tokenSeven 1, .advance 1 tokenSeven 1, .userBySession ⟨7⟩ 2]

end JsonStorage

end BetterParsec
