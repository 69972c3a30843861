import BetterParsec.Server.StorageMoves

set_option autoImplicit false
set_option linter.all false

/-!
# The first login

Between `any_user_exists` and the insertion of `add_user` a first login holds no
lock. It creates the only administrator as long as the store is still empty when
it inserts.
-/

namespace BetterParsec

def StorageEvent.isFirstLogin : StorageEvent → Bool
  | returned _ reply => reply.isFirstLogin
  | userAdded _ | usersRemoved _ | sessionCreated _ _ | sessionRemoved _ | userSessionsRemoved _
  | sessionsSwept _ | userBySession _ _ _ => false

def firstLogins (log : List StorageEvent) : Nat := log.countP StorageEvent.isFirstLogin

def StorageStep.callsFirstLogin : StorageStep → Bool
  | call (.tryAddFirstLogin _ _) => true
  | call _ => false
  | advance _ _ _ | userBySession _ _ | sweepSessions _ | receive | snapshot | readEntry _
  | writeFile => true

namespace JsonStorage

-- A first login that inserts its user still finds no other.
def StillFirst (storage : JsonStorage) : StorageStep → Prop
  | .advance ticket draw _ =>
      match storage.requests.get? ticket with
      | some (.nameFree _ true) => storage.Inserts draw → storage.data.users.size = 0
      | _ => True
  | .call _ | .userBySession _ _ | .sweepSessions _ | .receive | .snapshot | .readEntry _
  | .writeFile => True

def owning (stage : Stage) : Nat := if stage.ownsFirst then 1 else 0

-- The returned and the coming successes come from one inserted user.
structure Single (log : List StorageEvent) (storage : JsonStorage) : Prop where
  stages : ∀ ticket stage, storage.requests.get? ticket = some stage → stage.ofFirstLogin = true
  one : firstLogins log + storage.requests.weight owning ≤ min 1 storage.data.users.size

variable {log : List StorageEvent} {storage : JsonStorage} {ticket now : Nat} {draw : Draw}
  {stage : Stage}

theorem firstLogins_append (log more : List StorageEvent) :
    firstLogins (log ++ more) = firstLogins log + firstLogins more := by
  simp [firstLogins]

/-- The request returns; a success was counted as coming. -/
theorem Single.ended (single : Single log storage)
    (found : storage.requests.get? ticket = some stage) {reply : StorageReply}
    (owner : reply.isFirstLogin → stage.ownsFirst) :
    Single (log ++ (storage.reply ticket reply).2) (storage.reply ticket reply).1 := by
  have weight := storage.requests.weight_erase owning ticket stage found
  have fewer (other : Nat) (later : Stage)
      (held : (storage.requests.erase ticket).get? other = some later) :
      storage.requests.get? other = some later := by
    rw [OrdMap.get?_erase] at held
    split_ifs at held
    exact held
  refine ⟨fun other later held => single.stages other later (fewer other later held), ?_⟩
  have counted : firstLogins [.returned ticket reply] ≤ owning stage := by
    cases success : reply.isFirstLogin with
    | false => simp [firstLogins, StorageEvent.isFirstLogin, success]
    | true => simp [firstLogins, StorageEvent.isFirstLogin, success, owning, owner success]
  have one := single.one
  simp only [JsonStorage.reply]
  rw [firstLogins_append]
  omega

/-- The request goes on and nothing of the users changes. -/
theorem Single.goesOn (single : Single log storage)
    (found : storage.requests.get? ticket = some stage) {next : JsonStorage} {later : Stage}
    (users : next.data.users = storage.data.users)
    (requests : next.requests = storage.requests.insert ticket later)
    (owner : later.ownsFirst = stage.ownsFirst) (kind : later.ofFirstLogin = stage.ofFirstLogin) :
    Single log next := by
  have weight := storage.requests.weight_insert_of_some owning ticket stage later found
  refine ⟨fun other held => ?_, ?_⟩
  · rw [requests, OrdMap.get?_insert]
    split_ifs
    · rintro ⟨rfl⟩
      exact kind.trans (single.stages ticket stage found)
    · exact single.stages other held
  · have one := single.one
    have same : owning later = owning stage := by rw [owning, owning, owner]
    rw [requests, users]
    omega

theorem Single.inserted (single : Single log storage) {user : V3User} {id : UInt32}
    (found : storage.requests.get? ticket = some (.nameFree user true))
    (fresh : storage.data.users.get? id = none) (empty : storage.data.users.size = 0) :
    Single (log ++ [StorageEvent.userAdded id])
      (storage.change ticket (storage.putUser id user) (.firstUserAdded id)) := by
  have weight := storage.requests.weight_insert_of_some owning ticket _
    (.changed (.firstUserAdded id)) found
  have size := storage.data.users.size_insert_of_none id user fresh
  refine ⟨fun other held => ?_, ?_⟩
  · simp only [JsonStorage.change, OrdMap.get?_insert]
    split_ifs
    · rintro ⟨rfl⟩
      rfl
    · exact single.stages other held
  · have one := single.one
    have quiet : firstLogins [.userAdded id] = 0 := rfl
    have before : owning (.nameFree user true) = 0 := rfl
    have after : owning (.changed (.firstUserAdded id)) = 1 := rfl
    simp only [JsonStorage.change, putUser, firstLogins_append, quiet, size]
    omega

theorem Single.move (single : Single log storage) {next : JsonStorage} {events : List StorageEvent}
    (found : storage.requests.get? ticket = some stage)
    (move : Move storage ticket draw now stage next events)
    (first : storage.StillFirst (.advance ticket draw now)) : Single (log ++ events) next := by
  have kind := single.stages ticket stage found
  have queued : Single log { storage with queued := true } :=
    ⟨single.stages, single.one⟩
  cases move with
  | wait => simpa using single
  | ended reply _ owner => exact single.ended found owner
  | moved following _ _ owner same =>
    rw [List.append_nil]
    exact single.goesOn found rfl rfl owner same
  | userAdded user isFirst id drawn fresh =>
    cases isFirst with
    | false => simp [Stage.ofFirstLogin] at kind
    | true =>
      simp only [StillFirst, found] at first
      exact single.inserted found fresh (first ⟨id, drawn, fresh⟩)
  | userModified | userRemoved | roleUsersRemoved | roleRemoved | sessionCreated | sessionRemoved
  | sessionsRemoved => simp [Stage.ofFirstLogin] at kind
  | roleWritten roleId role following _ owner same =>
    rw [List.append_nil]
    exact single.goesOn found rfl rfl owner same
  | hostsWritten hosts following _ owner same =>
    rw [List.append_nil]
    exact single.goesOn found rfl rfl owner same
  | unchanged reply foreign => simp [foreign] at kind
  | sent reply owner => exact queued.ended found owner
  | sentOn following _ owner same =>
    rw [List.append_nil]
    exact queued.goesOn found rfl rfl owner same

theorem Single.call (single : Single log storage) (issued : storage.Issued) (username : String)
    (password : Option UserPassword) :
    Single log (storage.call (.tryAddFirstLogin username password)) := by
  have weight := storage.requests.weight_insert_of_none owning storage.nextTicket
    (.begun (.tryAddFirstLogin username password)) (issued _ le_rfl)
  refine ⟨fun other held => ?_, ?_⟩
  · simp only [JsonStorage.call, OrdMap.get?_insert]
    split_ifs
    · rintro ⟨rfl⟩
      rfl
    · exact single.stages other held
  · have one := single.one
    simp only [JsonStorage.call, weight]
    simpa [owning, Stage.ownsFirst] using one

theorem Single.step (single : Single log storage) (issued : storage.Issued)
    (config : WebServerConfig) (input : StorageStep)
    (calls : input.callsFirstLogin = true) (first : storage.StillFirst input) :
    Single (log ++ (storage.step config input).2) (storage.step config input).1 := by
  by_cases writes : input.ofWriter
  · obtain ⟨_, _, _, same⟩ := storage.step_of_writer config writes
    rw [same, List.append_nil]
    exact ⟨single.stages, single.one⟩
  cases input with
  | call request =>
    cases request with
    | tryAddFirstLogin username password =>
      simpa [JsonStorage.step] using single.call issued username password
    | _ => simp [StorageStep.callsFirstLogin] at calls
  | advance ticket draw now =>
    simp only [JsonStorage.step]
    split
    next stage found =>
      exact single.move found (storage.advance_move ticket draw now config stage) first
    · simpa using single
  | userBySession token now =>
    refine ⟨single.stages, ?_⟩
    rw [firstLogins_append]
    exact single.one
  | sweepSessions now =>
    refine ⟨single.stages, ?_⟩
    rw [firstLogins_append]
    exact single.one
  | receive | snapshot | readEntry _ | writeFile => exact absurd rfl writes

/-- In every interleaving of first logins at most one returns `Ok`, as long as each still finds no
user when it inserts its own. -/
theorem run_creates_one_admin (config : WebServerConfig) (data : V3)
    (steps : List StorageStep) (calls : ∀ input ∈ steps, input.callsFirstLogin = true)
    (first : Runs.Along (step config) (fun _ => StillFirst) [] (load data) steps) :
    firstLogins (Runs.run (step config) (load data) steps).2 ≤ 1 := by
  have only : Runs.Along (step config) (fun _ _ input => input.callsFirstLogin = true) []
      (load data) steps :=
    Runs.along_of_forall (fun input member _ _ => calls input member) [] (load data)
  have single := Runs.run_invariant (step config) _
    (fun log storage => storage.Issued ∧ Single log storage)
    (fun log storage input held guard =>
      ⟨held.1.step config input, held.2.step held.1 config input guard.1 guard.2⟩)
    [] (load data) steps ?_ (only.and first)
  · have one := single.2.one
    rw [List.nil_append] at one
    omega
  · refine ⟨fun _ _ => rfl, fun ticket stage found => ?_, ?_⟩
    · simp [load] at found
    · simp [load, firstLogins]

def insertsFirst : Option Stage → Bool
  | some (.nameFree _ first) => first
  | _ => false

theorem stillFirst_iff (storage : JsonStorage) (ticket now : Nat) (draw : Draw) :
    storage.StillFirst (.advance ticket draw now) ↔
      (insertsFirst (storage.requests.get? ticket) = true → storage.Inserts draw →
        storage.data.users.size = 0) := by
  dsimp only [StillFirst]
  split
  next found => simp [found, insertsFirst]
  next other =>
    refine ⟨fun _ inserts => ?_, fun _ => trivial⟩
    unfold insertsFirst at inserts
    split at inserts
    next user first found =>
      subst inserts
      exact absurd found (other user)
    next => simp at inserts

instance decidableStillFirst (storage : JsonStorage) (input : StorageStep) :
    Decidable (storage.StillFirst input) :=
  match input with
  | .advance ticket draw now => decidable_of_iff' _ (storage.stillFirst_iff ticket now draw)
  | .call _ | .userBySession _ _ | .sweepSessions _ | .receive | .snapshot | .readEntry _
  | .writeFile => .isTrue trivial

def firstLoginAs (username : String) : StorageStep :=
  .call (.tryAddFirstLogin username (some ⟨0, 0, 1⟩))

def turn (ticket : Nat) (id : UInt32) : StorageStep := .advance ticket ⟨some id, none⟩ 0

-- Two first logins, the second called when the first has inserted its user.
def secondTooLate : List StorageStep :=
  [firstLoginAs "ann", turn 0 1, turn 0 1, turn 0 1, turn 0 1, turn 0 1, turn 0 2,
    firstLoginAs "bob", turn 1 3, turn 0 2]

theorem run_creates_one_admin_second_too_late :
    firstLogins (Runs.run (step ⟨true, false⟩) (load .empty) secondTooLate).2 ≤ 1 :=
  run_creates_one_admin _ _ secondTooLate (by decide +kernel) (by decide +kernel)

-- Both ask whether any user exists before either inserts one.
def bothFirst : List StorageStep :=
  [firstLoginAs "ann", firstLoginAs "bob"] ++
    (List.range 7).flatMap (fun _ => [turn 0 1, turn 1 2])

theorem run_creates_two_admins :
    (∀ input ∈ bothFirst, input.callsFirstLogin = true) ∧ V3.empty.users.size = 0 ∧
      ¬ firstLogins (Runs.run (step ⟨true, false⟩) (load .empty) bothFirst).2 ≤ 1 := by
  refine ⟨by decide +kernel, rfl, by decide +kernel⟩

end JsonStorage

end BetterParsec
