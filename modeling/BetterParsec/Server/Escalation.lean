import BetterParsec.Server.Authorization

set_option autoImplicit false
set_option linter.all false

/-!
# No one raises himself

What a request writes was allowed at moments that may be over, and the sections of other requests
come in between. All the same, only a user who was an administrator from the start can make
another one, so that no interleaving of the other requests does.
-/

namespace BetterParsec

-- A role id that is not the one of a role of administrators.
def V3.PlainRole (data : V3) (roleId : UInt32) : Prop :=
  ∀ role, data.roles.get? roleId = some role → role.ty = .user

def V3.IsAdmin (data : V3) (id : UInt32) : Prop :=
  ∃ user role, data.users.get? id = some user ∧ data.roles.get? user.roleId = some role ∧
    role.ty = .admin

/-- How the data may differ from what it was at the start, `initial`. -/
structure V3.Unraised (initial data : V3) : Prop where
  keptRoles : ∀ id role, initial.roles.get? id = some role → data.roles.get? id = some role
  newRoles : ∀ id role, data.roles.get? id = some role →
    initial.roles.get? id = some role ∨ role.ty = .user
  keptUsers : ∀ id user, initial.users.get? id = some user →
    ∃ later, data.users.get? id = some later
  newUsers : ∀ id user, data.users.get? id = some user →
    (∃ before, initial.users.get? id = some before ∧ before.roleId = user.roleId) ∨
      initial.PlainRole user.roleId

namespace V3

variable {initial data : V3} {id : UInt32}

theorem unraised_refl (data : V3) : data.Unraised data :=
  ⟨fun _ _ => id, fun _ _ => .inl, fun _ user found => ⟨user, found⟩,
    fun _ user found => .inl ⟨user, found, rfl⟩⟩

/-- A role of administrators is one from the start. -/
theorem Unraised.adminRole (unraised : initial.Unraised data) {role : V3Role}
    (found : data.roles.get? id = some role) (admin : role.ty = .admin) :
    initial.roles.get? id = some role := by
  rcases unraised.newRoles id role found with kept | plain
  · exact kept
  · rw [admin] at plain
    cases plain

theorem Unraised.plain (unraised : initial.Unraised data) {role : V3Role}
    (found : data.roles.get? id = some role) (plain : role.ty = .user) : initial.PlainRole id := by
  intro before was
  rw [unraised.keptRoles id before was] at found
  rw [Option.some.inj found]
  exact plain

/-- What is known of a user and of the role, each at a moment of its own. -/
theorem Unraised.admin {later : V3} (atUser : initial.Unraised data)
    (atRole : initial.Unraised later) {user : V3User} {role : V3Role}
    (isUser : data.users.get? id = some user) (isRole : later.roles.get? user.roleId = some role)
    (admin : role.ty = .admin) : initial.IsAdmin id := by
  have isRole := atRole.adminRole isRole admin
  rcases atUser.newUsers id user isUser with ⟨before, was, same⟩ | plain
  · exact ⟨before, role, was, by rw [same]; exact isRole, admin⟩
  · rw [plain role isRole] at admin
    cases admin

theorem Unraised.withUsers (unraised : initial.Unraised data) {users : OrdMap UInt32 V3User}
    (kept : ∀ id user, data.users.get? id = some user → ∃ later, users.get? id = some later)
    (new : ∀ id user, users.get? id = some user →
      (∃ before, data.users.get? id = some before ∧ before.roleId = user.roleId) ∨
        initial.PlainRole user.roleId) :
    initial.Unraised { data with users := users } where
  keptRoles := unraised.keptRoles
  newRoles := unraised.newRoles
  keptUsers other user was := by
    obtain ⟨later, found⟩ := unraised.keptUsers other user was
    exact kept other later found
  newUsers other user found := by
    rcases new other user found with ⟨before, held, same⟩ | plain
    · rcases unraised.newUsers other before held with ⟨first, was, same'⟩ | plain
      · exact .inl ⟨first, was, same'.trans same⟩
      · exact .inr (same ▸ plain)
    · exact .inr plain

theorem Unraised.userPut (unraised : initial.Unraised data) {user : V3User}
    (role : (∃ before, data.users.get? id = some before ∧ before.roleId = user.roleId) ∨
      initial.PlainRole user.roleId) :
    initial.Unraised { data with users := data.users.insert id user } := by
  refine unraised.withUsers (fun other held found => ?_) (fun other held found => ?_)
  · rw [OrdMap.get?_insert]
    split_ifs
    · exact ⟨user, rfl⟩
    · exact ⟨held, found⟩
  · rw [OrdMap.get?_insert] at found
    split_ifs at found with same
    · obtain rfl : user = held := Option.some.inj found
      rw [same]
      exact role
    · exact .inl ⟨held, found, rfl⟩

theorem Unraised.rolePut (unraised : initial.Unraised data) {role : V3Role}
    (fresh : data.roles.get? id = none) (plain : role.ty = .user) :
    initial.Unraised { data with roles := data.roles.insert id role } where
  keptRoles other held was := by
    have found := unraised.keptRoles other held was
    dsimp only
    rw [OrdMap.get?_insert, if_neg ?_]
    · exact found
    · rintro rfl
      simp [fresh] at found
  newRoles other held found := by
    rw [OrdMap.get?_insert] at found
    split_ifs at found
    · exact .inr (Option.some.inj found ▸ plain)
    · exact unraised.newRoles other held found
  keptUsers := unraised.keptUsers
  newUsers := unraised.newUsers

end V3

-- What no request may write that is not an administrator's.
def StorageRequest.Harmless (initial : V3) : StorageRequest → Prop
  | .addRole role => role.ty = .user
  | .addUser user => initial.PlainRole user.roleId
  | .modifyUser _ modify => modify.roleId = none
  | .modifyRole _ _ | .removeRole _ | .removeUser _ => False
  | .addHost _ | .modifyHost _ _ | .removeHost _ | .createSessionToken _ _ | .removeSessionToken _
  | .removeAllUserSessionTokens _ | .tryAddFirstLogin _ _ => True

-- A first login gets no further than finding a user.
def Stage.Harmless (initial : V3) : Stage → Prop
  | .begun request => request.Harmless initial
  | .nameFree user false => initial.PlainRole user.roleId
  | .noUserYet _ _ | .adminMissing _ _ | .adminKnown _ _ _ | .nameFree _ true | .usersRemoved _
  | .changed (.adminAdded _ _ _) => False
  | .changed (.reply _) | .changed (.firstUserAdded _) | .changed (.hostAssigned _ _)
  | .tokenFree _ _ _ | .listingHosts _ | .assigningHosts _ _ => True

namespace JsonStorage

structure Unraised (initial : V3) (storage : JsonStorage) : Prop where
  data : initial.Unraised storage.data
  stages : ∀ ticket stage, storage.requests.get? ticket = some stage → stage.Harmless initial

variable {initial : V3} {storage : JsonStorage} {ticket now : Nat} {draw : Draw}

theorem Unraised.at (unraised : storage.Unraised initial) {stage : Stage}
    (harmless : stage.Harmless initial) {data : V3} (later : initial.Unraised data) :
    Unraised initial
      { storage with data := data, requests := storage.requests.insert ticket stage } := by
  refine ⟨later, fun other held found => ?_⟩
  dsimp only at found
  rw [OrdMap.get?_insert] at found
  split_ifs at found
  · exact Option.some.inj found ▸ harmless
  · exact unraised.stages other held found

theorem Unraised.change (unraised : storage.Unraised initial) {next : AfterWrite}
    (harmless : (Stage.changed next).Harmless initial) {data : V3}
    (later : initial.Unraised data) : Unraised initial (storage.change ticket data next) :=
  unraised.at harmless later

theorem Unraised.proceed (unraised : storage.Unraised initial) {stage : Stage}
    (harmless : stage.Harmless initial) : Unraised initial (storage.proceed ticket stage) :=
  unraised.at harmless unraised.data

theorem Unraised.reply (unraised : storage.Unraised initial) (reply : StorageReply) :
    Unraised initial (storage.reply ticket reply).1 := by
  refine ⟨unraised.data, fun other held found => ?_⟩
  rw [JsonStorage.reply, OrdMap.get?_erase] at found
  split_ifs at found
  exact unraised.stages other held found

theorem Unraised.insertFresh (unraised : storage.Unraised initial) {used : UInt32 → Bool}
    {insert : UInt32 → JsonStorage × List StorageEvent}
    (inserted : ∀ id, used id = false → Unraised initial (insert id).1) :
    Unraised initial (storage.insertFresh ticket draw.id used insert).1 := by
  unfold JsonStorage.insertFresh
  split
  · exact unraised.reply _
  next id _ =>
    cases taken : used id with
    | true => exact unraised
    | false => exact inserted id taken

theorem Unraised.begin (unraised : storage.Unraised initial) (config : WebServerConfig)
    (started : ∃ id user, initial.users.get? id = some user) {request : StorageRequest}
    (harmless : request.Harmless initial) :
    Unraised initial (storage.begin config ticket draw request).1 := by
  have same (next : AfterWrite) (quiet : (Stage.changed next).Harmless initial)
      (hosts : OrdMap UInt32 V2Host) :
      Unraised initial (storage.change ticket { storage.data with hosts := hosts } next) :=
    unraised.at quiet ⟨unraised.data.keptRoles, unraised.data.newRoles, unraised.data.keptUsers,
      unraised.data.newUsers⟩
  cases request with
  | addRole role =>
    exact unraised.insertFresh fun id free =>
      unraised.change (by exact trivial)
        (unraised.data.rolePut ((OrdMap.contains_eq_false _ _).mp free) harmless)
  | addUser user =>
    simp only [JsonStorage.begin, checkName]
    split
    · exact unraised.reply _
    · exact unraised.proceed harmless
  | modifyUser id modify =>
    simp only [JsonStorage.begin, modifyUser]
    split
    · exact unraised.reply _
    next user found =>
      have keeps : user.roleId = (modify.apply user).roleId := by
        have none : modify.roleId = none := harmless
        simp [UserModify.apply, none]
      exact unraised.change (by exact trivial) (unraised.data.userPut (.inl ⟨user, found, keeps⟩))
  | addHost host => exact unraised.insertFresh fun id _ => same _ (by exact trivial) _
  | modifyHost hostId modify =>
    simp only [JsonStorage.begin, modifyHost]
    split
    · exact unraised.reply _
    · exact same _ (by exact trivial) _
  | removeHost hostId =>
    simp only [JsonStorage.begin, removeHost]
    split
    · exact unraised.reply _
    · exact same _ (by exact trivial) _
  | createSessionToken userId expiration =>
    simp only [JsonStorage.begin, drawToken]
    split
    · exact unraised.reply _
    · split_ifs
      · exact unraised
      · exact unraised.proceed trivial
  | removeSessionToken token =>
    have removed : Unraised initial { storage with sessions := storage.sessions.erase token } :=
      ⟨unraised.data, unraised.stages⟩
    exact removed.reply .done
  | removeAllUserSessionTokens userId =>
    have removed (sessions : OrdMap SessionToken JsonStorage.Session) :
        Unraised initial { storage with sessions := sessions } := ⟨unraised.data, unraised.stages⟩
    exact (removed _).reply .done
  | tryAddFirstLogin username password =>
    obtain ⟨id, user, found⟩ := started
    obtain ⟨later, held⟩ := unraised.data.keptUsers id user found
    have some : storage.data.users.size ≠ 0 := fun none => by
      rw [(OrdMap.size_eq_zero _).mp none id] at held
      cases held
    simp only [JsonStorage.begin, if_pos some]
    split_ifs
    · exact unraised.reply _
    · exact unraised.reply _
  | modifyRole | removeRole | removeUser => exact harmless.elim

theorem Unraised.advance (unraised : storage.Unraised initial) (config : WebServerConfig)
    (started : ∃ id user, initial.users.get? id = some user) {stage : Stage}
    (harmless : stage.Harmless initial) :
    Unraised initial (storage.advance config ticket draw now stage).1 := by
  cases stage with
  | begun request => exact unraised.begin config started harmless
  | nameFree user first =>
    cases first with
    | false =>
      exact unraised.insertFresh fun id _ =>
        unraised.change (by exact trivial) (unraised.data.userPut (.inr harmless))
    | true => exact harmless.elim
  | tokenFree token userId expiration =>
    have created (sessions : OrdMap SessionToken JsonStorage.Session) :
        Unraised initial { storage with sessions := sessions } := ⟨unraised.data, unraised.stages⟩
    exact (created _).reply (.sessionToken token)
  | changed next =>
    have sent : Unraised initial { storage with queued := true } :=
      ⟨unraised.data, unraised.stages⟩
    cases next with
    | reply reply => exact sent.reply reply
    | firstUserAdded userId =>
      simp only [JsonStorage.advance, forceWrite]
      split_ifs
      · exact sent.proceed trivial
      · exact sent.reply _
    | hostAssigned userId hosts => exact sent.proceed trivial
    | adminAdded => exact harmless.elim
  | listingHosts userId => exact unraised.proceed trivial
  | assigningHosts userId hosts =>
    simp only [JsonStorage.advance]
    unfold assignHost
    split
    · exact unraised.reply _
    · split
      · exact unraised.proceed trivial
      · exact unraised.change (by exact trivial) ⟨unraised.data.keptRoles, unraised.data.newRoles,
          unraised.data.keptUsers, unraised.data.newUsers⟩
  | noUserYet | adminMissing | adminKnown | usersRemoved => exact harmless.elim

theorem Unraised.step (unraised : storage.Unraised initial) (config : WebServerConfig)
    (started : ∃ id user, initial.users.get? id = some user) {input : StorageStep}
    (harmless : ∀ request, input = .call request → request.Harmless initial) :
    Unraised initial (storage.step config input).1 := by
  by_cases writes : input.ofWriter
  · obtain ⟨queued, writer, file, same⟩ := storage.step_of_writer config writes
    rw [same]
    exact ⟨unraised.data, unraised.stages⟩
  cases input with
  | call request =>
    have begun : (Stage.begun request).Harmless initial := harmless request rfl
    exact ⟨unraised.data, (unraised.proceed begun).stages⟩
  | advance ticket draw now =>
    simp only [JsonStorage.step]
    split
    next stage found => exact unraised.advance config started (unraised.stages ticket stage found)
    next => exact unraised
  | userBySession => exact unraised
  | sweepSessions => exact ⟨unraised.data, unraised.stages⟩
  | receive | snapshot | readEntry | writeFile => exact absurd rfl writes

end JsonStorage

namespace Api

section Escalation

variable {config : Config} {pbkdf2 : Pbkdf2} {initial : V3}

def Unraised (initial : V3) (store : Store) : Prop := store.storage.Unraised initial

-- A request of a user who was an administrator at the start.
def ByFirstAdmin (config : Config) (pbkdf2 : Pbkdf2) (initial : V3) (moments : List Store)
    (job : Job) : Prop :=
  ∃ id, By config pbkdf2 (Calls.Amid moments) job.request id ∧ initial.IsAdmin id

theorem byFirstAdmin_of_byAdmin {moments : List Store} {job : Job}
    (always : ∀ moment ∈ moments, Unraised initial moment)
    (admin : ByAdmin config pbkdf2 (Calls.Amid moments) job.request) :
    ByFirstAdmin config pbkdf2 initial moments job := by
  obtain ⟨id, identified, roleId, atUser, atRole⟩ := admin
  obtain ⟨first, among, user, isUser, rfl⟩ := atUser
  obtain ⟨second, among', role, isRole, admin⟩ := atRole
  exact ⟨id, identified,
    (always first among).data.admin (always second among').data isUser isRole admin⟩

/-- Only a request of an administrator may write what is not harmless. -/
theorem harmless_of_mayWrite (plain : ∀ roleId ∈ config.defaultRoleId, initial.PlainRole roleId)
    {moments : List Store} {job : Job} {written : StorageRequest}
    (always : ∀ moment ∈ moments, Unraised initial moment)
    (unbroken : ¬ByFirstAdmin config pbkdf2 initial moments job)
    (may : MayWrite config pbkdf2 (Calls.Amid moments) job.request written) :
    written.Harmless initial := by
  have noAdmin : ¬ByAdmin config pbkdf2 (Calls.Amid moments) job.request := fun admin =>
    unbroken (byFirstAdmin_of_byAdmin always admin)
  cases written with
  | addRole role =>
    obtain ⟨rfl, -⟩ := may.resolve_left noAdmin
    rfl
  | addUser user =>
    obtain ⟨-, -, configured | ⟨moment, among, role, isRole, ty⟩⟩ := may.resolve_left noAdmin
    · exact plain user.roleId configured
    · exact (always moment among).data.plain isRole ty
  | modifyUser id modify => exact (may.resolve_left noAdmin).2.1
  | modifyRole => exact noAdmin may.1
  | removeRole | removeUser => exact noAdmin may
  | _ => trivial

theorem server_keeps (started : ∃ id user, initial.users.get? id = some user)
    (plain : ∀ roleId ∈ config.defaultRoleId, initial.PlainRole roleId) :
    Calls.System.Keeps (server config pbkdf2) (rules config pbkdf2) (Unraised initial)
      (ByFirstAdmin config pbkdf2 initial) where
  mono _ _ _ more := by
    rintro ⟨id, identified, admin⟩
    exact ⟨id, identified.mono (Calls.Amid.mono more), admin⟩
  serves moments store job token op choice allowed unbroken always unraised := by
    cases op with
    | write written =>
      have harmless := harmless_of_mayWrite plain always unbroken allowed
      change Unraised initial (serveWrite config store written choice.1 choice.2 token).1
      cases token with
      | none =>
        exact JsonStorage.Unraised.step unraised config.webServer started fun request same =>
          StorageStep.call.inj same ▸ harmless
      | some ticket =>
        have worked : Unraised initial (store.work config (.advance ticket choice.1 choice.2)).1 :=
          JsonStorage.Unraised.step unraised config.webServer started (by simp)
        simp only [serveWrite]
        split <;> exact worked
    | _ => exact unraised
  background store work unraised :=
    JsonStorage.Unraised.step unraised config.webServer started fun request same => by
      cases work <;> simp [Background.step] at same

end Escalation

section Runs

variable (config : Config) (pbkdf2 : Pbkdf2)

/-- Once there is a user, whoever is an administrator after a run was one at the start, or a request
was made by someone who was: whatever the others do at once, none of them becomes one. -/
theorem run_raises_nobody (data : V3) (actions : List (Calls.Action Request Op Background Choice))
    (started : ∃ id user, data.users.get? id = some user)
    (plain : ∀ roleId ∈ config.defaultRoleId, data.PlainRole roleId) (id : UInt32)
    (admin : (run config pbkdf2 data actions).store.storage.data.IsAdmin id) :
    data.IsAdmin id ∨ ∃ task ∈ (run config pbkdf2 data actions).tasks,
      ByFirstAdmin config pbkdf2 data task.moments task.job := by
  have initial : Unraised data (Store.load data) :=
    ⟨V3.unraised_refl data, fun _ _ found => by simp [Store.load, JsonStorage.load] at found⟩
  rcases Calls.System.run_kept server_truthful server_obeys (server_keeps started plain)
    (Store.load data) actions initial with broken | ⟨unraised, -⟩
  · exact .inr broken
  · obtain ⟨user, role, isUser, isRole, ty⟩ := admin
    exact .inl (unraised.data.admin unraised.data isUser isRole ty)

def annAndBob : V3 :=
  ⟨(OrdMap.empty.insert 1 ⟨2, "ann", none, "ann"⟩).insert 7 ⟨3, "bob", none, "bob"⟩, .empty,
    (OrdMap.empty.insert 2 firstAdmin).insert 3 defaultUserRole⟩

-- The administrator promotes the other user.
def promotion : List (Calls.Action Request Op Background Choice) :=
  .arrive (unsigned (.patchUser 7 none (some 2) none)) :: List.replicate 6 (.perform 0 willing)

theorem run_raises_nobody_promotion :
    (run annIsDefault noHash annAndBob promotion).store.storage.data.IsAdmin 7 ∧
    (annAndBob.IsAdmin 7 ∨ ∃ task ∈ (run annIsDefault noHash annAndBob promotion).tasks,
      ByFirstAdmin annIsDefault noHash annAndBob task.moments task.job) :=
  have admin : (run annIsDefault noHash annAndBob promotion).store.storage.data.IsAdmin 7 :=
    ⟨_, _, rfl, rfl, rfl⟩
  ⟨admin, run_raises_nobody annIsDefault noHash annAndBob promotion ⟨1, _, rfl⟩
    (by simp [annIsDefault]) 7 admin⟩

end Runs

end Api

end BetterParsec
