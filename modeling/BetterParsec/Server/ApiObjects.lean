import BetterParsec.Server.ApiRules

set_option autoImplicit false
set_option linter.all false

/-!
# What the objects of the application know

One lemma for each method of `User`, `Role` and `Host`: whatever its calls are answered, it only
calls for what the request may do, and what it returns was in the store.
-/

namespace BetterParsec

namespace Api

abbrev Attested (seen : List (Calls.Observation Answer)) : Calls.Facts Store :=
  Calls.Attests Tells seen

def Yields {A : Type} (config : Config) (pbkdf2 : Pbkdf2) (job : Job)
    (post : Calls.Facts Store → A → Prop) (handler : H A)
    (seen : List (Calls.Observation Answer)) : Prop :=
  Calls.Gives
    (fun seen op => (server config pbkdf2).Permits (rules config pbkdf2) (Attested seen) job op)
    (fun seen failure => MayEnd config pbkdf2 (Attested seen) job (.error failure))
    (fun seen value => post (Attested seen) value) handler seen

variable {config : Config} {pbkdf2 : Pbkdf2} {job : Job}
  {seen : List (Calls.Observation Answer)}

section Steps

variable {A B : Type} {post : Calls.Facts Store → A → Prop}

theorem Yields.bind {handler : H A} {next : A → H B} {after : Calls.Facts Store → B → Prop}
    (first : Yields config pbkdf2 job post handler seen)
    (second : ∀ later value, Attested seen ≤ Attested later → post (Attested later) value →
      Yields config pbkdf2 job after (next value) later) :
    Yields config pbkdf2 job after (handler >>= next) seen :=
  Calls.Gives.bind first fun later value more holds =>
    second later value (Calls.Attests.mono more) holds

theorem Yields.mono {handler : H A} {weaker : Calls.Facts Store → A → Prop}
    (first : Yields config pbkdf2 job post handler seen)
    (weakens : ∀ later value, Attested seen ≤ Attested later → post (Attested later) value →
      weaker (Attested later) value) :
    Yields config pbkdf2 job weaker handler seen :=
  Calls.Gives.mono first fun later value more holds =>
    weakens later value (Calls.Attests.mono more) holds

theorem pure_yields {value : A} (holds : post (Attested seen) value) :
    Yields config pbkdf2 job post (pure value) seen := Calls.Gives.pure holds

theorem fail_yields {error : Error} : Yields config pbkdf2 job post (fail error) seen :=
  Calls.Gives.throw trivial

theorem known_yields {error : Error} {value : Option A}
    (holds : ∀ given, value = some given → post (Attested seen) given) :
    Yields config pbkdf2 job post (known error value) seen := by
  cases value with
  | none => exact fail_yields
  | some given => exact pure_yields (holds given rfl)

-- How a handler ended that was attempted.
def Ended (config : Config) (pbkdf2 : Pbkdf2) (job : Job) (post : Calls.Facts Store → A → Prop)
    (once : Calls.Facts Store) : Except Failure A → Prop
  | .ok value => post once value
  | .error failure => MayEnd config pbkdf2 once job (.error failure)

theorem attempt_yields {handler : H A} (first : Yields config pbkdf2 job post handler seen) :
    Yields config pbkdf2 job (Ended config pbkdf2 job post) (Calls.attempt handler) seen := by
  refine Calls.Gives.mono (Calls.Gives.attempt first) fun later result more ends => ?_
  cases result with
  | ok => exact ends
  | error => exact ends

theorem throw_yields {failure : Failure}
    (ends : MayEnd config pbkdf2 (Attested seen) job (.error failure)) :
    Yields config pbkdf2 job post (throw failure) seen := Calls.Gives.throw ends

theorem call_yields (op : Op) {post : Calls.Facts Store → Answer op → Prop}
    (may : MayCall config pbkdf2 (Attested seen) job.request op) (quiet : spawned op = none)
    (told : ∀ answer, post (Attested (seen ++ [⟨op, answer⟩])) answer) :
    Yields config pbkdf2 job post (call op) seen := by
  refine Calls.Gives.ask ⟨may, fun child spawns => ?_⟩ told
  exact absurd (quiet.symm.trans spawns) (by simp)

theorem quiet_yields (op : Op) (may : MayCall config pbkdf2 (Attested seen) job.request op)
    (quiet : spawned op = none) : Yields config pbkdf2 job (fun _ _ => True) (call op) seen :=
  call_yields op may quiet fun _ => trivial

theorem attested_last {op : Op} {answer : Answer op} {fact : Store → Prop}
    (means : ∀ moments, Tells moments ⟨op, answer⟩ → Calls.Amid moments fact) :
    Attested (seen ++ [⟨op, answer⟩]) fact :=
  Calls.attests_of_mem (List.mem_append_right _ List.mem_cons_self) means

theorem spawn_yields {child : Job} (ready : Ready config pbkdf2 (Attested seen) child) :
    Yields config pbkdf2 job (fun _ _ => True) (call (.spawn child)) seen := by
  refine Calls.Gives.ask ⟨trivial, fun other spawns => ?_⟩ fun _ => trivial
  obtain rfl : child = other := Option.some.inj spawns
  exact ready

end Steps

section Storage

theorem readUser_yields (id : UInt32) :
    Yields config pbkdf2 job
      (fun once answer => ∀ user, answer = some user → once (Store.isUser id user))
      (call (.readUser id)) seen :=
  call_yields (.readUser id) trivial rfl fun _ user is => attested_last fun _ tells => tells user is

theorem readRole_yields (id : UInt32) :
    Yields config pbkdf2 job
      (fun once answer => ∀ role, answer = some role → once (Store.isRole id role))
      (call (.readRole id)) seen :=
  call_yields (.readRole id) trivial rfl fun _ role is => attested_last fun _ tells => tells role is

theorem readHost_yields (id : UInt32) :
    Yields config pbkdf2 job
      (fun once answer => ∀ host, answer = some host → once (Store.isHost id host))
      (call (.readHost id)) seen :=
  call_yields (.readHost id) trivial rfl fun _ host is => attested_last fun _ tells => tells host is

theorem getUser_yields (id : UInt32) :
    Yields config pbkdf2 job (fun once user => once (Store.isUser id user)) (getUser id) seen :=
  (readUser_yields id).bind fun _ _ _ told => known_yields told

theorem getRole_yields (id : UInt32) :
    Yields config pbkdf2 job (fun once role => once (Store.isRole id role)) (getRole id) seen :=
  (readRole_yields id).bind fun _ _ _ told => known_yields told

theorem getHost_yields (id : UInt32) :
    Yields config pbkdf2 job (fun once host => once (Store.isHost id host)) (getHost id) seen :=
  (readHost_yields id).bind fun _ _ _ told => known_yields told

/-- Each entry that was read was in the store when it was read. -/
theorem readEach_yields {A : Type} {read : UInt32 → H (Option A)} {is : UInt32 → A → Store → Prop}
    (reads : ∀ id seen, Yields config pbkdf2 job
      (fun once answer => ∀ value, answer = some value → once (is id value)) (read id) seen)
    (ids : List UInt32) :
    Yields config pbkdf2 job (fun once entries => ∀ entry ∈ entries, once (is entry.1 entry.2))
      (readEach read ids) seen := by
  induction ids generalizing seen with
  | nil => exact pure_yields (by simp)
  | cons id rest ih =>
    refine (reads id seen).bind fun first answer _ told => ?_
    refine ih.bind fun last others more known => pure_yields fun entry member => ?_
    rcases List.mem_append.mp member with read | other
    · rw [Option.mem_toList, Option.map_eq_some_iff] at read
      obtain ⟨value, found, rfl⟩ := read
      exact more _ (told value found)
    · exact known entry other

theorem listUsers_yields :
    Yields config pbkdf2 job
      (fun once users => ∀ entry ∈ users, once (Store.isUser entry.1 entry.2))
      listUsers seen := by
  exact (quiet_yields .userIds trivial rfl).bind fun _ _ _ _ =>
    readEach_yields (fun id _ => readUser_yields id) _

theorem listRoles_yields :
    Yields config pbkdf2 job
      (fun once roles => ∀ entry ∈ roles, once (Store.isRole entry.1 entry.2))
      listRoles seen := by
  exact (quiet_yields .roleIds trivial rfl).bind fun _ _ _ _ =>
    readEach_yields (fun id _ => readRole_yields id) _

theorem listUserHosts_yields (userId : UInt32) :
    Yields config pbkdf2 job
      (fun once hosts => ∀ entry ∈ hosts, once (Store.isHost entry.1 entry.2) ∧
        (entry.2.owner = none ∨ entry.2.owner = some userId))
      (listUserHosts userId) seen := by
  refine (quiet_yields .hostIds trivial rfl).bind fun _ _ _ _ => ?_
  refine (readEach_yields (fun id _ => readHost_yields id) _).bind fun _ hosts _ known => ?_
  refine pure_yields fun entry member => ?_
  obtain ⟨read, usable⟩ := List.mem_filter.mp member
  exact ⟨known entry read, by simpa using usable⟩

theorem anyOf_yields {A : Type} {error : Error} {values : List A}
    {post : Calls.Facts Store → A → Prop}
    (holds : ∀ later value, Attested seen ≤ Attested later → value ∈ values →
      post (Attested later) value) :
    Yields config pbkdf2 job post (anyOf error values) seen := by
  cases values with
  | nil => exact fail_yields
  | cons first rest =>
    exact (quiet_yields (.pick rest.length) trivial rfl).bind fun later index more _ =>
      pure_yields (holds later _ more (List.get_mem _ _))

theorem getUserByName_yields (name : String) :
    Yields config pbkdf2 job
      (fun once entry => once (Store.isUser entry.1 entry.2) ∧ entry.2.name = name)
      (getUserByName name) seen := by
  refine listUsers_yields.bind fun _ users _ known => anyOf_yields fun later entry more member => ?_
  obtain ⟨read, named⟩ := List.mem_filter.mp member
  exact ⟨more _ (known entry read), by simpa using named⟩

theorem getUserBySessionToken_yields (token : SessionToken) :
    Yields config pbkdf2 job (fun once id => once (Store.isSession token id))
      (getUserBySessionToken token) seen := by
  have read : Yields config pbkdf2 job
      (fun once answer => ∀ id, answer = .ok id → once (Store.isSession token id))
      (call (.userBySessionToken token)) seen :=
    call_yields (.userBySessionToken token) trivial rfl fun _ id is =>
      attested_last fun _ tells => tells id is
  refine read.bind fun _ answer _ told => ?_
  cases answer with
  | ok id => exact pure_yields (told id rfl)
  | error error => exact fail_yields

/-- A request that adds an entry knows that it was there. -/
theorem write_yields {request : StorageRequest} {value : StorageReply → Option UInt32}
    {fact : UInt32 → Store → Prop}
    (may : MayWrite config pbkdf2 (Attested seen) job.request request)
    (means : ∀ moments reply id, value reply = some id →
      JsonStorage.Backed (ofData (Calls.Amid moments)) request reply →
        Calls.Amid moments (fact id)) :
    Yields config pbkdf2 job (fun once id => once (fact id)) (write request value) seen := by
  have written : Yields config pbkdf2 job
      (fun once (reply : StorageReply) => ∀ id, value reply = some id → once (fact id))
      (call (.write request)) seen :=
    call_yields (.write request) may rfl fun reply id is =>
      attested_last fun moments tells => means moments reply id is tells
  refine written.bind fun _ (reply : StorageReply) _ told => ?_
  cases reply with
  | failed error => exact fail_yields
  | _ => exact known_yields told

theorem added_user {moments : List Store} {user : V3User} {reply : StorageReply} {id : UInt32}
    (is : addedUser reply = some id)
    (backed : JsonStorage.Backed (ofData (Calls.Amid moments)) (.addUser user) reply) :
    Calls.Amid moments (Store.isUser id user) := by
  cases reply with
  | userAdded => cases is; exact backed
  | _ => cases is

theorem added_role {moments : List Store} {role : V3Role} {reply : StorageReply} {id : UInt32}
    (is : addedRole reply = some id)
    (backed : JsonStorage.Backed (ofData (Calls.Amid moments)) (.addRole role) reply) :
    Calls.Amid moments (Store.isRole id role) := by
  cases reply with
  | roleAdded => cases is; exact backed
  | _ => cases is

theorem added_host {moments : List Store} {host : V2Host} {reply : StorageReply} {id : UInt32}
    (is : addedHost reply = some id)
    (backed : JsonStorage.Backed (ofData (Calls.Amid moments)) (.addHost host) reply) :
    Calls.Amid moments (Store.isHost id host) := by
  cases reply with
  | hostAdded => cases is; exact backed
  | _ => cases is

theorem change_yields {request : StorageRequest}
    (may : MayWrite config pbkdf2 (Attested seen) job.request request) :
    Yields config pbkdf2 job (fun _ _ => True) (change request) seen := by
  refine (quiet_yields (.write request) may rfl).bind fun _ (reply : StorageReply) _ _ => ?_
  cases reply with
  | failed error => exact fail_yields
  | _ => exact pure_yields trivial

theorem newPassword_yields (password : String) :
    Yields config pbkdf2 job (fun _ stored => verify pbkdf2 stored password = .ok true)
      (newPassword pbkdf2 password) seen := by
  refine (quiet_yields .randomSalt trivial rfl).bind fun later drawn _ _ => ?_
  have salted :
      Yields config pbkdf2 job (fun _ _ => True) (known (.storage .openSsl) drawn) later :=
    known_yields fun _ _ => trivial
  refine salted.bind fun _ salt _ _ => ?_
  split
  next made => exact pure_yields (by simp [verify, made, Except.map])
  next => exact fail_yields

end Storage

section Roles

variable {role : Role}

theorem Role.storageRole_yields (cached : role.Cached (Attested seen)) :
    Yields config pbkdf2 job
      (fun once result => once (Store.isRole role.id result.1) ∧ result.2.id = role.id)
      role.storageRole seen := by
  unfold Role.storageRole
  split
  next stored held => exact pure_yields ⟨cached stored held, rfl⟩
  next => exact (getRole_yields role.id).bind fun _ _ _ is => pure_yields ⟨is, rfl⟩

theorem Role.ty_yields (cached : role.Cached (Attested seen)) :
    Yields config pbkdf2 job
      (fun once result => RoleWas once role.id fun stored => stored.ty = result.1)
      role.ty seen := by
  refine (Role.storageRole_yields cached).bind ?_
  rintro _ ⟨stored, role⟩ _ ⟨is, -⟩
  exact pure_yields (Calls.Attests.imp is fun _ held => ⟨stored, held, rfl⟩)

theorem Role.permissions_yields (cached : role.Cached (Attested seen)) :
    Yields config pbkdf2 job
      (fun once result => RoleWas once role.id fun stored => stored.permissions = result.1)
      role.permissions seen := by
  refine (Role.storageRole_yields cached).bind ?_
  rintro _ ⟨stored, role⟩ _ ⟨is, -⟩
  exact pure_yields (Calls.Attests.imp is fun _ held => ⟨stored, held, rfl⟩)

theorem Role.defaultSettings_yields (cached : role.Cached (Attested seen)) :
    Yields config pbkdf2 job
      (fun once result => RoleWas once role.id fun stored => stored.defaultSettings = result.1)
      role.defaultSettings seen := by
  refine (Role.storageRole_yields cached).bind ?_
  rintro _ ⟨stored, role⟩ _ ⟨is, -⟩
  exact pure_yields (Calls.Attests.imp is fun _ held => ⟨stored, held, rfl⟩)

theorem Role.detailedRole_yields (cached : role.Cached (Attested seen)) :
    Yields config pbkdf2 job
      (fun once result => RoleWas once result.id fun stored =>
        stored.ty = result.ty ∧ stored.permissions = result.permissions)
      role.detailedRole seen := by
  refine (Role.storageRole_yields cached).bind ?_
  rintro _ ⟨stored, other⟩ _ ⟨is, same⟩
  refine pure_yields (Calls.Attests.imp is fun store held => ⟨stored, ?_, rfl, rfl⟩)
  change Store.isRole other.id stored store
  rw [show other.id = role.id from same]
  exact held

end Roles

section Users

variable {user : User}

-- A method leaves a user the same but for a cache that it may have filled.
structure User.Same (once : Calls.Facts Store) (user after : User) : Prop where
  id : after.id = user.id
  cached : after.Cached once

theorem User.Cached.same {once : Calls.Facts Store} (cached : user.Cached once) :
    User.Same once user user := ⟨rfl, cached⟩

theorem Known.same {once : Calls.Facts Store} {request : Request} {after : User}
    (known : Known config pbkdf2 once request user) (same : User.Same once user after) :
    Known config pbkdf2 once request after :=
  ⟨by rw [same.id]; exact known.identified, same.cached⟩

theorem User.storageUser_yields (cached : user.Cached (Attested seen)) :
    Yields config pbkdf2 job
      (fun once result => once (Store.isUser user.id result.1) ∧ User.Same once user result.2)
      user.storageUser seen := by
  unfold User.storageUser
  split
  next stored held => exact pure_yields ⟨cached stored held, cached.same⟩
  next =>
    refine (getUser_yields user.id).bind fun _ stored _ is => pure_yields ⟨is, rfl, ?_⟩
    rintro other ⟨rfl⟩
    exact is

theorem User.roleId_yields (cached : user.Cached (Attested seen)) :
    Yields config pbkdf2 job
      (fun once result => (UserWas once user.id fun stored => stored.roleId = result.1) ∧
        User.Same once user result.2)
      user.roleId seen := by
  refine (User.storageUser_yields cached).bind ?_
  rintro _ ⟨stored, after⟩ _ ⟨is, same⟩
  exact pure_yields ⟨Calls.Attests.imp is fun _ held => ⟨stored, held, rfl⟩, same⟩

theorem User.role_yields (cached : user.Cached (Attested seen)) :
    Yields config pbkdf2 job
      (fun once result => (UserWas once user.id fun stored => stored.roleId = result.1.id) ∧
        result.1.Cached once ∧ User.Same once user result.2)
      user.role seen := by
  refine (User.roleId_yields cached).bind ?_
  rintro _ ⟨roleId, after⟩ _ ⟨was, same⟩
  exact pure_yields ⟨was, by rintro _ ⟨⟩, same⟩

theorem User.roleType_yields (cached : user.Cached (Attested seen)) :
    Yields config pbkdf2 job
      (fun once result => (result.1 = .admin → IsAdmin once user.id) ∧
        User.Same once user result.2)
      user.roleType seen := by
  refine (User.role_yields cached).bind ?_
  rintro _ ⟨role, after⟩ _ ⟨was, held, same⟩
  refine (Role.ty_yields held).bind ?_
  rintro _ ⟨ty, _⟩ more typed
  refine pure_yields ⟨?_, same.id, same.cached.mono more⟩
  rintro rfl
  exact ⟨role.id, more _ was, typed⟩

theorem User.detailedUserNoAuth_yields (cached : user.Cached (Attested seen)) :
    Yields config pbkdf2 job
      (fun once result => result.1.id = user.id ∧
        (UserWas once user.id fun stored => stored.name = result.1.name ∧
          stored.roleId = result.1.roleId ∧ stored.clientUniqueId = result.1.clientUniqueId) ∧
        User.Same once user result.2)
      (user.detailedUserNoAuth config) seen := by
  refine (User.storageUser_yields cached).bind ?_
  rintro _ ⟨stored, first⟩ _ ⟨is, same⟩
  refine (User.roleType_yields same.cached).bind ?_
  rintro _ ⟨ty, second⟩ more ⟨-, again⟩
  refine pure_yields ⟨again.id.trans same.id, ?_, again.id.trans same.id, again.cached⟩
  exact Calls.Attests.imp (more _ is) fun _ held => ⟨stored, held, rfl, rfl, rfl⟩

/-- The details of a user are only made for that user and for administrators. -/
theorem User.detailedUser_yields {requesting : User} (cached : user.Cached (Attested seen))
    (known : Known config pbkdf2 (Attested seen) job.request requesting) :
    Yields config pbkdf2 job (fun once detailed => MaySee config pbkdf2 once job.request detailed)
      (user.detailedUser config requesting) seen := by
  refine (User.roleType_yields known.cached).bind ?_
  rintro later ⟨ty, after⟩ more ⟨admin, same⟩
  have identified := known.identified.mono more
  dsimp only at admin same ⊢
  split_ifs with right
  · refine (User.detailedUserNoAuth_yields (cached.mono more)).bind ?_
    rintro _ ⟨detailed, _⟩ further ⟨id, was, -⟩
    refine pure_yields ⟨⟨requesting.id, identified.mono further, ?_⟩, ?_⟩
    · rcases right with typed | own
      · exact .inr ((admin typed).mono further)
      · exact .inl (id.trans (own.trans same.id))
    · rw [id]
      exact was
  · exact fail_yields

theorem User.setPassword_yields (identified : By config pbkdf2 (Attested seen) job.request user.id)
    (password : UserPassword) :
    Yields config pbkdf2 job (fun once after => User.Same once user after)
      (user.setPassword password) seen := by
  have may : MayWrite config pbkdf2 (Attested seen) job.request
      (.modifyUser user.id ⟨none, some (some password), none⟩) := .inr ⟨identified, rfl, rfl⟩
  refine (change_yields may).bind fun _ _ _ _ => pure_yields ⟨rfl, ?_⟩
  rintro _ ⟨⟩

theorem User.authenticateUserPassword_yields {username password : String}
    (cached : user.Cached (Attested seen))
    (auth : job.request.auth config = .ok (.userPassword username password)) :
    Yields config pbkdf2 job (fun once after => Known config pbkdf2 once job.request after)
      (user.authenticateUserPassword pbkdf2 username password) seen := by
  refine (User.storageUser_yields cached).bind ?_
  rintro later ⟨stored, after⟩ _ ⟨is, same⟩
  dsimp only at is same ⊢
  split_ifs with named
  · exact fail_yields
  · split
    next => exact fail_yields
    next secret held =>
      split
      next => exact fail_yields
      next => exact fail_yields
      next verified =>
        have identified : By config pbkdf2 (Attested later) job.request after.id := by
          refine ⟨_, auth, ?_⟩
          rw [same.id]
          exact Calls.Attests.imp is fun _ was =>
            ⟨stored, was, (not_not.mp named).symm, secret, held, verified⟩
        split_ifs
        · refine (newPassword_yields password).bind fun _ rehashed more _ => ?_
          refine (User.setPassword_yields (identified.mono more) rehashed).mono ?_
          intro _ changed further again
          exact Known.same ⟨identified.mono (more.trans further), same.cached.mono
            (more.trans further)⟩ again
        · exact pure_yields ⟨identified, same.cached⟩

theorem User.authenticateForwarded_yields {username : String}
    (cached : user.Cached (Attested seen))
    (auth : job.request.auth config = .ok (.forwardedHeaders username)) :
    Yields config pbkdf2 job (fun once after => Known config pbkdf2 once job.request after)
      (user.authenticateForwarded config username) seen := by
  unfold User.authenticateForwarded
  split_ifs with missing
  · exact fail_yields
  · refine (User.storageUser_yields cached).bind ?_
    rintro later ⟨stored, after⟩ _ ⟨is, same⟩
    dsimp only at is same ⊢
    split_ifs with named
    · refine pure_yields
        ⟨⟨_, auth, by simpa [Option.isSome_iff_ne_none] using missing, ?_⟩, same.cached⟩
      rw [same.id]
      exact Calls.Attests.imp is fun _ was => ⟨stored, was, named⟩
    · exact fail_yields

theorem User.hostUniqueId_yields (cached : user.Cached (Attested seen)) :
    Yields config pbkdf2 job
      (fun once result => (UserWas once user.id fun stored => stored.clientUniqueId = result.1) ∧
        User.Same once user result.2)
      user.hostUniqueId seen := by
  refine (User.storageUser_yields cached).bind ?_
  rintro _ ⟨stored, after⟩ _ ⟨is, same⟩
  exact pure_yields ⟨Calls.Attests.imp is fun _ held => ⟨stored, held, rfl⟩, same⟩

theorem User.newSession_yields {name password : String}
    (identified : By config pbkdf2 (Attested seen) job.request user.id)
    (login : job.request.endpoint = .login name password) :
    Yields config pbkdf2 job (fun _ _ => True) (user.newSession config) seen := by
  have may : MayWrite config pbkdf2 (Attested seen) job.request
      (.createSessionToken user.id config.sessionCookieExpiration) :=
    ⟨identified, name, password, login⟩
  refine (quiet_yields (.write (.createSessionToken user.id config.sessionCookieExpiration)) may
    rfl).bind ?_
  intro _ (reply : StorageReply) _ _
  cases reply with
  | sessionToken => exact pure_yields trivial
  | _ => exact fail_yields

-- A host that was just read, for a user who may use it.
structure Host.Fresh (once : Calls.Facts Store) (id : UInt32) (host : Host) : Prop where
  held : host.Held once id
  cached : host.cacheStorage ≠ none

theorem Host.fresh {id hostId : UInt32} {stored : V2Host}
    (is : Attested seen (Store.isHost hostId stored))
    (owner : stored.owner = none ∨ stored.owner = some id) :
    Host.Fresh (Attested seen) id ⟨hostId, some stored, none⟩ := by
  refine ⟨⟨Calls.Attests.imp is fun _ was => ⟨stored, was, owner⟩, ?_, ?_⟩, by simp⟩
  · rintro _ ⟨rfl⟩
    exact is
  · rintro _ ⟨rfl⟩
    exact owner

theorem User.hosts_yields :
    Yields config pbkdf2 job (fun once hosts => ∀ host ∈ hosts, Host.Fresh once user.id host)
      user.hosts seen := by
  refine (listUserHosts_yields user.id).bind fun _ hosts _ known => pure_yields ?_
  intro host member
  obtain ⟨entry, listed, rfl⟩ := List.mem_map.mp member
  exact Host.fresh (known entry listed).1 (known entry listed).2

theorem User.host_yields (hostId : UInt32) :
    Yields config pbkdf2 job
      (fun once host => Host.Fresh once user.id host ∧ host.id = hostId)
      (user.host hostId) seen := by
  refine (getHost_yields hostId).bind fun _ stored _ is => ?_
  split_ifs with owner
  · exact pure_yields ⟨Host.fresh is owner, rfl⟩
  · exact fail_yields

theorem User.hostAdd_yields (address : String) (httpPort : UInt16)
    (known : Known config pbkdf2 (Attested seen) job.request user) :
    Yields config pbkdf2 job
      (fun once result => Host.Fresh once user.id result.1 ∧ User.Same once user result.2)
      (user.hostAdd address httpPort) seen := by
  refine (User.role_yields known.cached).bind ?_
  rintro first ⟨role, after⟩ toFirst ⟨was, held, same⟩
  refine (Role.permissions_yields held).bind ?_
  rintro second ⟨permissions, _⟩ toSecond permitted
  dsimp only at permitted same ⊢
  split_ifs with allowed
  · have may : Permitted (Attested second) user.id fun held => held.allowAddHosts = true := by
      refine ⟨role.id, toSecond _ was, Calls.Attests.imp permitted ?_⟩
      rintro _ ⟨stored, is, rfl⟩
      exact ⟨stored, is, allowed⟩
    have identified := known.identified.mono (toFirst.trans toSecond)
    refine (User.hostUniqueId_yields (same.cached.mono toSecond)).bind ?_
    rintro third ⟨uniqueId, last⟩ toThird ⟨-, again⟩
    refine (quiet_yields (.probe address httpPort uniqueId)
      ⟨user.id, identified.mono toThird, may.mono toThird⟩ rfl).bind ?_
    rintro fourth (answer : Except ProbeError ServerInfo) toLast -
    have id : last.id = user.id := again.id.trans same.id
    cases answer with
    | error error => cases error <;> exact fail_yields
    | ok info =>
      have toFourth := toThird.trans toLast
      have adds : MayWrite config pbkdf2 (Attested fourth) job.request
          (.addHost ⟨some last.id, address, httpPort, none, info.hostName, info.mac⟩) := by
        refine ⟨last.id, ?_, rfl, ?_⟩
        · rw [id]
          exact identified.mono toFourth
        · rw [id]
          exact may.mono toFourth
      refine (write_yields adds fun _ _ _ => added_host).bind fun _ hostId further is => ?_
      refine pure_yields ⟨?_, id, again.cached.mono (toLast.trans further)⟩
      rw [← id]
      exact Host.fresh is (.inr rfl)
  · exact fail_yields

end Users

section Administrators

variable {user : User}

theorem Admin.tryFrom_yields (known : Known config pbkdf2 (Attested seen) job.request user) :
    Yields config pbkdf2 job
      (fun once result =>
        (∀ admin, result = .ok admin → Known config pbkdf2 once job.request admin.user ∧
          IsAdmin once admin.user.id) ∧
        ∀ other, result = .error other → Known config pbkdf2 once job.request other)
      (Admin.tryFrom user) seen := by
  refine (User.roleType_yields known.cached).bind ?_
  rintro _ ⟨ty, after⟩ more ⟨admin, same⟩
  have still := (known.mono more).same same
  cases ty with
  | admin =>
    refine pure_yields ⟨?_, by simp⟩
    rintro _ ⟨rfl⟩
    refine ⟨still, ?_⟩
    rw [same.id]
    exact admin rfl
  | user =>
    refine pure_yields ⟨by simp, ?_⟩
    rintro _ ⟨rfl⟩
    exact still

theorem User.intoAdmin_yields (known : Known config pbkdf2 (Attested seen) job.request user) :
    Yields config pbkdf2 job (fun once _ => ByAdmin config pbkdf2 once job.request) user.intoAdmin
      seen := by
  refine (Admin.tryFrom_yields known).bind fun _ result _ told => ?_
  cases result with
  | ok admin =>
    obtain ⟨known, admin⟩ := told.1 _ rfl
    exact pure_yields ⟨_, known.identified, admin⟩
  | error => exact fail_yields

end Administrators

section Hosts

variable {user : User} {host : Host}

theorem Host.storageHost_yields (held : host.Held (Attested seen) user.id) :
    Yields config pbkdf2 job
      (fun once stored => once (Store.isHost host.id stored) ∧
        (host.cacheStorage ≠ none → stored.owner = none ∨ stored.owner = some user.id))
      host.storageHost seen := by
  unfold Host.storageHost
  split
  next stored cached =>
    exact pure_yields ⟨held.cached stored cached, fun _ => held.owner stored cached⟩
  next empty =>
    exact (getHost_yields host.id).mono fun _ _ _ is => ⟨is, fun filled => absurd empty filled⟩

theorem Host.canUse_yields (held : host.Held (Attested seen) user.id)
    (cached : user.Cached (Attested seen)) :
    Yields config pbkdf2 job (fun once after => User.Same once user after) (host.canUse user)
      seen := by
  have owned : Yields config pbkdf2 job (fun _ _ => True) host.owner seen :=
    (Host.storageHost_yields held).bind fun _ _ _ _ => pure_yields trivial
  refine owned.bind fun _ owner more _ => ?_
  split_ifs
  · exact pure_yields (cached.mono more).same
  · refine (User.roleType_yields (cached.mono more)).bind ?_
    rintro _ ⟨ty, after⟩ _ ⟨-, same⟩
    cases ty with
    | admin => exact pure_yields same
    | user => exact fail_yields

theorem User.Same.held {once : Calls.Facts Store} {after : User} (same : User.Same once user after)
    (held : host.Held once user.id) : host.Held once after.id := by
  rw [same.id]
  exact held

theorem Host.modify_yields {modify : HostModify}
    (known : Known config pbkdf2 (Attested seen) job.request user)
    (held : host.Held (Attested seen) user.id)
    (admin : modify.owner ≠ none → IsAdmin (Attested seen) user.id) :
    Yields config pbkdf2 job
      (fun once result => result.1 = { host with cacheStorage := none } ∧
        User.Same once user result.2)
      (host.modify user modify) seen := by
  refine (Host.canUse_yields held known.cached).bind fun later after more same => ?_
  have may : MayWrite config pbkdf2 (Attested later) job.request (.modifyHost host.id modify) :=
    ⟨user.id, known.identified.mono more, more _ held.usable,
      fun changes => (admin changes).mono more⟩
  refine (change_yields may).bind fun _ _ further _ => pure_yields ⟨rfl, same.id, ?_⟩
  exact same.cached.mono further

/-- `unreachable!()` is only reached where it is known to be. -/
theorem Host.ownerInfo_yields {this : V2Host}
    (settled : this.owner ≠ none → this.owner ≠ some user.id → Displaced (Attested seen) job) :
    Yields config pbkdf2 job (fun _ _ => True) (Host.ownerInfo user this) seen := by
  unfold Host.ownerInfo
  split
  next => exact pure_yields trivial
  next id owned =>
    split_ifs with same
    · exact pure_yields trivial
    · refine throw_yields (settled (by simp [owned]) ?_)
      rw [owned]
      exact fun equal => same (Option.some.inj equal).symm

theorem Host.undetailedHostCached_yields (fresh : host.Fresh (Attested seen) user.id)
    (cached : user.Cached (Attested seen)) :
    Yields config pbkdf2 job (fun _ detailed => detailed.hostId = host.id)
      (host.undetailedHostCached user) seen := by
  refine (Host.canUse_yields fresh.held cached).bind fun _ after more same => ?_
  refine (Host.storageHost_yields (same.held (fresh.held.mono more))).bind ?_
  rintro _ stored _ ⟨-, owner⟩
  have settled : stored.owner = none ∨ stored.owner = some after.id := owner fresh.cached
  refine (Host.ownerInfo_yields fun taken other => ?_).bind fun _ _ _ _ => pure_yields rfl
  exact absurd settled (not_or.mpr ⟨taken, other⟩)

theorem Host.client_yields (known : Known config pbkdf2 (Attested seen) job.request user)
    (held : host.Held (Attested seen) user.id) :
    Yields config pbkdf2 job
      (fun once result => MayContact config pbkdf2 once job.request result.1 ∧
        User.Same once user result.2)
      (host.client user) seen := by
  refine (User.hostUniqueId_yields known.cached).bind ?_
  rintro first ⟨uniqueId, after⟩ toFirst ⟨-, same⟩
  refine (Host.storageHost_yields (held.mono toFirst)).bind ?_
  rintro second data toSecond ⟨is, -⟩
  have may : MayContact config pbkdf2 (Attested second) job.request
      ⟨data.address, data.httpPort, uniqueId, data.pairInfo⟩ :=
    ⟨host.id, user.id, (known.mono (toFirst.trans toSecond)).identified,
      (held.mono (toFirst.trans toSecond)).usable,
      Calls.Attests.imp is fun _ was => ⟨data, was, rfl, rfl, rfl⟩⟩
  refine (quiet_yields (.connect _) may rfl).bind fun third connected toThird _ => ?_
  split_ifs
  · exact pure_yields ⟨may.mono toThird, same.id, same.cached.mono (toSecond.trans toThird)⟩
  · exact fail_yields

theorem Host.Held.withInfo {once : Calls.Facts Store} {id : UInt32} (held : host.Held once id)
    (info : Option (UInt32 × ServerInfo)) : Host.Held once id { host with cacheHostInfo := info } :=
  ⟨held.usable, held.cached, held.owner⟩

theorem Host.hostInfo_yields (known : Known config pbkdf2 (Attested seen) job.request user)
    (held : host.Held (Attested seen) user.id) :
    Yields config pbkdf2 job
      (fun once result => result.2.1.id = host.id ∧ result.2.1.Held once user.id ∧
        User.Same once user result.2.2)
      (host.hostInfo user) seen := by
  unfold Host.hostInfo
  split
  next => exact pure_yields ⟨rfl, held, known.cached.same⟩
  next =>
    refine (Host.client_yields known held).bind ?_
    rintro first ⟨client, after⟩ toFirst ⟨may, same⟩
    refine (quiet_yields (.serverInfo client) may rfl).bind ?_
    rintro second (answer : Except ClientError ServerInfo) toSecond -
    have still : User.Same _ user after := ⟨same.id, same.cached.mono toSecond⟩
    have kept := held.mono (toFirst.trans toSecond)
    cases answer with
    | ok info => exact pure_yields ⟨rfl, kept.withInfo _, still⟩
    | error error =>
      cases error with
      | offline => exact pure_yields ⟨rfl, kept, still⟩
      | other => exact fail_yields

-- Where `cache_storage` was emptied, a later owner is only possible in a task that pairs.
def Settled (job : Job) (host : Host) (user : User) : Prop :=
  host.cacheStorage ≠ none ∨ ∃ request other from' pin,
    job = .pairing request other from' pin ∧ other.id = host.id ∧ from'.id = user.id

theorem Settled.owner {stored : V2Host} (settled : Settled job host user)
    (usable : Usable (Attested seen) user.id host.id)
    (is : Attested seen (Store.isHost host.id stored))
    (owner : host.cacheStorage ≠ none → stored.owner = none ∨ stored.owner = some user.id)
    (taken : stored.owner ≠ none) (other : stored.owner ≠ some user.id) :
    Displaced (Attested seen) job := by
  rcases settled with cached | ⟨request, host', user', pin, rfl, sameHost, sameUser⟩
  · exact absurd (owner cached) (not_or.mpr ⟨taken, other⟩)
  · rw [Displaced, sameHost, sameUser]
    exact ⟨usable, Calls.Attests.imp is fun _ was => ⟨stored, was, taken, other⟩⟩

theorem Settled.same {once : Calls.Facts Store} {after : User} (settled : Settled job host user)
    (same : User.Same once user after) : Settled job host after := by
  rw [Settled, same.id]
  exact settled

theorem Host.detailedHost_yields (known : Known config pbkdf2 (Attested seen) job.request user)
    (held : host.Held (Attested seen) user.id) (settled : Settled job host user) :
    Yields config pbkdf2 job
      (fun once detailed => MayDetail config pbkdf2 once job.request detailed)
      (host.detailedHost user) seen := by
  refine (Host.canUse_yields held known.cached).bind fun first after toFirst same => ?_
  replace known := (known.mono toFirst).same same
  replace held := same.held (held.mono toFirst)
  refine (Host.storageHost_yields held).bind ?_
  rintro second stored toSecond ⟨is, owner⟩
  replace known := known.mono toSecond
  replace held := held.mono toSecond
  refine (Host.ownerInfo_yields ((settled.same same).owner held.usable is owner)).bind ?_
  intro third owner toThird _
  refine (Host.hostInfo_yields (known.mono toThird) (held.mono toThird)).bind ?_
  rintro fourth ⟨info, other, _⟩ toFourth ⟨id, -, -⟩
  have shown (detailed : DetailedHost) (hostId : detailed.hostId = other.id)
      (address : stored.address = detailed.address) (port : stored.httpPort = detailed.httpPort) :
      MayDetail config pbkdf2 (Attested fourth) job.request detailed := by
    have later := toThird.trans toFourth
    rw [MayDetail, hostId, show other.id = host.id from id]
    exact ⟨after.id, (known.mono later).identified, (held.mono later).usable,
      Calls.Attests.imp (later _ is) fun _ was => ⟨stored, was, address, port⟩⟩
  cases info with
  | some info => exact pure_yields (shown _ rfl rfl rfl)
  | none => exact pure_yields (shown _ rfl rfl rfl)

theorem Host.undetailedHost_yields (known : Known config pbkdf2 (Attested seen) job.request user)
    (fresh : host.Fresh (Attested seen) user.id) :
    Yields config pbkdf2 job
      (fun once detailed => MayShow config pbkdf2 once job.request detailed.hostId)
      (host.undetailedHost user) seen := by
  refine (Host.canUse_yields fresh.held known.cached).bind fun first after toFirst same => ?_
  replace known := (known.mono toFirst).same same
  have held := same.held (fresh.held.mono toFirst)
  refine (Host.storageHost_yields held).bind ?_
  rintro second stored toSecond ⟨-, owner⟩
  replace known := known.mono toSecond
  replace held := held.mono toSecond
  have settled : stored.owner = none ∨ stored.owner = some after.id := owner fresh.cached
  refine (Host.ownerInfo_yields fun taken other => ?_).bind ?_
  · exact absurd settled (not_or.mpr ⟨taken, other⟩)
  intro third owner toThird _
  refine (Host.hostInfo_yields (known.mono toThird) (held.mono toThird)).bind ?_
  rintro fourth ⟨info, other, _⟩ toFourth ⟨id, again, -⟩
  replace known := known.mono (toThird.trans toFourth)
  replace held := held.mono (toThird.trans toFourth)
  have shown {later : List (Calls.Observation Answer)} (more : Attested fourth ≤ Attested later) :
      MayShow config pbkdf2 (Attested later) job.request other.id := by
    rw [show other.id = host.id from id]
    exact ⟨after.id, (known.mono more).identified, (held.mono more).usable, trivial⟩
  cases info with
  | some info => exact pure_yields (shown le_rfl)
  | none =>
    exact (Host.storageHost_yields again).bind fun _ _ more _ => pure_yields (shown more)

theorem Host.addressPort_yields (held : host.Held (Attested seen) user.id)
    (cached : user.Cached (Attested seen)) :
    Yields config pbkdf2 job
      (fun once result => (HostWas once host.id fun stored =>
          stored.address = result.1.1 ∧ stored.httpPort = result.1.2) ∧
        User.Same once user result.2)
      (host.addressPort user) seen := by
  refine (Host.canUse_yields held cached).bind fun _ after _ same => ?_
  refine (getHost_yields host.id).bind fun _ stored more is => pure_yields ⟨?_, same.id, ?_⟩
  · exact Calls.Attests.imp is fun _ was => ⟨stored, was, rfl, rfl⟩
  · exact same.cached.mono more

theorem Host.pairInfo_yields (held : host.Held (Attested seen) user.id)
    (cached : user.Cached (Attested seen)) :
    Yields config pbkdf2 job
      (fun once result => HostWas once host.id fun stored => stored.pairInfo = some result.1)
      (host.pairInfo user) seen := by
  refine (Host.canUse_yields held cached).bind fun _ after _ same => ?_
  refine (getHost_yields host.id).bind fun later stored more is => ?_
  have paired : Yields config pbkdf2 job
      (fun once info => HostWas once host.id fun stored => stored.pairInfo = some info)
      (known .hostNotPaired stored.pairInfo) later :=
    known_yields fun info held => Calls.Attests.imp is fun _ was => ⟨stored, was, held⟩
  exact paired.bind fun _ info _ was => pure_yields was

theorem Host.pair_yields {pin : String}
    (known : Known config pbkdf2 (Attested seen) job.request user)
    (held : host.Held (Attested seen) user.id) :
    Yields config pbkdf2 job
      (fun once result => result.1.id = host.id ∧ result.1.cacheStorage = none ∧
        User.Same once user result.2)
      (host.pair user pin) seen := by
  refine (Host.canUse_yields held known.cached).bind fun first after toFirst same => ?_
  replace known := (known.mono toFirst).same same
  replace held := same.held (held.mono toFirst)
  refine (Host.hostInfo_yields known held).bind ?_
  rintro second ⟨info, other, next⟩ toSecond ⟨id, kept, again⟩
  replace known := (known.mono toSecond).same again
  replace kept := again.held kept
  have nextId : next.id = user.id := again.id.trans same.id
  cases info with
  | none => exact fail_yields
  | some info =>
    dsimp only at id kept nextId ⊢
    split_ifs
    · exact fail_yields
    · refine (Host.client_yields known kept).bind ?_
      rintro third ⟨client, last⟩ toThird ⟨may, still⟩
      refine (quiet_yields (.pair client pin) may rfl).bind fun fourth answer toFourth _ => ?_
      have paired :
          Yields config pbkdf2 job (fun _ _ => True) (Api.known .moonlight answer) fourth :=
        known_yields fun _ _ => trivial
      refine paired.bind ?_
      rintro fifth ⟨pairInfo, info⟩ toFifth -
      have later := (toThird.trans toFourth).trans toFifth
      have lastSame : User.Same _ next last :=
        ⟨still.id, still.cached.mono (toFourth.trans toFifth)⟩
      refine (Host.modify_yields ((known.mono later).same lastSame)
        ((lastSame.held (kept.mono later)).withInfo _) (by simp)).mono ?_
      rintro sixth ⟨_, final⟩ toSixth ⟨rfl, finalSame⟩
      exact ⟨id, rfl, finalSame.id.trans (lastSame.id.trans nextId), finalSame.cached⟩

theorem Host.wake_yields (known : Known config pbkdf2 (Attested seen) job.request user)
    (held : host.Held (Attested seen) user.id) :
    Yields config pbkdf2 job (fun _ _ => True) (host.wake user) seen := by
  refine (Host.canUse_yields held known.cached).bind fun first after toFirst _ => ?_
  refine (Host.storageHost_yields (held.mono toFirst)).bind ?_
  rintro second stored toSecond ⟨is, -⟩
  have later := toFirst.trans toSecond
  cases woken : stored.cacheMac with
  | none => exact fail_yields
  | some mac =>
    refine (quiet_yields (.broadcastMagicPacket mac) ?_ rfl).bind fun _ sent _ _ => ?_
    · exact ⟨host.id, user.id, (known.mono later).identified, (held.mono later).usable,
        Calls.Attests.imp is fun _ was => ⟨stored, was, woken⟩⟩
    · split_ifs
      · exact pure_yields trivial
      · exact fail_yields

theorem Host.listApps_yields (known : Known config pbkdf2 (Attested seen) job.request user)
    (held : host.Held (Attested seen) user.id) :
    Yields config pbkdf2 job (fun once result => User.Same once user result.2) (host.listApps user)
      seen := by
  refine (Host.canUse_yields held known.cached).bind fun first after toFirst same => ?_
  refine (Host.client_yields ((known.mono toFirst).same same)
    (same.held (held.mono toFirst))).bind ?_
  rintro second ⟨client, last⟩ _ ⟨may, again⟩
  refine (quiet_yields (.appList client) may rfl).bind fun third answer toThird _ => ?_
  have listed : Yields config pbkdf2 job (fun _ _ => True) (Api.known .moonlight answer) third :=
    known_yields fun _ _ => trivial
  exact listed.bind fun _ _ toFourth _ =>
    pure_yields ⟨again.id.trans same.id, again.cached.mono (toThird.trans toFourth)⟩

theorem Host.appImage_yields {appId : UInt32} {forceRefresh : Bool}
    (known : Known config pbkdf2 (Attested seen) job.request user)
    (held : host.Held (Attested seen) user.id) :
    Yields config pbkdf2 job (fun _ _ => True) (host.appImage user appId forceRefresh) seen := by
  refine (Host.canUse_yields held known.cached).bind fun first after toFirst same => ?_
  replace known := (known.mono toFirst).same same
  replace held := same.held (held.mono toFirst)
  have cached : Yields config pbkdf2 job (fun _ _ => True)
      (host.cachedImage after appId forceRefresh) first := by
    cases forceRefresh with
    | true => exact pure_yields trivial
    | false =>
      exact quiet_yields (.getImage after.id host.id appId) ⟨known.identified, held.usable⟩ rfl
  refine cached.bind fun second image toSecond _ => ?_
  cases image with
  | some image => exact pure_yields trivial
  | none =>
    replace known := known.mono toSecond
    replace held := held.mono toSecond
    refine (Host.client_yields known held).bind ?_
    rintro third ⟨client, last⟩ toThird ⟨may, again⟩
    refine (quiet_yields (.requestAppImage client appId) may rfl).bind ?_
    intro fourth answer toFourth _
    have fetched :
        Yields config pbkdf2 job (fun _ _ => True) (Api.known .moonlight answer) fourth :=
      known_yields fun _ _ => trivial
    refine fetched.bind fun fifth image toFifth _ => ?_
    have later := (toThird.trans toFourth).trans toFifth
    have same : last.id = after.id := again.id
    refine (quiet_yields (.insertImage last.id host.id appId image) ?_ rfl).bind fun _ _ _ _ =>
      pure_yields trivial
    rw [same]
    exact ⟨(known.mono later).identified, (held.mono later).usable⟩

theorem Host.cancelApp_yields (known : Known config pbkdf2 (Attested seen) job.request user)
    (held : host.Held (Attested seen) user.id) :
    Yields config pbkdf2 job (fun _ _ => True) (host.cancelApp user) seen := by
  refine (Host.canUse_yields held known.cached).bind fun first after toFirst same => ?_
  refine (Host.client_yields ((known.mono toFirst).same same)
    (same.held (held.mono toFirst))).bind ?_
  rintro second ⟨client, last⟩ _ ⟨may, -⟩
  exact (quiet_yields (.cancel client) may rfl).bind fun _ _ _ _ => known_yields fun _ _ => trivial

theorem Host.remove_yields (may : MayRemove config pbkdf2 (Attested seen) job.request host.id) :
    Yields config pbkdf2 job (fun _ _ => True)
      (do
        call (.dropImages host.id)
        change (.removeHost host.id)) seen := by
  refine (quiet_yields (.dropImages host.id) may rfl).bind fun later _ more _ => ?_
  have still : MayWrite config pbkdf2 (Attested later) job.request (.removeHost host.id) :=
    MayRemove.mono more may
  exact change_yields still

theorem Host.delete_yields (known : Known config pbkdf2 (Attested seen) job.request user)
    (held : host.Held (Attested seen) user.id) :
    Yields config pbkdf2 job (fun _ _ => True) (host.delete user) seen := by
  refine (getHost_yields host.id).bind fun first stored toFirst is => ?_
  replace known := known.mono toFirst
  replace held := held.mono toFirst
  split_ifs with owned
  · exact Host.remove_yields ⟨user.id, known.identified, held.usable,
      .inl (Calls.Attests.imp is fun _ was => ⟨stored, was, owned⟩)⟩
  · refine (User.roleType_yields known.cached).bind ?_
    rintro second ⟨ty, _⟩ toSecond ⟨admin, -⟩
    cases ty with
    | admin =>
      exact Host.remove_yields ⟨user.id, (known.mono toSecond).identified,
        (held.mono toSecond).usable, .inr (admin rfl)⟩
    | user => exact fail_yields

end Hosts

section Lookups

theorem userById_yields (id : UInt32) :
    Yields config pbkdf2 job (fun once user => user.id = id ∧ user.Cached once) (userById id)
      seen := by
  refine (getUser_yields id).bind fun _ stored _ is => pure_yields ⟨rfl, ?_⟩
  rintro _ ⟨rfl⟩
  exact is

theorem userByName_yields (name : String) :
    Yields config pbkdf2 job (fun once user => user.Cached once ∧
        ∃ stored, user.cacheStorage = some stored ∧ stored.name = name)
      (userByName name) seen := by
  refine (getUserByName_yields name).bind ?_
  rintro _ ⟨id, stored⟩ _ ⟨is, named⟩
  refine pure_yields ⟨?_, stored, rfl, named⟩
  rintro _ ⟨rfl⟩
  exact is

theorem roleById_yields (id : UInt32) :
    Yields config pbkdf2 job (fun once role => role.id = id ∧ role.Cached once) (roleById id)
      seen := by
  refine (getRole_yields id).bind fun _ stored _ is => pure_yields ⟨rfl, ?_⟩
  rintro _ ⟨rfl⟩
  exact is

theorem addUserNoAuth_yields {user : V3User}
    (may : MayWrite config pbkdf2 (Attested seen) job.request (.addUser user)) :
    Yields config pbkdf2 job
      (fun once added => added.Cached once ∧ once (Store.isUser added.id user))
      (addUserNoAuth user) seen := by
  unfold addUserNoAuth
  split_ifs
  · exact fail_yields
  · refine (write_yields may fun _ _ _ => added_user).bind fun _ id _ is => pure_yields ⟨?_, is⟩
    rintro _ ⟨rfl⟩
    exact is

theorem addRoleNoAuth_yields {role : V3Role}
    (may : MayWrite config pbkdf2 (Attested seen) job.request (.addRole role)) :
    Yields config pbkdf2 job
      (fun once added => added.Cached once ∧ once (Store.isRole added.id role))
      (addRoleNoAuth role) seen := by
  refine (write_yields may fun _ _ _ => added_role).bind fun _ id _ is => pure_yields ⟨?_, is⟩
  rintro _ ⟨rfl⟩
  exact is

theorem findRole_yields (ty : RoleType) :
    Yields config pbkdf2 job
      (fun once role => RoleWas once role.id fun stored => stored.ty = ty) (findRole ty) seen := by
  refine listRoles_yields.bind fun first roles _ known => ?_
  have found : Yields config pbkdf2 job
      (fun once entry => once (Store.isRole entry.1 entry.2) ∧ entry.2.ty = ty)
      (anyOf (.storage .roleNotFound) (roles.filter fun entry => entry.2.ty = ty)) first := by
    refine anyOf_yields fun _ entry more member => ?_
    obtain ⟨read, typed⟩ := List.mem_filter.mp member
    exact ⟨more _ (known entry read), by simpa using typed⟩
  refine found.bind ?_
  rintro _ ⟨id, stored⟩ _ ⟨is, typed⟩
  exact pure_yields (Calls.Attests.imp is fun _ was => ⟨stored, was, typed⟩)

/-- The role of a user who is made for a forwarded header: the configured one, or one of users. -/
theorem defaultRole_yields {username : String} (creates : AutoCreates config job.request username) :
    Yields config pbkdf2 job
      (fun once role => config.defaultRoleId = some role.id ∨
        RoleWas once role.id fun stored => stored.ty = .user)
      (defaultRole config) seen := by
  unfold defaultRole
  split
  next id configured =>
    refine (roleById_yields id).mono ?_
    rintro _ role _ ⟨rfl, -⟩
    exact .inl configured
  next =>
    refine (attempt_yields (findRole_yields .user)).bind fun later result _ ended => ?_
    split
    next => exact pure_yields (.inr ended)
    next =>
      have may : MayWrite config pbkdf2 (Attested later) job.request (.addRole defaultUserRole) :=
        .inr ⟨rfl, username, creates⟩
      refine (addRoleNoAuth_yields may).mono ?_
      rintro _ role _ ⟨-, is⟩
      exact .inr (Calls.Attests.imp is fun _ was => ⟨_, was, rfl⟩)
    next => exact throw_yields ended

theorem userByForwardedHeaders_yields {username : String}
    (auth : job.request.auth config = .ok (.forwardedHeaders username)) :
    Yields config pbkdf2 job (fun once user => Known config pbkdf2 once job.request user)
      (userByForwardedHeaders config username) seen := by
  refine (attempt_yields (userByName_yields username)).bind fun later result _ ended => ?_
  split
  next user => exact User.authenticateForwarded_yields ended.1 auth
  next =>
    split
    next => exact fail_yields
    next forwarded configured =>
      split_ifs with automatic
      · have creates : AutoCreates config job.request username :=
          ⟨auth, forwarded, configured, automatic⟩
        refine (defaultRole_yields creates).bind fun second role _ right => ?_
        have may : MayWrite config pbkdf2 (Attested second) job.request
            (.addUser ⟨role.id, username, none, username⟩) := .inr ⟨creates, rfl, right⟩
        refine (addUserNoAuth_yields may).mono ?_
        rintro _ user _ ⟨cached, is⟩
        exact ⟨⟨_, auth, by simp [configured], Calls.Attests.imp is fun _ was => ⟨_, was, rfl⟩⟩,
          cached⟩
      · exact fail_yields
  next => exact throw_yields ended

/-- Whoever `user_by_auth` returns was the one whom the credentials identify. -/
theorem userByAuth_yields {auth : UserAuth} (given : job.request.auth config = .ok auth) :
    Yields config pbkdf2 job (fun once user => Known config pbkdf2 once job.request user)
      (userByAuth config pbkdf2 auth) seen := by
  cases auth with
  | none =>
    simp only [userByAuth]
    split
    next => exact fail_yields
    next id configured =>
      refine (userById_yields id).mono ?_
      rintro _ user _ ⟨rfl, cached⟩
      exact ⟨⟨_, given, configured⟩, cached⟩
  | userPassword username password =>
    exact (userByName_yields username).bind fun _ user _ found =>
      User.authenticateUserPassword_yields found.1 given
  | session token =>
    refine (getUserBySessionToken_yields token).bind fun _ id _ is =>
      pure_yields ⟨⟨_, given, is⟩, ?_⟩
    rintro _ ⟨⟩
  | forwardedHeaders username => exact userByForwardedHeaders_yields given

end Lookups

end Api

end BetterParsec
