import BetterParsec.Server.ApiObjects

set_option autoImplicit false
set_option linter.all false

/-!
# Authorization

Every handler keeps to the rules, so in every interleaving of requests each call is one that its
request may make, and each reply shows what its request may see.
-/

namespace BetterParsec

namespace Api

variable {config : Config} {pbkdf2 : Pbkdf2} {job : Job}
  {seen : List (Calls.Observation Answer)}

section Credentials

theorem userAuth_yields
    (headers : job.request.auth config = extractUserAuth config job.request.http) :
    Yields config pbkdf2 job (fun _ auth => job.request.auth config = .ok auth)
      (userAuth config job.request.http) seen := by
  unfold userAuth
  split
  next auth given => exact pure_yields (headers.trans given)
  next => exact fail_yields

theorem authenticatedUser_yields
    (headers : job.request.auth config = extractUserAuth config job.request.http) :
    Yields config pbkdf2 job (fun once user => Known config pbkdf2 once job.request user)
      (authenticatedUser config pbkdf2 job.request.http) seen :=
  (userAuth_yields headers).bind fun _ _ _ given => userByAuth_yields given

theorem admin_yields
    (headers : job.request.auth config = extractUserAuth config job.request.http) :
    Yields config pbkdf2 job (fun once _ => ByAdmin config pbkdf2 once job.request)
      (admin config pbkdf2 job.request.http) seen :=
  (authenticatedUser_yields headers).bind fun _ _ _ known => User.intoAdmin_yields known

theorem tryAddFirstLogin_yields {username password : String}
    (login : job.request.endpoint = .login username password)
    (first : config.webServer.firstLoginCreateAdmin = true) :
    Yields config pbkdf2 job (fun once user => Known config pbkdf2 once job.request user)
      (tryAddFirstLogin pbkdf2 username password) seen := by
  refine (attempt_yields (newPassword_yields password)).bind fun later result _ ended => ?_
  have verifies : ∀ given, result.toOption = some given →
      verify pbkdf2 given password = .ok true := by
    intro given made
    cases result with
    | ok stored =>
      obtain rfl : stored = given := Option.some.inj made
      exact ended
    | error => cases made
  have may : MayWrite config pbkdf2 (Attested later) job.request
      (.tryAddFirstLogin username result.toOption) := ⟨first, password, login, verifies⟩
  have added : Yields config pbkdf2 job
      (fun once id => UserWas once id fun user => user.name = username ∧
        ∃ stored, user.password = some stored ∧ verify pbkdf2 stored password = .ok true)
      (write (.tryAddFirstLogin username result.toOption) firstUser) later := by
    refine write_yields may fun moments reply id is backed => ?_
    cases reply with
    | firstLogin =>
      cases is
      obtain ⟨roleId, stored, given, store, member, was⟩ := backed
      exact ⟨store, member, _, was, rfl, stored, rfl, verifies stored given⟩
    | _ => cases is
  have given : job.request.auth config = .ok (.userPassword username password) := by
    rw [Request.auth, login]
  exact added.bind fun _ id _ was => pure_yields ⟨⟨_, given, was⟩, by rintro _ ⟨⟩⟩

theorem loginUser_yields {name password : String}
    (login : job.request.endpoint = .login name password) :
    Yields config pbkdf2 job (fun once user => Known config pbkdf2 once job.request user)
      (loginUser config pbkdf2 name password) seen := by
  have given : job.request.auth config = .ok (.userPassword name password) := by
    rw [Request.auth, login]
  unfold loginUser
  split_ifs with first
  · refine (attempt_yields (tryAddFirstLogin_yields login first)).bind fun _ result _ ended => ?_
    split
    next => exact pure_yields ended
    next => exact userByAuth_yields given
    next => exact throw_yields ended
  · exact userByAuth_yields given

theorem login_yields {name password : String}
    (login : job.request.endpoint = .login name password) :
    Yields config pbkdf2 job (fun once reply => MayReply config pbkdf2 once job.request reply)
      (Api.login config pbkdf2 job.request.http name password) seen := by
  refine (quiet_yields (.checkLimit _) trivial rfl).bind fun _ (denied : Option Nat) _ _ => ?_
  cases denied with
  | some seconds => exact pure_yields trivial
  | none =>
    refine (attempt_yields (loginUser_yields login)).bind fun _ result _ ended => ?_
    split
    next user =>
      have known : Known config pbkdf2 _ job.request user := ended
      refine (quiet_yields (.clearLimit _) trivial rfl).bind fun _ _ more _ => ?_
      refine (User.newSession_yields (known.identified.mono more) login).bind ?_
      intro _ token further _
      exact pure_yields ⟨user.id, (known.identified.mono more).mono further⟩
    next error =>
      split_ifs
      · exact (quiet_yields (.recordFailure _) trivial rfl).bind fun _ _ _ _ => fail_yields
      · exact fail_yields
    next => exact throw_yields ended

theorem logout_yields
    (headers : job.request.auth config = extractUserAuth config job.request.http) :
    Yields config pbkdf2 job (fun once reply => MayReply config pbkdf2 once job.request reply)
      (logout config job.request.http) seen := by
  refine (userAuth_yields headers).bind fun later auth _ given => ?_
  split
  next token =>
    have may : MayWrite config pbkdf2 (Attested later) job.request (.removeSessionToken token) :=
      given
    exact (change_yields may).bind fun _ _ _ _ => pure_yields trivial
  next => exact pure_yields trivial

end Credentials

section Hosts

variable {user : User} (known : Known config pbkdf2 (Attested seen) job.request user)
  {hostId : UInt32}

include known

theorem listEach_yields {hosts : List Host}
    (fresh : ∀ host ∈ hosts, host.Fresh (Attested seen) user.id) :
    Yields config pbkdf2 job
      (fun once listed => ∀ host ∈ listed, MayShow config pbkdf2 once job.request host.hostId)
      (listEach job.request user hosts) seen := by
  induction hosts generalizing seen with
  | nil => exact pure_yields (by simp)
  | cons host rest ih =>
    have first := fresh host List.mem_cons_self
    refine (attempt_yields (Host.undetailedHostCached_yields first known.cached)).bind ?_
    intro second result toSecond ended
    have ready : Ready config pbkdf2 (Attested second) (.listed job.request host user) :=
      ⟨known.mono toSecond, first.held.mono toSecond, first.cached⟩
    refine (spawn_yields ready).bind fun third _ toThird _ => ?_
    have given : Yields config pbkdf2 job (fun _ undetailed => undetailed.hostId = host.id)
        (Calls.give result) third := by
      refine Calls.Gives.give ?_ ?_
      · rintro undetailed rfl
        exact ended
      · rintro failure rfl
        exact MayEnd.mono toThird ended
    refine given.bind fun fourth undetailed toFourth same => ?_
    have later := (toSecond.trans toThird).trans toFourth
    have others := ih (known.mono later) fun other member =>
      ⟨(fresh other (List.mem_cons_of_mem _ member)).held.mono later,
        (fresh other (List.mem_cons_of_mem _ member)).cached⟩
    refine others.bind fun fifth listed toFifth shown => pure_yields fun shownHost member => ?_
    rcases List.mem_cons.mp member with rfl | other
    · rw [same]
      exact ⟨user.id, (known.mono (later.trans toFifth)).identified,
        (first.held.mono (later.trans toFifth)).usable, trivial⟩
    · exact shown shownHost other

theorem listHosts_yields :
    Yields config pbkdf2 job (fun once reply => MayReply config pbkdf2 once job.request reply)
      (listHosts job.request user) seen := by
  refine User.hosts_yields.bind fun _ hosts more fresh => ?_
  exact (listEach_yields (known.mono more) fresh).bind fun _ listed _ shown => pure_yields shown

theorem getHostReply_yields :
    Yields config pbkdf2 job (fun once reply => MayReply config pbkdf2 once job.request reply)
      (getHostReply user hostId) seen := by
  refine (User.host_yields hostId).bind ?_
  rintro _ host more ⟨fresh, -⟩
  refine (Host.detailedHost_yields (known.mono more) fresh.held (.inl fresh.cached)).bind ?_
  exact fun _ detailed _ may => pure_yields may

theorem postHost_yields {address : String} {httpPort : Option UInt16} :
    Yields config pbkdf2 job (fun once reply => MayReply config pbkdf2 once job.request reply)
      (postHost config user address httpPort) seen := by
  refine (User.hostAdd_yields address _ known).bind ?_
  rintro _ ⟨host, after⟩ more ⟨fresh, same⟩
  refine (Host.detailedHost_yields ((known.mono more).same same) (same.held fresh.held)
    (.inl fresh.cached)).bind ?_
  exact fun _ detailed _ may => pure_yields may

theorem patchHost_yields {changeOwner : Bool} {owner : Option UInt32} :
    Yields config pbkdf2 job (fun once reply => MayReply config pbkdf2 once job.request reply)
      (patchHost user hostId changeOwner owner) seen := by
  refine (User.host_yields hostId).bind ?_
  rintro first host toFirst ⟨fresh, -⟩
  replace known := known.mono toFirst
  refine (User.role_yields known.cached).bind ?_
  rintro second ⟨role, after⟩ toSecond ⟨was, cached, same⟩
  replace known := (known.mono toSecond).same same
  have held := same.held (fresh.held.mono toSecond)
  cases changeOwner with
  | false =>
    exact (Host.modify_yields known held fun changes => absurd rfl changes).bind
      fun _ _ _ _ => pure_yields trivial
  | true =>
    refine (Role.ty_yields cached).bind ?_
    rintro third ⟨ty, _⟩ toThird typed
    cases ty with
    | user => exact fail_yields
    | admin =>
      have admin : IsAdmin (Attested third) after.id := by
        rw [show after.id = user.id from same.id]
        exact ⟨role.id, toThird _ was, typed⟩
      exact (Host.modify_yields (known.mono toThird) (held.mono toThird) fun _ => admin).bind
        fun _ _ _ _ => pure_yields trivial

theorem deleteHost_yields :
    Yields config pbkdf2 job (fun once reply => MayReply config pbkdf2 once job.request reply)
      (deleteHost user hostId) seen := by
  refine (User.host_yields hostId).bind ?_
  rintro _ host more ⟨fresh, -⟩
  exact (Host.delete_yields (known.mono more) fresh.held).bind fun _ _ _ _ => pure_yields trivial

theorem pairHost_yields :
    Yields config pbkdf2 job (fun once reply => MayReply config pbkdf2 once job.request reply)
      (pairHost job.request user hostId) seen := by
  refine (User.host_yields hostId).bind ?_
  rintro first host toFirst ⟨fresh, -⟩
  refine (quiet_yields .newPin trivial rfl).bind fun second pin toSecond _ => ?_
  have later := toFirst.trans toSecond
  have ready : Ready config pbkdf2 (Attested second) (.pairing job.request host user pin) :=
    ⟨known.mono later, fresh.held.mono toSecond⟩
  refine (spawn_yields ready).bind fun third _ toThird _ => ?_
  exact pure_yields ⟨user.id, (known.mono (later.trans toThird)).identified⟩

theorem wakeHost_yields :
    Yields config pbkdf2 job (fun once reply => MayReply config pbkdf2 once job.request reply)
      (wakeHost user hostId) seen := by
  refine (User.host_yields hostId).bind ?_
  rintro _ host more ⟨fresh, -⟩
  exact (Host.wake_yields (known.mono more) fresh.held).bind fun _ _ _ _ => pure_yields trivial

theorem getApps_yields :
    Yields config pbkdf2 job (fun once reply => MayReply config pbkdf2 once job.request reply)
      (getApps user hostId) seen := by
  refine (User.host_yields hostId).bind ?_
  rintro _ host toFirst ⟨fresh, -⟩
  refine (Host.listApps_yields (known.mono toFirst) fresh.held).bind fun _ _ toSecond _ => ?_
  exact pure_yields ⟨user.id, ((known.mono toFirst).mono toSecond).identified⟩

theorem getAppImage_yields {appId : UInt32} {forceRefresh : Bool} :
    Yields config pbkdf2 job (fun once reply => MayReply config pbkdf2 once job.request reply)
      (getAppImage user hostId appId forceRefresh) seen := by
  refine (User.host_yields hostId).bind ?_
  rintro _ host toFirst ⟨fresh, -⟩
  refine (Host.appImage_yields (known.mono toFirst) fresh.held).bind fun _ _ toSecond _ => ?_
  exact pure_yields ⟨user.id, ((known.mono toFirst).mono toSecond).identified⟩

theorem cancelHost_yields :
    Yields config pbkdf2 job (fun once reply => MayReply config pbkdf2 once job.request reply)
      (cancelHost user hostId) seen := by
  refine (User.host_yields hostId).bind ?_
  rintro _ host toFirst ⟨fresh, -⟩
  refine (Host.cancelApp_yields (known.mono toFirst) fresh.held).bind fun _ _ toSecond _ => ?_
  exact pure_yields ⟨user.id, ((known.mono toFirst).mono toSecond).identified⟩

theorem startHost_yields :
    Yields config pbkdf2 job (fun once reply => MayReply config pbkdf2 once job.request reply)
      (startHost job.request user) seen := by
  refine (User.hostUniqueId_yields known.cached).bind ?_
  rintro first ⟨uniqueId, named⟩ toFirst ⟨unique, same⟩
  replace known := (known.mono toFirst).same same
  refine (User.role_yields known.cached).bind ?_
  rintro second ⟨role, after⟩ toSecond ⟨was, cached, again⟩
  replace known := (known.mono toSecond).same again
  refine (Role.permissions_yields cached).bind ?_
  rintro third ⟨permissions, _⟩ toThird permitted
  have id : after.id = named.id := again.id
  have ready : Ready config pbkdf2 (Attested third)
      (.streaming job.request after uniqueId permissions) := by
    refine ⟨known.mono toThird, ?_, role.id, ?_, permitted⟩
    · rw [id, show named.id = user.id from same.id]
      exact (toSecond.trans toThird) _ unique
    · rw [id]
      exact toThird _ was
  exact (spawn_yields ready).bind fun _ _ _ _ => pure_yields trivial

end Hosts

section Users

variable {user : User}

theorem getUserReply_yields {name : Option String} {userId : Option UInt32}
    (known : Known config pbkdf2 (Attested seen) job.request user) :
    Yields config pbkdf2 job (fun once reply => MayReply config pbkdf2 once job.request reply)
      (getUserReply config user name userId) seen := by
  cases name with
  | none =>
    cases userId with
    | none =>
      refine (User.detailedUserNoAuth_yields known.cached).bind ?_
      rintro _ ⟨detailed, after⟩ more ⟨id, was, -⟩
      refine pure_yields ⟨⟨user.id, known.identified.mono more, .inl id⟩, ?_⟩
      rw [show detailed.id = user.id from id]
      exact was
    | some id =>
      refine (userById_yields id).bind ?_
      rintro _ target more ⟨-, cached⟩
      exact (User.detailedUser_yields cached (known.mono more)).bind
        fun _ _ _ may => pure_yields may
  | some name =>
    cases userId with
    | none =>
      refine (userByName_yields name).bind ?_
      rintro _ target more ⟨cached, -⟩
      exact (User.detailedUser_yields cached (known.mono more)).bind
        fun _ _ _ may => pure_yields may
    | some id => exact fail_yields

theorem addUser_yields {name password clientUniqueId : String} {roleId : UInt32}
    (admin : ByAdmin config pbkdf2 (Attested seen) job.request) :
    Yields config pbkdf2 job (fun once reply => MayReply config pbkdf2 once job.request reply)
      (Api.addUser config pbkdf2 name password roleId clientUniqueId) seen := by
  refine (newPassword_yields password).bind fun first stored toFirst _ => ?_
  have may : MayWrite config pbkdf2 (Attested first) job.request
      (.addUser ⟨roleId, name, some stored, clientUniqueId⟩) := .inl (admin.mono toFirst)
  refine (addUserNoAuth_yields may).bind ?_
  rintro second added toSecond ⟨cached, -⟩
  refine (User.detailedUserNoAuth_yields cached).bind ?_
  rintro third ⟨detailed, _⟩ toThird ⟨id, was, -⟩
  obtain ⟨admin, identified, right⟩ := admin.mono ((toFirst.trans toSecond).trans toThird)
  refine pure_yields ⟨⟨admin, identified, .inr right⟩, ?_⟩
  rw [show detailed.id = added.id from id]
  exact was

theorem newPasswordIfAny_yields {password : Option String} :
    Yields config pbkdf2 job (fun _ _ => True) (newPasswordIfAny pbkdf2 password) seen := by
  cases password with
  | none => exact pure_yields trivial
  | some password => exact (newPassword_yields password).bind fun _ _ _ _ => pure_yields trivial

/-- An administrator changes anyone; anyone else only their own password. -/
theorem patchUser_yields {id : UInt32} {password clientUniqueId : Option String}
    {roleId : Option UInt32} (known : Known config pbkdf2 (Attested seen) job.request user) :
    Yields config pbkdf2 job (fun once reply => MayReply config pbkdf2 once job.request reply)
      (patchUser pbkdf2 user id password roleId clientUniqueId) seen := by
  refine (Admin.tryFrom_yields known).bind fun first result toFirst told => ?_
  cases result with
  | ok admin =>
    obtain ⟨identified, right⟩ := told.1 _ rfl
    have byAdmin : ByAdmin config pbkdf2 (Attested first) job.request :=
      ⟨_, identified.identified, right⟩
    refine (userById_yields id).bind fun second target toSecond _ => ?_
    refine newPasswordIfAny_yields.bind fun third stored toThird _ => ?_
    have may : MayWrite config pbkdf2 (Attested third) job.request
        (.modifyUser target.id ⟨roleId, stored.map some, clientUniqueId⟩) :=
      .inl (byAdmin.mono (toSecond.trans toThird))
    exact (change_yields may).bind fun _ _ _ _ => pure_yields trivial
  | error other =>
    have own := told.2 _ rfl
    dsimp only
    split_ifs
    · exact fail_yields
    · exact fail_yields
    · cases password with
      | none => exact pure_yields trivial
      | some password =>
        refine (newPassword_yields password).bind fun _ stored more _ => ?_
        exact (User.setPassword_yields (own.identified.mono more) stored).bind
          fun _ _ _ _ => pure_yields trivial

theorem deleteUser_yields {id : UInt32}
    (admin : ByAdmin config pbkdf2 (Attested seen) job.request) :
    Yields config pbkdf2 job (fun once reply => MayReply config pbkdf2 once job.request reply)
      (deleteUser id) seen := by
  refine (userById_yields id).bind fun later target more _ => ?_
  have may : MayWrite config pbkdf2 (Attested later) job.request (.removeUser target.id) :=
    ByAdmin.mono more admin
  exact (change_yields may).bind fun _ _ _ _ => pure_yields trivial

theorem detailEach_yields {users : List User}
    (admin : ByAdmin config pbkdf2 (Attested seen) job.request)
    (cached : ∀ user ∈ users, user.Cached (Attested seen)) :
    Yields config pbkdf2 job
      (fun once detailed => ∀ user ∈ detailed, MaySee config pbkdf2 once job.request user)
      (detailEach config users) seen := by
  induction users generalizing seen with
  | nil => exact pure_yields (by simp)
  | cons user rest ih =>
    have first := cached user List.mem_cons_self
    refine (attempt_yields (User.detailedUserNoAuth_yields first)).bind ?_
    intro second result toSecond ended
    have others := ih (admin.mono toSecond) fun other member =>
      (cached other (List.mem_cons_of_mem _ member)).mono toSecond
    refine others.bind fun third detailed toThird may => pure_yields fun shown member => ?_
    rcases List.mem_append.mp member with own | other
    · cases result with
      | ok result =>
        obtain rfl : shown = result.1 := List.mem_singleton.mp own
        obtain ⟨id, was, -⟩ := ended
        obtain ⟨admin, identified, right⟩ := admin.mono (toSecond.trans toThird)
        refine ⟨⟨admin, identified, .inr right⟩, ?_⟩
        rw [id]
        exact toThird _ was
      | error => simp [Except.toOption] at own
    · exact may shown other

theorem listUsersReply_yields (admin : ByAdmin config pbkdf2 (Attested seen) job.request) :
    Yields config pbkdf2 job (fun once reply => MayReply config pbkdf2 once job.request reply)
      (listUsersReply config) seen := by
  refine listUsers_yields.bind fun first users toFirst is => ?_
  have cached : ∀ user ∈ users.map fun entry => (⟨entry.1, some entry.2⟩ : User),
      user.Cached (Attested first) := by
    intro user member
    obtain ⟨entry, listed, rfl⟩ := List.mem_map.mp member
    rintro _ ⟨rfl⟩
    exact is entry listed
  refine (detailEach_yields (admin.mono toFirst) cached).bind fun _ _ toSecond may => ?_
  exact pure_yields ⟨(admin.mono toFirst).mono toSecond, may⟩

theorem getDefaultSettings_yields
    (known : Known config pbkdf2 (Attested seen) job.request user) :
    Yields config pbkdf2 job (fun once reply => MayReply config pbkdf2 once job.request reply)
      (getDefaultSettings user) seen := by
  refine (User.role_yields known.cached).bind ?_
  rintro first ⟨role, _⟩ toFirst ⟨was, cached, -⟩
  refine (Role.defaultSettings_yields cached).bind ?_
  rintro second ⟨settings, _⟩ toSecond held
  exact pure_yields ⟨user.id, role.id, ((known.mono toFirst).mono toSecond).identified,
    toSecond _ was, held⟩

theorem getPermissions_yields
    (known : Known config pbkdf2 (Attested seen) job.request user) :
    Yields config pbkdf2 job (fun once reply => MayReply config pbkdf2 once job.request reply)
      (getPermissions user) seen := by
  refine (User.role_yields known.cached).bind ?_
  rintro first ⟨role, _⟩ toFirst ⟨was, cached, -⟩
  refine (Role.permissions_yields cached).bind ?_
  rintro second ⟨permissions, _⟩ toSecond held
  exact pure_yields ⟨user.id, ((known.mono toFirst).mono toSecond).identified, role.id,
    toSecond _ was, held⟩

end Users

section Roles

theorem addRoleReply_yields {role : V3Role}
    (admin : ByAdmin config pbkdf2 (Attested seen) job.request) :
    Yields config pbkdf2 job (fun once reply => MayReply config pbkdf2 once job.request reply)
      (addRoleReply role) seen := by
  have may : MayWrite config pbkdf2 (Attested seen) job.request (.addRole role) := .inl admin
  refine (addRoleNoAuth_yields may).bind ?_
  rintro first added toFirst ⟨cached, -⟩
  refine (Role.detailedRole_yields cached).bind fun second detailed toSecond was => ?_
  obtain ⟨id, identified, -⟩ := admin.mono (toFirst.trans toSecond)
  exact pure_yields ⟨⟨id, identified⟩, was⟩

theorem getRoleReply_yields {user : User} {id : Option UInt32}
    (known : Known config pbkdf2 (Attested seen) job.request user) :
    Yields config pbkdf2 job (fun once reply => MayReply config pbkdf2 once job.request reply)
      (getRoleReply user id) seen := by
  have shown (roleId : UInt32) {first : List (Calls.Observation Answer)}
      (toFirst : Attested seen ≤ Attested first) :
      Yields config pbkdf2 job (fun once reply => MayReply config pbkdf2 once job.request reply)
        (do
          let role ← roleById roleId
          let detailed ← role.detailedRole
          pure (.role detailed)) first := by
    refine (roleById_yields roleId).bind ?_
    rintro second role toSecond ⟨-, cached⟩
    refine (Role.detailedRole_yields cached).bind fun third detailed toThird was => ?_
    exact pure_yields ⟨⟨user.id,
      (known.mono ((toFirst.trans toSecond).trans toThird)).identified⟩, was⟩
  cases id with
  | some id => exact shown id le_rfl
  | none =>
    refine (User.roleId_yields known.cached).bind ?_
    rintro first ⟨id, _⟩ toFirst -
    exact shown id toFirst

theorem patchRole_yields {id : UInt32} {name defaultSettings : Option String}
    {permissions : Option RolePermissions}
    (admin : ByAdmin config pbkdf2 (Attested seen) job.request) :
    Yields config pbkdf2 job (fun once reply => MayReply config pbkdf2 once job.request reply)
      (patchRole id name defaultSettings permissions) seen := by
  refine (roleById_yields id).bind fun later role more _ => ?_
  have may : MayWrite config pbkdf2 (Attested later) job.request
      (.modifyRole role.id ⟨name, none, defaultSettings, permissions⟩) := ⟨admin.mono more, rfl⟩
  exact (change_yields may).bind fun _ _ _ _ => pure_yields trivial

theorem deleteRole_yields {id : UInt32}
    (admin : ByAdmin config pbkdf2 (Attested seen) job.request) :
    Yields config pbkdf2 job (fun once reply => MayReply config pbkdf2 once job.request reply)
      (deleteRole id) seen := by
  refine (roleById_yields id).bind fun later role more _ => ?_
  have may : MayWrite config pbkdf2 (Attested later) job.request (.removeRole role.id) :=
    ByAdmin.mono more admin
  exact (change_yields may).bind fun _ _ _ _ => pure_yields trivial

theorem listRolesReply_yields (admin : ByAdmin config pbkdf2 (Attested seen) job.request) :
    Yields config pbkdf2 job (fun once reply => MayReply config pbkdf2 once job.request reply)
      listRolesReply seen :=
  listRoles_yields.bind fun _ _ more _ => pure_yields (ByAdmin.mono more admin)

end Roles

section Jobs

theorem handle_yields (request : Request) :
    Yields config pbkdf2 (.handle request)
      (fun once reply => MayReply config pbkdf2 once request reply)
      (handle config pbkdf2 request) seen := by
  obtain ⟨http, endpoint⟩ := request
  cases endpoint with
  | login name password => exact login_yields rfl
  | logout => exact logout_yields rfl
  | authenticate =>
    exact (authenticatedUser_yields rfl).bind fun _ _ _ _ => pure_yields trivial
  | listHosts => exact (authenticatedUser_yields rfl).bind fun _ _ _ known => listHosts_yields known
  | getHost =>
    exact (authenticatedUser_yields rfl).bind fun _ _ _ known => getHostReply_yields known
  | postHost => exact (authenticatedUser_yields rfl).bind fun _ _ _ known => postHost_yields known
  | patchHost => exact (authenticatedUser_yields rfl).bind fun _ _ _ known => patchHost_yields known
  | deleteHost =>
    exact (authenticatedUser_yields rfl).bind fun _ _ _ known => deleteHost_yields known
  | pairHost => exact (authenticatedUser_yields rfl).bind fun _ _ _ known => pairHost_yields known
  | wakeHost => exact (authenticatedUser_yields rfl).bind fun _ _ _ known => wakeHost_yields known
  | getApps => exact (authenticatedUser_yields rfl).bind fun _ _ _ known => getApps_yields known
  | getAppImage =>
    exact (authenticatedUser_yields rfl).bind fun _ _ _ known => getAppImage_yields known
  | getUser =>
    exact (authenticatedUser_yields rfl).bind fun _ _ _ known => getUserReply_yields known
  | patchUser => exact (authenticatedUser_yields rfl).bind fun _ _ _ known => patchUser_yields known
  | getRole =>
    exact (authenticatedUser_yields rfl).bind fun _ _ _ known => getRoleReply_yields known
  | getDefaultSettings =>
    exact (authenticatedUser_yields rfl).bind fun _ _ _ known => getDefaultSettings_yields known
  | getPermissions =>
    exact (authenticatedUser_yields rfl).bind fun _ _ _ known => getPermissions_yields known
  | startHost => exact (authenticatedUser_yields rfl).bind fun _ _ _ known => startHost_yields known
  | cancelHost =>
    exact (authenticatedUser_yields rfl).bind fun _ _ _ known => cancelHost_yields known
  | addUser => exact (admin_yields rfl).bind fun _ _ _ admin => addUser_yields admin
  | deleteUser => exact (admin_yields rfl).bind fun _ _ _ admin => deleteUser_yields admin
  | listUsers => exact (admin_yields rfl).bind fun _ _ _ admin => listUsersReply_yields admin
  | addRole => exact (admin_yields rfl).bind fun _ _ _ admin => addRoleReply_yields admin
  | patchRole => exact (admin_yields rfl).bind fun _ _ _ admin => patchRole_yields admin
  | deleteRole => exact (admin_yields rfl).bind fun _ _ _ admin => deleteRole_yields admin
  | listRoles => exact (admin_yields rfl).bind fun _ _ _ admin => listRolesReply_yields admin

variable {user : User} {host : Host}

theorem listed_yields (known : Known config pbkdf2 (Attested seen) job.request user)
    (fresh : host.Fresh (Attested seen) user.id) :
    Yields config pbkdf2 job (fun once reply => MayReply config pbkdf2 once job.request reply)
      (listed host user) seen := by
  refine (attempt_yields (Host.undetailedHost_yields known fresh)).bind fun _ result _ ended => ?_
  split
  next undetailed =>
    exact (quiet_yields (.send (.undetailed undetailed)) ended rfl).bind
      fun _ _ _ _ => pure_yields trivial
  next => exact pure_yields trivial
  next => exact throw_yields ended

theorem pairThenDetail_yields {pin : String}
    (known : Known config pbkdf2 (Attested seen) job.request user)
    (held : host.Held (Attested seen) user.id)
    (pairs : ∃ request other from' pin, job = .pairing request other from' pin ∧
      other.id = host.id ∧ from'.id = user.id) :
    Yields config pbkdf2 job
      (fun once detailed => MayDetail config pbkdf2 once job.request detailed)
      (pairThenDetail host user pin) seen := by
  refine (Host.pair_yields known held).bind ?_
  rintro later ⟨other, after⟩ more ⟨id, cache, same⟩
  have sameId : other.id = host.id := id
  have emptied (stored : V2Host) : other.cacheStorage ≠ some stored := by
    rw [show other.cacheStorage = none from cache]
    simp
  have still : Host.Held (Attested later) after.id other := by
    refine ⟨?_, fun stored cached => absurd cached (emptied stored), fun stored cached =>
      absurd cached (emptied stored)⟩
    rw [sameId]
    exact (same.held (held.mono more)).usable
  refine Host.detailedHost_yields ((known.mono more).same same) still (.inr ?_)
  rw [sameId, show after.id = user.id from same.id]
  exact pairs

theorem pairing_yields {pin : String}
    (known : Known config pbkdf2 (Attested seen) job.request user)
    (held : host.Held (Attested seen) user.id)
    (pairs : ∃ request other from' pin, job = .pairing request other from' pin ∧
      other.id = host.id ∧ from'.id = user.id) :
    Yields config pbkdf2 job (fun once reply => MayReply config pbkdf2 once job.request reply)
      (pairing host user pin) seen := by
  refine (attempt_yields (pairThenDetail_yields known held pairs)).bind fun _ result _ ended => ?_
  split
  next detailed =>
    exact (quiet_yields (.send (.paired detailed)) ended rfl).bind
      fun _ _ _ _ => pure_yields trivial
  next =>
    exact (quiet_yields (.send .pairError) trivial rfl).bind fun _ _ _ _ => pure_yields trivial
  next => exact throw_yields ended

theorem collect_yields {hostId appId : UInt32}
    (known : Known config pbkdf2 (Attested seen) job.request user) :
    Yields config pbkdf2 job
      (fun once result => Usable once user.id hostId ∧
        (HostWas once hostId fun stored =>
          stored.address = result.2.1.1 ∧ stored.httpPort = result.2.1.2) ∧
        HostWas once hostId fun stored => stored.pairInfo = some result.2.2)
      (collect user hostId appId) seen := by
  refine (User.host_yields hostId).bind ?_
  rintro first host toFirst ⟨fresh, id⟩
  replace known := known.mono toFirst
  refine (Host.listApps_yields known fresh.held).bind ?_
  rintro second ⟨apps, listing⟩ toSecond listingSame
  replace known := (known.mono toSecond).same listingSame
  have held := listingSame.held (fresh.held.mono toSecond)
  have found : Yields config pbkdf2 job (fun _ _ => True)
      (Api.known (.storage .hostNotFound) (apps.find? fun app => app.id = appId)) second :=
    known_yields fun _ _ => trivial
  refine found.bind fun third app toThird _ => ?_
  replace known := known.mono toThird
  replace held := held.mono toThird
  refine (Host.addressPort_yields held known.cached).bind ?_
  rintro fourth ⟨address, asking⟩ toFourth ⟨addressed, askingSame⟩
  replace held := askingSame.held (held.mono toFourth)
  refine (Host.pairInfo_yields held askingSame.cached).bind ?_
  rintro fifth ⟨pairInfo, _⟩ toFifth paired
  rw [show host.id = hostId from id] at addressed paired
  have usable := (fresh.held.mono (((toSecond.trans toThird).trans toFourth).trans toFifth)).usable
  rw [show host.id = hostId from id] at usable
  exact pure_yields ⟨usable, toFifth _ addressed, paired⟩

theorem streaming_yields {clientUniqueId : String} {permissions : RolePermissions}
    (known : Known config pbkdf2 (Attested seen) job.request user)
    (unique : UserWas (Attested seen) user.id fun stored => stored.clientUniqueId = clientUniqueId)
    (permitted : Permitted (Attested seen) user.id fun held => held = permissions) :
    Yields config pbkdf2 job (fun once reply => MayReply config pbkdf2 once job.request reply)
      (streaming user clientUniqueId permissions) seen := by
  have logged {later : List (Calls.Observation Answer)} :
      Yields config pbkdf2 job (fun _ _ => True) (call (.send .debugLog)) later :=
    quiet_yields (.send .debugLog) trivial rfl
  refine (quiet_yields .firstMessage trivial rfl).bind ?_
  intro first (message : FirstMessage) toFirst _
  cases message with
  | closed | other => exact pure_yields trivial
  | init hostId appId videoFrameQueueSize audioSampleQueueSize =>
    refine (attempt_yields (collect_yields (known.mono toFirst))).bind ?_
    intro second result toSecond ended
    split
    next => exact logged.bind fun _ _ _ _ => pure_yields trivial
    next => exact throw_yields ended
    next app address httpPort pairInfo =>
      obtain ⟨usable, addressed, paired⟩ := ended
      refine (quiet_yields (.send (.updateApp app)) trivial rfl).bind fun third _ toThird _ => ?_
      refine logged.bind fun fourth _ toFourth _ => ?_
      refine (quiet_yields .launch trivial rfl).bind fun fifth launched toFifth _ => ?_
      split_ifs
      · have later := (toThird.trans toFourth).trans toFifth
        have all := (toFirst.trans toSecond).trans later
        have may : MayInit config pbkdf2 (Attested fifth) job.request ⟨address, httpPort,
            clientUniqueId, pairInfo, appId, videoFrameQueueSize, audioSampleQueueSize,
            permissions⟩ :=
          ⟨hostId, user.id, (known.mono all).identified, later _ usable, later _ addressed,
            later _ paired, all _ unique, permitted.mono all⟩
        exact (quiet_yields (.sendInit _) may rfl).bind fun _ _ _ _ => pure_yields trivial
      · exact logged.bind fun _ _ _ _ => pure_yields trivial

end Jobs

theorem server_obeys : (server config pbkdf2).Obeys (rules config pbkdf2) Tells where
  entry _ _ := trivial
  program job seen ready := by
    have yields : Yields config pbkdf2 job
        (fun once reply => MayReply config pbkdf2 once job.request reply)
        (program config pbkdf2 job) seen := by
      cases job with
      | handle request => exact handle_yields request
      | listed request host user => exact listed_yields ready.1 ⟨ready.2.1, ready.2.2⟩
      | pairing request host user pin =>
        exact pairing_yields ready.1 ready.2 ⟨request, host, user, pin, rfl, rfl, rfl⟩
      | streaming request user clientUniqueId permissions =>
        exact streaming_yields ready.1 ready.2.1 ready.2.2
    refine Calls.Meets.mono yields fun later result _ ends => ?_
    cases result with
    | ok => exact ends
    | error => exact ends

section Runs

variable (config pbkdf2)

abbrev Running : Type := Calls.Task Store Nat Job Answer (Except Failure Reply)

def run (data : V3) (actions : List (Calls.Action Request Op Background Choice)) :
    Calls.State Store Nat Job Answer (Except Failure Reply) :=
  (server config pbkdf2).run (Store.load data) actions

/-- In every interleaving of requests, whatever is about to change the storage was authorised by
what the storage held at some moments since its request arrived. -/
theorem run_authorises (data : V3) (actions : List (Calls.Action Request Op Background Choice))
    (task : Running) (member : task ∈ (run config pbkdf2 data actions).tasks)
    (written : StorageRequest)
    (rest : StorageReply → Calls.Program Op Answer (Except Failure Reply))
    (writes : task.program = .call (.write written) rest) :
    MayWrite config pbkdf2 (Calls.Amid task.moments) task.job.request written :=
  Calls.System.run_allowed server_truthful server_obeys (Store.load data) actions member writes

def offlineInfo : ServerInfo := ⟨"pc", false, .free, 0, 0, "", "", "", none, "", 0, 0, 0⟩

-- Everything outside the server works, and every id that is drawn is 9.
def willing : (op : Op) → Choice op
  | .userIds | .roleIds | .hostIds => []
  | .readUser _ | .readRole _ | .readHost _ | .getImage _ _ _ => none
  | .userBySessionToken _ => .error .sessionTokenNotFound
  | .write _ => (⟨some 9, some ⟨0⟩⟩, 0)
  | .pick count => ⟨0, Nat.succ_pos count⟩
  | .randomSalt => some 0
  | .newPin => "0000"
  | .checkLimit _ => none
  | .clearLimit _ | .recordFailure _ => ()
  | .probe _ _ _ => .ok offlineInfo
  | .connect _ => true
  | .serverInfo _ => .ok offlineInfo
  | .pair _ _ => some (⟨"", "", ""⟩, offlineInfo)
  | .appList _ => some []
  | .requestAppImage _ _ => some []
  | .cancel _ => some true
  | .broadcastMagicPacket _ => true
  | .insertImage _ _ _ _ | .dropImages _ | .spawn _ | .send _ | .sendInit _ => ()
  | .firstMessage => .closed
  | .launch => true

def noHash : Pbkdf2 := fun _ _ _ => .ok 0

def annIsDefault : Config := ⟨⟨false, false⟩, some 1, none, none, 0, 0⟩

def annAdministers : V3 :=
  ⟨OrdMap.empty.insert 1 ⟨2, "ann", none, "ann"⟩,
    OrdMap.empty.insert 5 ⟨none, "10.0.0.5", 47989, none, "pc", none⟩,
    OrdMap.empty.insert 2 firstAdmin⟩

def unsigned (endpoint : Endpoint) : Request := ⟨⟨none, fun _ => none, none⟩, endpoint⟩

def removal : List (Calls.Action Request Op Background Choice) :=
  .arrive (unsigned (.deleteUser 1)) :: List.replicate 3 (.perform 0 willing)

theorem run_authorises_removal :
    ∃ task ∈ (run annIsDefault noHash annAdministers removal).tasks,
      MayWrite annIsDefault noHash (Calls.Amid task.moments) task.job.request (.removeUser 1) :=
  ⟨_, List.mem_cons_self, run_authorises annIsDefault noHash annAdministers removal _
    List.mem_cons_self _ _ rfl⟩

/-- What a request is told and what it makes the server do outside its storage is about itself,
about hosts that its user could use, or asked for by an administrator. -/
theorem run_discloses (data : V3) (actions : List (Calls.Action Request Op Background Choice))
    (task : Running) (member : task ∈ (run config pbkdf2 data actions).tasks) :
    (∀ reply, task.program = .done (.ok reply) →
      MayReply config pbkdf2 (Calls.Amid task.moments) task.job.request reply) ∧
    ∀ op rest, task.program = .call op rest → (∀ written, op ≠ .write written) →
      MayCall config pbkdf2 (Calls.Amid task.moments) task.job.request op :=
  ⟨fun _ ended => Calls.System.run_post server_truthful server_obeys (Store.load data) actions
      member ended,
    fun _ _ calls _ => Calls.System.run_allowed server_truthful server_obeys (Store.load data)
      actions member calls⟩

def showing : List (Calls.Action Request Op Background Choice) :=
  .arrive (unsigned (.getHost 5)) :: List.replicate 4 (.perform 0 willing)

theorem run_discloses_host :
    ∃ task ∈ (run annIsDefault noHash annAdministers showing).tasks,
      ∃ host, task.program = .done (.ok (.host host)) ∧
        MayDetail annIsDefault noHash (Calls.Amid task.moments) task.job.request host :=
  ⟨_, List.mem_cons_self, _, rfl, (run_discloses annIsDefault noHash annAdministers showing _
    List.mem_cons_self).1 _ rfl⟩

def displacement : List (Calls.Action Request Op Background Choice) :=
  .arrive (unsigned (.pairHost 5)) :: .arrive (unsigned (.patchHost 5 true (some 7))) ::
    (List.replicate 4 (Calls.Action.perform 0 willing) ++
      List.replicate 8 (Calls.Action.perform 2 willing) ++
      List.replicate 6 (Calls.Action.perform 1 willing) ++ [Calls.Action.perform 2 willing])

end Runs

end Api

end BetterParsec
