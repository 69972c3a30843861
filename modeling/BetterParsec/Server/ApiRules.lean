import BetterParsec.Server.ApiService

set_option autoImplicit false
set_option linter.all false

/-!
# Who may do what

What a request may call for, given which facts about the store held at some moment since it
arrived. The checks of a handler are at different moments, so a right is a conjunction of facts
that may have held one after the other.
-/

namespace BetterParsec

namespace Api

section Rights

variable (config : Config) (pbkdf2 : Pbkdf2) (once : Calls.Facts Store)

def UserWas (id : UInt32) (holds : V3User → Prop) : Prop :=
  once fun store => ∃ user, store.isUser id user ∧ holds user

def RoleWas (id : UInt32) (holds : V3Role → Prop) : Prop :=
  once fun store => ∃ role, store.isRole id role ∧ holds role

def HostWas (id : UInt32) (holds : V2Host → Prop) : Prop :=
  once fun store => ∃ host, store.isHost id host ∧ holds host

-- The credentials of a request; those of a login are in its body.
def Request.auth (request : Request) : Except Error UserAuth :=
  match request.endpoint with
  | .login name password => .ok (.userPassword name password)
  | _ => extractUserAuth config request.http

-- The credentials were those of the user.
def Identified (id : UInt32) : UserAuth → Prop
  | .none => config.defaultUserId = some id
  | .userPassword username password => UserWas once id fun user =>
      user.name = username ∧
        ∃ stored, user.password = some stored ∧ verify pbkdf2 stored password = .ok true
  | .session token => once (Store.isSession token id)
  | .forwardedHeaders username =>
      config.forwardedHeader.isSome ∧ UserWas once id fun user => user.name = username

def By (request : Request) (id : UInt32) : Prop :=
  ∃ auth, request.auth config = .ok auth ∧ Identified config pbkdf2 once id auth

-- The user had a role that was one of administrators, maybe at another moment.
def IsAdmin (id : UInt32) : Prop :=
  ∃ roleId, (UserWas once id fun user => user.roleId = roleId) ∧
    RoleWas once roleId fun role => role.ty = .admin

def ByAdmin (request : Request) : Prop :=
  ∃ id, By config pbkdf2 once request id ∧ IsAdmin once id

def Permitted (id : UInt32) (holds : RolePermissions → Prop) : Prop :=
  ∃ roleId, (UserWas once id fun user => user.roleId = roleId) ∧
    RoleWas once roleId fun role => holds role.permissions

def Usable (id hostId : UInt32) : Prop :=
  HostWas once hostId fun host => host.owner = none ∨ host.owner = some id

-- A request of a user who could use the host.
def ByUserOf (request : Request) (hostId : UInt32) (holds : UInt32 → Prop) : Prop :=
  ∃ id, By config pbkdf2 once request id ∧ Usable once id hostId ∧ holds id

def AutoCreates (request : Request) (username : String) : Prop :=
  request.auth config = .ok (.forwardedHeaders username) ∧
    ∃ forwarded, config.forwardedHeader = some forwarded ∧ forwarded.autoCreateMissingUser = true

def MayRemove (request : Request) (hostId : UInt32) : Prop :=
  ByUserOf config pbkdf2 once request hostId fun id =>
    (HostWas once hostId fun host => host.owner = some id) ∨ IsAdmin once id

def MayWrite (request : Request) : StorageRequest → Prop
  | .addRole role => ByAdmin config pbkdf2 once request ∨
      role = defaultUserRole ∧ ∃ username, AutoCreates config request username
  | .modifyRole _ modify => ByAdmin config pbkdf2 once request ∧ modify.ty = none
  | .removeRole _ | .removeUser _ => ByAdmin config pbkdf2 once request
  | .addUser user => ByAdmin config pbkdf2 once request ∨
      AutoCreates config request user.name ∧ user.password = none ∧
        (config.defaultRoleId = some user.roleId ∨
          RoleWas once user.roleId fun role => role.ty = .user)
  | .modifyUser id modify => ByAdmin config pbkdf2 once request ∨
      By config pbkdf2 once request id ∧ modify.roleId = none ∧ modify.clientUniqueId = none
  | .addHost host => ∃ id, By config pbkdf2 once request id ∧ host.owner = some id ∧
      Permitted once id fun permissions => permissions.allowAddHosts = true
  | .modifyHost hostId modify => ByUserOf config pbkdf2 once request hostId fun id =>
      modify.owner ≠ none → IsAdmin once id
  | .removeHost hostId => MayRemove config pbkdf2 once request hostId
  | .createSessionToken id _ => By config pbkdf2 once request id ∧
      ∃ name password, request.endpoint = .login name password
  | .removeSessionToken token => request.auth config = .ok (.session token)
  | .removeAllUserSessionTokens _ => False
  | .tryAddFirstLogin username stored => config.webServer.firstLoginCreateAdmin = true ∧
      ∃ password, request.endpoint = .login username password ∧
        ∀ given, stored = some given → verify pbkdf2 given password = .ok true

-- A host is only contacted as the storage has it, for a user who could use it.
def MayContact (request : Request) (client : MoonlightClient) : Prop :=
  ∃ hostId, ByUserOf config pbkdf2 once request hostId fun _ =>
    HostWas once hostId fun host => host.address = client.address ∧
      host.httpPort = client.httpPort ∧ host.pairInfo = client.pairInfo

def MayShow (request : Request) (hostId : UInt32) : Prop :=
  ByUserOf config pbkdf2 once request hostId fun _ => True

def MayDetail (request : Request) (host : DetailedHost) : Prop :=
  ByUserOf config pbkdf2 once request host.hostId fun _ =>
    HostWas once host.hostId fun stored =>
      stored.address = host.address ∧ stored.httpPort = host.httpPort

def MayInit (request : Request) (init : StreamerInit) : Prop :=
  ∃ hostId, ByUserOf config pbkdf2 once request hostId fun id =>
    (HostWas once hostId fun host =>
      host.address = init.hostAddress ∧ host.httpPort = init.hostHttpPort) ∧
    (HostWas once hostId fun host => host.pairInfo = some init.pairInfo) ∧
    (UserWas once id fun user => user.clientUniqueId = init.clientUniqueId) ∧
    Permitted once id fun permissions => permissions = init.permissions

def MayCall (request : Request) : Op → Prop
  | .write written => MayWrite config pbkdf2 once request written
  | .probe _ _ _ => ∃ id, By config pbkdf2 once request id ∧
      Permitted once id fun permissions => permissions.allowAddHosts = true
  | .connect client | .serverInfo client | .pair client _ | .appList client
  | .requestAppImage client _ | .cancel client => MayContact config pbkdf2 once request client
  | .broadcastMagicPacket mac => ∃ hostId, ByUserOf config pbkdf2 once request hostId fun _ =>
      HostWas once hostId fun host => host.cacheMac = some mac
  | .getImage id hostId _ | .insertImage id hostId _ _ =>
      By config pbkdf2 once request id ∧ Usable once id hostId
  | .dropImages hostId => MayRemove config pbkdf2 once request hostId
  | .send (.undetailed host) => MayShow config pbkdf2 once request host.hostId
  | .send (.paired host) => MayDetail config pbkdf2 once request host
  | .sendInit init => MayInit config pbkdf2 once request init
  | _ => True

-- A user's details are for the user and for administrators.
def MaySee (request : Request) (user : DetailedUser) : Prop :=
  (∃ id, By config pbkdf2 once request id ∧ (user.id = id ∨ IsAdmin once id)) ∧
    UserWas once user.id fun stored => stored.name = user.name ∧ stored.roleId = user.roleId ∧
      stored.clientUniqueId = user.clientUniqueId

def MayReply (request : Request) : Reply → Prop
  | .ok | .badRequest | .tooManyRequests _ => True
  | .loggedIn _ | .cancelled | .apps _ | .image _ | .pin _ =>
      ∃ id, By config pbkdf2 once request id
  | .user user => MaySee config pbkdf2 once request user
  | .users users => ByAdmin config pbkdf2 once request ∧
      ∀ user ∈ users, MaySee config pbkdf2 once request user
  | .roles _ => ByAdmin config pbkdf2 once request
  | .role role => (∃ id, By config pbkdf2 once request id) ∧
      RoleWas once role.id fun stored => stored.ty = role.ty ∧ stored.permissions = role.permissions
  | .hosts hosts => ∀ host ∈ hosts, MayShow config pbkdf2 once request host.hostId
  | .host host => MayDetail config pbkdf2 once request host
  | .settings settings => ∃ id roleId, By config pbkdf2 once request id ∧
      (UserWas once id fun user => user.roleId = roleId) ∧
        RoleWas once roleId fun role => role.defaultSettings = settings
  | .permissions permissions => ∃ id, By config pbkdf2 once request id ∧
      Permitted once id fun held => held = permissions

-- The host that is being paired could be used, and then belonged to someone else.
def Displaced : Job → Prop
  | .pairing _ host user _ => Usable once user.id host.id ∧
      HostWas once host.id fun stored => stored.owner ≠ none ∧ stored.owner ≠ some user.id
  | _ => False

def MayEnd (job : Job) : Except Failure Reply → Prop
  | .ok reply => MayReply config pbkdf2 once job.request reply
  | .error (.error _) => True
  | .error .panicked => Displaced once job

end Rights

-- What a cache holds was in the store.
def User.Cached (once : Calls.Facts Store) (user : User) : Prop :=
  ∀ stored, user.cacheStorage = some stored → once (Store.isUser user.id stored)

def Role.Cached (once : Calls.Facts Store) (role : Role) : Prop :=
  ∀ stored, role.cacheStorage = some stored → once (Store.isRole role.id stored)

structure Host.Held (once : Calls.Facts Store) (id : UInt32) (host : Host) : Prop where
  usable : Usable once id host.id
  cached : ∀ stored, host.cacheStorage = some stored → once (Store.isHost host.id stored)
  owner : ∀ stored, host.cacheStorage = some stored →
    stored.owner = none ∨ stored.owner = some id

section Ready

variable (config : Config) (pbkdf2 : Pbkdf2) (once : Calls.Facts Store)

structure Known (request : Request) (user : User) : Prop where
  identified : By config pbkdf2 once request user.id
  cached : user.Cached once

def Ready : Job → Prop
  | .handle _ => True
  | .listed request host user => Known config pbkdf2 once request user ∧ host.Held once user.id ∧
      host.cacheStorage ≠ none
  | .pairing request host user _ => Known config pbkdf2 once request user ∧ host.Held once user.id
  | .streaming request user clientUniqueId permissions => Known config pbkdf2 once request user ∧
      (UserWas once user.id fun stored => stored.clientUniqueId = clientUniqueId) ∧
        Permitted once user.id fun held => held = permissions

end Ready

section Monotone

variable {config : Config} {pbkdf2 : Pbkdf2} {once later : Calls.Facts Store} (more : once ≤ later)
  {request : Request} {id hostId : UInt32}

include more

theorem By.mono (identified : By config pbkdf2 once request id) :
    By config pbkdf2 later request id := by
  obtain ⟨auth, given, held⟩ := identified
  refine ⟨auth, given, ?_⟩
  cases auth with
  | none => exact held
  | userPassword | session => exact more _ held
  | forwardedHeaders => exact ⟨held.1, more _ held.2⟩

theorem IsAdmin.mono (admin : IsAdmin once id) : IsAdmin later id := by
  obtain ⟨roleId, user, role⟩ := admin
  exact ⟨roleId, more _ user, more _ role⟩

theorem Permitted.mono {holds : RolePermissions → Prop} (permitted : Permitted once id holds) :
    Permitted later id holds := by
  obtain ⟨roleId, user, role⟩ := permitted
  exact ⟨roleId, more _ user, more _ role⟩

theorem ByAdmin.mono (admin : ByAdmin config pbkdf2 once request) :
    ByAdmin config pbkdf2 later request := by
  obtain ⟨id, identified, admin⟩ := admin
  exact ⟨id, identified.mono more, admin.mono more⟩

theorem ByUserOf.mono {holds weaker : UInt32 → Prop} (weakens : ∀ id, holds id → weaker id)
    (user : ByUserOf config pbkdf2 once request hostId holds) :
    ByUserOf config pbkdf2 later request hostId weaker := by
  obtain ⟨id, identified, usable, held⟩ := user
  exact ⟨id, identified.mono more, more _ usable, weakens id held⟩

theorem MayRemove.mono (may : MayRemove config pbkdf2 once request hostId) :
    MayRemove config pbkdf2 later request hostId :=
  ByUserOf.mono more (fun _ => Or.imp (more _) (IsAdmin.mono more)) may

theorem MayWrite.mono {written : StorageRequest}
    (may : MayWrite config pbkdf2 once request written) :
    MayWrite config pbkdf2 later request written := by
  cases written with
  | addRole => exact may.imp (ByAdmin.mono more) id
  | modifyRole => exact ⟨may.1.mono more, may.2⟩
  | removeRole | removeUser => exact ByAdmin.mono more may
  | addUser =>
    exact may.imp (ByAdmin.mono more) (And.imp_right (And.imp_right (Or.imp_right (more _))))
  | modifyUser => exact may.imp (ByAdmin.mono more) (And.imp_left (By.mono more))
  | addHost =>
    obtain ⟨id, identified, owner, permitted⟩ := may
    exact ⟨id, identified.mono more, owner, permitted.mono more⟩
  | modifyHost =>
    exact ByUserOf.mono more (fun _ admin changes => (admin changes).mono more) may
  | removeHost => exact MayRemove.mono more may
  | createSessionToken => exact ⟨may.1.mono more, may.2⟩
  | removeSessionToken | removeAllUserSessionTokens | tryAddFirstLogin => exact may

theorem MayContact.mono {client : MoonlightClient}
    (may : MayContact config pbkdf2 once request client) :
    MayContact config pbkdf2 later request client := by
  obtain ⟨hostId, user⟩ := may
  exact ⟨hostId, user.mono more fun _ => more _⟩

theorem MayDetail.mono {host : DetailedHost} (may : MayDetail config pbkdf2 once request host) :
    MayDetail config pbkdf2 later request host :=
  ByUserOf.mono more (fun _ => more _) may

theorem MayCall.mono {op : Op} (may : MayCall config pbkdf2 once request op) :
    MayCall config pbkdf2 later request op := by
  cases op with
  | write => exact MayWrite.mono more may
  | probe =>
    obtain ⟨id, identified, permitted⟩ := may
    exact ⟨id, identified.mono more, permitted.mono more⟩
  | connect | serverInfo | pair | appList | requestAppImage | cancel =>
    exact MayContact.mono more may
  | broadcastMagicPacket =>
    obtain ⟨hostId, user⟩ := may
    exact ⟨hostId, user.mono more fun _ => more _⟩
  | getImage | insertImage => exact ⟨may.1.mono more, more _ may.2⟩
  | dropImages => exact MayRemove.mono more may
  | send message =>
    cases message with
    | undetailed => exact ByUserOf.mono more (fun _ => id) may
    | paired => exact MayDetail.mono more may
    | _ => trivial
  | sendInit =>
    obtain ⟨hostId, user⟩ := may
    refine ⟨hostId, user.mono more ?_⟩
    rintro id ⟨address, pairInfo, uniqueId, permitted⟩
    exact ⟨more _ address, more _ pairInfo, more _ uniqueId, permitted.mono more⟩
  | _ => trivial

theorem MaySee.mono {user : DetailedUser} (may : MaySee config pbkdf2 once request user) :
    MaySee config pbkdf2 later request user := by
  obtain ⟨⟨id, identified, right⟩, stored⟩ := may
  exact ⟨⟨id, identified.mono more, right.imp_right (IsAdmin.mono more)⟩, more _ stored⟩

theorem MayReply.mono {reply : Reply} (may : MayReply config pbkdf2 once request reply) :
    MayReply config pbkdf2 later request reply := by
  cases reply with
  | ok | badRequest | tooManyRequests => trivial
  | loggedIn | cancelled | apps | image | pin => exact may.imp fun _ => By.mono more
  | user => exact MaySee.mono more may
  | users => exact ⟨may.1.mono more, fun user member => (may.2 user member).mono more⟩
  | roles => exact ByAdmin.mono more may
  | role => exact ⟨may.1.imp fun _ => By.mono more, more _ may.2⟩
  | hosts => exact fun host member => ByUserOf.mono more (fun _ => id) (may host member)
  | host => exact MayDetail.mono more may
  | settings =>
    obtain ⟨id, roleId, identified, user, role⟩ := may
    exact ⟨id, roleId, identified.mono more, more _ user, more _ role⟩
  | permissions =>
    obtain ⟨id, identified, permitted⟩ := may
    exact ⟨id, identified.mono more, permitted.mono more⟩

theorem MayEnd.mono {job : Job} {result : Except Failure Reply}
    (may : MayEnd config pbkdf2 once job result) : MayEnd config pbkdf2 later job result := by
  cases result with
  | ok reply => exact MayReply.mono more may
  | error failure =>
    cases failure with
    | error => trivial
    | panicked =>
      cases job with
      | pairing => exact ⟨more _ may.1, more _ may.2⟩
      | _ => exact may

theorem User.Cached.mono {user : User} (cached : user.Cached once) : user.Cached later :=
  fun stored held => more _ (cached stored held)

theorem Role.Cached.mono {role : Role} (cached : role.Cached once) : role.Cached later :=
  fun stored held => more _ (cached stored held)

theorem Host.Held.mono {host : Host} (held : host.Held once id) : host.Held later id :=
  ⟨more _ held.usable, fun stored cached => more _ (held.cached stored cached), held.owner⟩

theorem Known.mono {user : User} (known : Known config pbkdf2 once request user) :
    Known config pbkdf2 later request user :=
  ⟨known.identified.mono more, known.cached.mono more⟩

theorem Ready.mono {job : Job} (ready : Ready config pbkdf2 once job) :
    Ready config pbkdf2 later job := by
  cases job with
  | handle => trivial
  | listed => exact ⟨ready.1.mono more, ready.2.1.mono more, ready.2.2⟩
  | pairing => exact ⟨ready.1.mono more, ready.2.mono more⟩
  | streaming => exact ⟨ready.1.mono more, more _ ready.2.1, ready.2.2.mono more⟩

end Monotone

def rules (config : Config) (pbkdf2 : Pbkdf2) :
    Calls.System.Rules Store Job Op (Except Failure Reply) where
  ready once job := Ready config pbkdf2 once job
  allowed once job op := MayCall config pbkdf2 once job.request op
  post once job result := MayEnd config pbkdf2 once job result
  ready_mono _ _ _ more ready := ready.mono more
  allowed_mono _ _ _ _ more may := may.mono more
  post_mono _ _ _ _ more may := may.mono more

end Api

end BetterParsec
