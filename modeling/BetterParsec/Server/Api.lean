import BetterParsec.App.Redaction
import BetterParsec.Library.Calls
import BetterParsec.Server.JsonStorage
import BetterParsec.Server.LoginLimiter

set_option autoImplicit false
set_option linter.all false

/-!
# The API of the server

The request handlers of `api/` and the objects of `app/` behind them, as programs: what they await
is a call, and everything between two awaits is in one step. A read of the storage that goes
through a whole map is one call for each entry, as each entry has a lock of its own.
-/

namespace BetterParsec

namespace Api

structure ForwardedHeaders where
  usernameHeader : String
  autoCreateMissingUser : Bool

structure Config where
  webServer : WebServerConfig
  defaultUserId : Option UInt32
  defaultRoleId : Option UInt32
  forwardedHeader : Option ForwardedHeaders
  sessionCookieExpiration : Nat
  defaultHttpPort : UInt16

-- `AppError`; the storage fails with some of its own.
inductive Error where
  | appDestroyed
  | storage (error : AppError)
  | hostPaired
  | hostNotPaired
  | credentialsWrong
  | unauthorized
  | headerAuthDisabled
  | forbidden
  | authorizationNotBearer
  | headerAuthMalformed
  | bearerMalformed
  | badRequest
  | hex
  | moonlight
  deriving DecidableEq

inductive Failure where
  | error (error : Error)
  -- `unreachable!()` was reached.
  | panicked
  deriving DecidableEq

inductive UserAuth where
  | none
  | userPassword (username password : String)
  | session (token : SessionToken)
  | forwardedHeaders (username : String)

structure User where
  id : UInt32
  cacheStorage : Option V3User

structure Role where
  id : UInt32
  cacheStorage : Option V3Role

inductive HostState where
  | free
  | busy

-- What the responses take of a `ServerInfoResponse`.
structure ServerInfo where
  hostName : String
  paired : Bool
  state : HostState
  httpsPort : UInt16
  externalPort : UInt16
  appVersion : String
  gfeVersion : String
  uniqueId : String
  mac : Option (BitVec 48)
  localIp : String
  currentGame : UInt32
  maxLumaPixelsHevc : UInt32
  serverCodecModeSupport : UInt32

structure Host where
  id : UInt32
  cacheStorage : Option V2Host
  cacheHostInfo : Option (UInt32 × ServerInfo)

structure GameApp where
  id : UInt32
  title : String
  isHdrSupported : Bool

inductive HostOwner where
  | thisUser
  | global
  deriving DecidableEq

structure UndetailedHost where
  hostId : UInt32
  name : String
  owner : HostOwner
  paired : Bool
  serverState : Option HostState

structure DetailedHost where
  hostId : UInt32
  owner : HostOwner
  name : String
  paired : Bool
  serverState : Option HostState
  address : String
  httpPort : UInt16
  httpsPort : UInt16
  externalPort : UInt16
  version : String
  gfeVersion : String
  uniqueId : String
  mac : Option (BitVec 48)
  localIp : String
  currentGame : UInt32
  maxLumaPixelsHevc : UInt32
  serverCodecModeSupport : UInt32

structure DetailedUser where
  id : UInt32
  isDefaultUser : Bool
  name : String
  role : RoleType
  roleId : UInt32
  clientUniqueId : String

structure UndetailedRole where
  id : UInt32
  name : String

structure DetailedRole where
  id : UInt32
  name : String
  ty : RoleType
  defaultSettings : String
  permissions : RolePermissions

-- `MoonlightHost` with the identity it was given.
structure MoonlightClient where
  address : String
  httpPort : UInt16
  uniqueId : String
  pairInfo : Option HostPairInfo

inductive ClientError where
  | offline
  | other

inductive ProbeError where
  | connect
  | other

structure StreamerInit where
  hostAddress : String
  hostHttpPort : UInt16
  clientUniqueId : String
  pairInfo : HostPairInfo
  appId : UInt32
  videoFrameQueueSize : UInt64
  audioSampleQueueSize : UInt64
  permissions : RolePermissions

-- The first message of a client's web socket.
inductive FirstMessage where
  | init (hostId appId : UInt32) (videoFrameQueueSize audioSampleQueueSize : UInt64)
  | other
  | closed

inductive Streamed where
  | undetailed (host : UndetailedHost)
  | paired (host : DetailedHost)
  | pairError
  | updateApp (app : GameApp)
  | debugLog

structure HttpRequest where
  peer : Option IpAddr
  -- `some none` where the value is no text.
  header : String → Option (Option String)
  sessionCookie : Option String

inductive Endpoint where
  | login (name password : String)
  | logout
  | authenticate
  | listHosts
  | getHost (hostId : UInt32)
  | postHost (address : String) (httpPort : Option UInt16)
  | patchHost (hostId : UInt32) (changeOwner : Bool) (owner : Option UInt32)
  | deleteHost (hostId : UInt32)
  | pairHost (hostId : UInt32)
  | wakeHost (hostId : UInt32)
  | getApps (hostId : UInt32)
  | getAppImage (hostId appId : UInt32) (forceRefresh : Bool)
  | getUser (name : Option String) (userId : Option UInt32)
  | addUser (name password : String) (roleId : UInt32) (clientUniqueId : String)
  | patchUser (id : UInt32) (password : Option String) (roleId : Option UInt32)
      (clientUniqueId : Option String)
  | deleteUser (id : UInt32)
  | listUsers
  | addRole (role : V3Role)
  | getRole (id : Option UInt32)
  | patchRole (id : UInt32) (name : Option String) (defaultSettings : Option String)
      (permissions : Option RolePermissions)
  | deleteRole (id : UInt32)
  | listRoles
  | getDefaultSettings
  | getPermissions
  | startHost
  | cancelHost (hostId : UInt32)

structure Request where
  http : HttpRequest
  endpoint : Endpoint

-- A request, or a task that its handler spawned.
inductive Job where
  | handle (request : Request)
  | listed (request : Request) (host : Host) (user : User)
  | pairing (request : Request) (host : Host) (user : User) (pin : String)
  | streaming (request : Request) (user : User) (clientUniqueId : String)
      (permissions : RolePermissions)

def Job.request : Job → Request
  | handle request | listed request _ _ | pairing request _ _ _ | streaming request _ _ _ => request

inductive Op where
  -- The keys of a map, in the order in which its entries are read.
  | userIds
  | roleIds
  | hostIds
  | readUser (id : UInt32)
  | readRole (id : UInt32)
  | readHost (id : UInt32)
  | userBySessionToken (token : SessionToken)
  | write (request : StorageRequest)
  -- Which of `count + 1` futures wins a race.
  | pick (count : Nat)
  -- `rand_bytes` for the salt of a new password.
  | randomSalt
  | newPin
  | checkLimit (peer : IpAddr)
  | clearLimit (peer : IpAddr)
  | recordFailure (peer : IpAddr)
  | probe (address : String) (httpPort : UInt16) (uniqueId : String)
  | connect (client : MoonlightClient)
  | serverInfo (client : MoonlightClient)
  | pair (client : MoonlightClient) (pin : String)
  | appList (client : MoonlightClient)
  | requestAppImage (client : MoonlightClient) (appId : UInt32)
  | cancel (client : MoonlightClient)
  | broadcastMagicPacket (mac : BitVec 48)
  | getImage (userId hostId appId : UInt32)
  | insertImage (userId hostId appId : UInt32) (image : List UInt8)
  | dropImages (hostId : UInt32)
  | spawn (job : Job)
  | send (message : Streamed)
  | firstMessage
  | launch
  | sendInit (init : StreamerInit)

def Answer : Op → Type
  | .userIds | .roleIds | .hostIds => List UInt32
  | .readUser _ => Option V3User
  | .readRole _ => Option V3Role
  | .readHost _ => Option V2Host
  | .userBySessionToken _ => Except AppError UInt32
  | .write _ => StorageReply
  | .pick count => Fin (count + 1)
  | .randomSalt => Option (BitVec 128)
  | .newPin => String
  -- `Deny` with its seconds.
  | .checkLimit _ => Option Nat
  | .clearLimit _ | .recordFailure _ => Unit
  | .probe _ _ _ => Except ProbeError ServerInfo
  | .connect _ => Bool
  | .serverInfo _ => Except ClientError ServerInfo
  | .pair _ _ => Option (HostPairInfo × ServerInfo)
  | .appList _ => Option (List GameApp)
  | .requestAppImage _ _ => Option (List UInt8)
  | .cancel _ => Option Bool
  | .broadcastMagicPacket _ => Bool
  | .getImage _ _ _ => Option (List UInt8)
  | .insertImage _ _ _ _ | .dropImages _ | .spawn _ | .send _ | .sendInit _ => Unit
  | .firstMessage => FirstMessage
  | .launch => Bool

abbrev H (A : Type) : Type := Calls.Handler Op Answer Failure A

def fail {A : Type} (error : Error) : H A := throw (.error error)

def call (op : Op) : H (Answer op) := Calls.ask op

def known {A : Type} (error : Error) : Option A → H A
  | some value => pure value
  | none => fail error

section Storage

def getUser (id : UInt32) : H V3User := do
  known (.storage .userNotFound) (← call (.readUser id))

def getRole (id : UInt32) : H V3Role := do
  known (.storage .roleNotFound) (← call (.readRole id))

def getHost (id : UInt32) : H V2Host := do
  known (.storage .hostNotFound) (← call (.readHost id))

def readEach {A : Type} (read : UInt32 → H (Option A)) : List UInt32 → H (List (UInt32 × A))
  | [] => pure []
  | id :: rest => do
    let entry ← read id
    let others ← readEach read rest
    pure ((entry.map fun value => (id, value)).toList ++ others)

def listUsers : H (List (UInt32 × V3User)) := do
  readEach (fun id => call (.readUser id)) (← call .userIds)

def listRoles : H (List (UInt32 × V3Role)) := do
  readEach (fun id => call (.readRole id)) (← call .roleIds)

def listUserHosts (userId : UInt32) : H (List (UInt32 × V2Host)) := do
  let hosts ← readEach (fun id => call (.readHost id)) (← call .hostIds)
  pure (hosts.filter fun entry => entry.2.owner = none ∨ entry.2.owner = some userId)

-- One of the values, whichever comes first in an order that is not ours.
def anyOf {A : Type} (error : Error) : List A → H A
  | [] => fail error
  | first :: rest => do
    let index ← call (.pick rest.length)
    pure ((first :: rest).get index)

def getUserByName (name : String) : H (UInt32 × V3User) := do
  let users ← listUsers
  anyOf (.storage .userNotFound) (users.filter fun entry => entry.2.name = name)

def getUserBySessionToken (token : SessionToken) : H UInt32 := do
  match ← call (.userBySessionToken token) with
  | .ok id => pure id
  | .error error => fail (.storage error)

-- The replies that a request of the storage never gets count as `appDestroyed`.
def write (request : StorageRequest) (value : StorageReply → Option UInt32) : H UInt32 := do
  let reply ← call (.write request)
  match reply with
  | .failed error => fail (.storage error)
  | _ => known .appDestroyed (value reply)

def change (request : StorageRequest) : H Unit := do
  match ← call (.write request) with
  | .failed error => fail (.storage error)
  | _ => pure ()

def addedRole : StorageReply → Option UInt32
  | .roleAdded id => some id
  | _ => none

def addedUser : StorageReply → Option UInt32
  | .userAdded id => some id
  | _ => none

def addedHost : StorageReply → Option UInt32
  | .hostAdded id => some id
  | _ => none

def firstUser : StorageReply → Option UInt32
  | .firstLogin id => some id
  | _ => none

end Storage

section Passwords

-- `pbkdf2_hmac` over SHA-256.
abbrev Pbkdf2 : Type := BitVec 128 → UInt32 → String → Except AppError (BitVec 256)

variable (pbkdf2 : Pbkdf2)

def hashIterations : UInt32 := 600000

def hash (salt : BitVec 128) (iterations : UInt32) (password : String) :
    Except AppError (BitVec 256) :=
  if password = "" then .error .passwordEmpty else pbkdf2 salt iterations password

def verify (stored : UserPassword) (password : String) : Except AppError Bool :=
  (hash pbkdf2 stored.salt stored.iterations password).map fun hash => decide (stored.hash = hash)

def needsRehash (password : UserPassword) : Bool := password.iterations < hashIterations

-- `StoragePassword::new`.
def newPassword (password : String) : H UserPassword := do
  let salt ← known (.storage .openSsl) (← call .randomSalt)
  match hash pbkdf2 salt hashIterations password with
  | .ok hash => pure ⟨salt, hash, hashIterations⟩
  | .error error => fail (.storage error)

end Passwords

namespace Role

def storageRole (role : Role) : H (V3Role × Role) :=
  match role.cacheStorage with
  | some storage => pure (storage, role)
  | none => do
    let storage ← getRole role.id
    pure (storage, { role with cacheStorage := some storage })

def ty (role : Role) : H (RoleType × Role) := do
  let (storage, role) ← role.storageRole
  pure (storage.ty, role)

def permissions (role : Role) : H (RolePermissions × Role) := do
  let (storage, role) ← role.storageRole
  pure (storage.permissions, role)

def defaultSettings (role : Role) : H (String × Role) := do
  let (storage, role) ← role.storageRole
  pure (storage.defaultSettings, role)

def undetailedRole (role : Role) : H UndetailedRole := do
  let (storage, role) ← role.storageRole
  pure ⟨role.id, storage.name⟩

-- Its four reads of the cached role are one.
def detailedRole (role : Role) : H DetailedRole := do
  let (storage, role) ← role.storageRole
  pure ⟨role.id, storage.name, storage.ty, storage.defaultSettings, storage.permissions⟩

end Role

namespace User

def storageUser (user : User) : H (V3User × User) :=
  match user.cacheStorage with
  | some storage => pure (storage, user)
  | none => do
    let storage ← getUser user.id
    pure (storage, { user with cacheStorage := some storage })

def roleId (user : User) : H (UInt32 × User) := do
  let (storage, user) ← user.storageUser
  pure (storage.roleId, user)

def role (user : User) : H (Role × User) := do
  let (id, user) ← user.roleId
  pure (⟨id, none⟩, user)

def roleType (user : User) : H (RoleType × User) := do
  let (role, user) ← user.role
  let (ty, _) ← role.ty
  pure (ty, user)

def detailedUserNoAuth (config : Config) (user : User) : H (DetailedUser × User) := do
  let (storage, user) ← user.storageUser
  let (role, user) ← user.roleType
  pure (⟨user.id, config.defaultUserId = some user.id, storage.name, role, storage.roleId,
    storage.clientUniqueId⟩, user)

def detailedUser (config : Config) (user requesting : User) : H DetailedUser := do
  let (role, requesting) ← requesting.roleType
  if role = .admin ∨ user.id = requesting.id then
    let (detailed, _) ← user.detailedUserNoAuth config
    pure detailed
  else fail .forbidden

def setPassword (user : User) (password : UserPassword) : H User := do
  change (.modifyUser user.id ⟨none, some (some password), none⟩)
  pure { user with cacheStorage := none }

variable (config : Config) (pbkdf2 : Pbkdf2)

def authenticateUserPassword (user : User) (username password : String) : H User := do
  let (storage, user) ← user.storageUser
  if username ≠ storage.name then fail .unauthorized
  else
    match storage.password with
    | none => fail .credentialsWrong
    | some stored =>
      match verify pbkdf2 stored password with
      | .error error => fail (.storage error)
      | .ok false => fail .credentialsWrong
      | .ok true =>
        if needsRehash stored then
          let rehashed ← newPassword pbkdf2 password
          user.setPassword rehashed
        else pure user

def authenticateForwarded (user : User) (username : String) : H User := do
  if config.forwardedHeader.isNone then fail .headerAuthDisabled
  else
    let (storage, user) ← user.storageUser
    if storage.name = username then pure user else fail .forbidden

def hostUniqueId (user : User) : H (String × User) := do
  let (storage, user) ← user.storageUser
  pure (storage.clientUniqueId, user)

def newSession (user : User) : H SessionToken := do
  match ← call (.write (.createSessionToken user.id config.sessionCookieExpiration)) with
  | .sessionToken token => pure token
  | .failed error => fail (.storage error)
  | _ => fail .appDestroyed

def hosts (user : User) : H (List Host) := do
  let hosts ← listUserHosts user.id
  pure (hosts.map fun entry => ⟨entry.1, some entry.2, none⟩)

def host (user : User) (hostId : UInt32) : H Host := do
  let host ← getHost hostId
  if host.owner = none ∨ host.owner = some user.id then pure ⟨hostId, some host, none⟩
  else fail .forbidden

def hostAdd (user : User) (address : String) (httpPort : UInt16) : H (Host × User) := do
  let (role, user) ← user.role
  let (permissions, _) ← role.permissions
  if permissions.allowAddHosts then
    let (uniqueId, user) ← user.hostUniqueId
    match ← call (.probe address httpPort uniqueId) with
    | .error .connect => fail (.storage .hostNotFound)
    | .error .other => fail .moonlight
    | .ok info =>
      let host : V2Host := ⟨some user.id, address, httpPort, none, info.hostName, info.mac⟩
      let id ← write (.addHost host) addedHost
      pure (⟨id, some host, none⟩, user)
  else fail .forbidden

end User

-- Only `try_from` makes one.
structure Admin where
  user : User

-- A user who is no admin is handed back.
def Admin.tryFrom (user : User) : H (Except User Admin) := do
  let (ty, user) ← user.roleType
  match ty with
  | .admin => pure (.ok ⟨user⟩)
  | .user => pure (.error user)

def User.intoAdmin (user : User) : H Admin := do
  match ← Admin.tryFrom user with
  | .ok admin => pure admin
  | .error _ => fail .forbidden

namespace Host

def storageHost (host : Host) : H V2Host :=
  match host.cacheStorage with
  | some storage => pure storage
  | none => getHost host.id

def owner (host : Host) : H (Option UInt32) := do
  let storage ← host.storageHost
  pure storage.owner

def canUse (host : Host) (user : User) : H User := do
  let owner ← host.owner
  if owner = none ∨ owner = some user.id then pure user
  else
    let (ty, user) ← user.roleType
    match ty with
    | .admin => pure user
    | .user => fail .forbidden

def modify (host : Host) (user : User) (modify : HostModify) : H (Host × User) := do
  let user ← host.canUse user
  change (.modifyHost host.id modify)
  pure ({ host with cacheStorage := none }, user)

def ownerInfo (user : User) (this : V2Host) : H HostOwner :=
  match this.owner with
  | none => pure .global
  | some id => if user.id = id then pure .thisUser else throw .panicked

def undetailedHostCached (host : Host) (user : User) : H UndetailedHost := do
  let user ← host.canUse user
  let storage ← host.storageHost
  let owner ← ownerInfo user storage
  pure ⟨host.id, storage.cacheName, owner, storage.pairInfo.isSome, none⟩

-- What `use_client` does before it hands the client over.
def client (host : Host) (user : User) : H (MoonlightClient × User) := do
  let (uniqueId, user) ← user.hostUniqueId
  let data ← host.storageHost
  let client : MoonlightClient := ⟨data.address, data.httpPort, uniqueId, data.pairInfo⟩
  let connected : Bool ← call (.connect client)
  if connected then pure (client, user) else fail .moonlight

def cachedInfo (host : Host) (user : User) : Option ServerInfo :=
  match host.cacheHostInfo with
  | some (userId, info) => if userId = user.id then some info else none
  | none => none

-- `none` where the host is offline.
def hostInfo (host : Host) (user : User) : H (Option ServerInfo × Host × User) :=
  match host.cachedInfo user with
  | some info => pure (some info, host, user)
  | none => do
    let (client, user) ← host.client user
    match ← call (.serverInfo client) with
    | .ok info => pure (some info, { host with cacheHostInfo := some (user.id, info) }, user)
    | .error .offline => pure (none, host, user)
    | .error .other => fail .moonlight

def undetailedHost (host : Host) (user : User) : H UndetailedHost := do
  let user ← host.canUse user
  let storage ← host.storageHost
  let owner ← ownerInfo user storage
  let (info, host, _) ← host.hostInfo user
  match info with
  | some info => pure ⟨host.id, info.hostName, owner, info.paired, some info.state⟩
  | none =>
    let storage ← host.storageHost
    pure ⟨host.id, storage.cacheName, owner, storage.pairInfo.isSome, none⟩

def detailedHost (host : Host) (user : User) : H DetailedHost := do
  let user ← host.canUse user
  let storage ← host.storageHost
  let owner ← ownerInfo user storage
  let (info, host, _) ← host.hostInfo user
  match info with
  | some info =>
    pure ⟨host.id, owner, info.hostName, info.paired, some info.state, storage.address,
      storage.httpPort, info.httpsPort, info.externalPort, info.appVersion, info.gfeVersion,
      info.uniqueId, info.mac, info.localIp, info.currentGame, info.maxLumaPixelsHevc,
      info.serverCodecModeSupport⟩
  | none =>
    pure ⟨host.id, owner, storage.cacheName, storage.pairInfo.isSome, none, storage.address,
      storage.httpPort, 0, 0, "Offline", "Offline", "Offline", storage.cacheMac, "Offline", 0, 0, 0⟩

def addressPort (host : Host) (user : User) : H ((String × UInt16) × User) := do
  let user ← host.canUse user
  let storage ← getHost host.id
  pure ((storage.address, storage.httpPort), user)

def pairInfo (host : Host) (user : User) : H (HostPairInfo × User) := do
  let user ← host.canUse user
  let storage ← getHost host.id
  let info ← known .hostNotPaired storage.pairInfo
  pure (info, user)

def pair (host : Host) (user : User) (pin : String) : H (Host × User) := do
  let user ← host.canUse user
  let (info, host, user) ← host.hostInfo user
  match info with
  | none => fail (.storage .hostNotFound)
  | some info =>
    if info.paired then fail .hostPaired
    else
      let (client, user) ← host.client user
      let (pairInfo, info) ← known .moonlight (← call (.pair client pin))
      let host := { host with cacheHostInfo := some (user.id, info) }
      host.modify user ⟨none, none, none, some (some pairInfo), some info.hostName, some info.mac⟩

def wake (host : Host) (user : User) : H Unit := do
  let _ ← host.canUse user
  let storage ← host.storageHost
  match storage.cacheMac with
  | none => fail (.storage .hostNotFound)
  | some mac =>
    let sent : Bool ← call (.broadcastMagicPacket mac)
    if sent then pure () else fail .moonlight

def listApps (host : Host) (user : User) : H (List GameApp × User) := do
  let user ← host.canUse user
  let (client, user) ← host.client user
  let apps ← known .moonlight (← call (.appList client))
  pure (apps, user)

def cachedImage (host : Host) (user : User) (appId : UInt32) (forceRefresh : Bool) :
    H (Option (List UInt8)) :=
  if forceRefresh then pure none else call (.getImage user.id host.id appId)

def appImage (host : Host) (user : User) (appId : UInt32) (forceRefresh : Bool) :
    H (List UInt8) := do
  let user ← host.canUse user
  match ← host.cachedImage user appId forceRefresh with
  | some image => pure image
  | none =>
    let (client, user) ← host.client user
    let image ← known .moonlight (← call (.requestAppImage client appId))
    call (.insertImage user.id host.id appId image)
    pure image

def cancelApp (host : Host) (user : User) : H Bool := do
  let user ← host.canUse user
  let (client, _) ← host.client user
  known .moonlight (← call (.cancel client))

def delete (host : Host) (user : User) : H Unit := do
  let storage ← getHost host.id
  if storage.owner = some user.id then
    call (.dropImages host.id)
    change (.removeHost host.id)
  else
    let (ty, _) ← user.roleType
    match ty with
    | .admin =>
      call (.dropImages host.id)
      change (.removeHost host.id)
    | .user => fail .forbidden

end Host

section Users

variable (config : Config) (pbkdf2 : Pbkdf2)

def userById (id : UInt32) : H User := do
  let user ← getUser id
  pure ⟨id, some user⟩

def userByName (name : String) : H User := do
  let (id, user) ← getUserByName name
  pure ⟨id, some user⟩

def roleById (id : UInt32) : H Role := do
  let role ← getRole id
  pure ⟨id, some role⟩

def addUserNoAuth (user : V3User) : H User := do
  if user.name = "" then fail (.storage .userNameEmpty)
  else
    let id ← write (.addUser user) addedUser
    pure ⟨id, some user⟩

def addRoleNoAuth (role : V3Role) : H Role := do
  let id ← write (.addRole role) addedRole
  pure ⟨id, some role⟩

def findRole (ty : RoleType) : H Role := do
  let roles ← listRoles
  let (id, role) ← anyOf (.storage .roleNotFound) (roles.filter fun entry => entry.2.ty = ty)
  pure ⟨id, some role⟩

def defaultUserRole : V3Role := ⟨"User", .user, "null", .default⟩

def defaultRole : H Role :=
  match config.defaultRoleId with
  | some id => roleById id
  | none => do
    match ← Calls.attempt (findRole .user) with
    | .ok role => pure role
    | .error (.error (.storage .roleNotFound)) => addRoleNoAuth defaultUserRole
    | .error failure => throw failure

def userByForwardedHeaders (username : String) : H User := do
  match ← Calls.attempt (userByName username) with
  | .ok user => user.authenticateForwarded config username
  | .error (.error (.storage .userNotFound)) =>
    match config.forwardedHeader with
    | none => fail .unauthorized
    | some forwarded =>
      if forwarded.autoCreateMissingUser then
        let role ← defaultRole config
        addUserNoAuth ⟨role.id, username, none, username⟩
      else fail .unauthorized
  | .error failure => throw failure

def userByAuth : UserAuth → H User
  | .none =>
    match config.defaultUserId with
    | none => fail .unauthorized
    | some id => userById id
  | .userPassword username password => do
    let user ← userByName username
    user.authenticateUserPassword pbkdf2 username password
  | .session token => do
    let id ← getUserBySessionToken token
    pure ⟨id, none⟩
  | .forwardedHeaders username => userByForwardedHeaders config username

end Users

section Authentication

def loopback : IpAddr → Bool
  | .v4 addr => addr.toNat / 2 ^ 24 = 127
  | .v6 addr => addr = 1

def forwardedHeaderPeerTrusted (peer : Option IpAddr) : Bool := peer.any loopback

def hexValue (c : Char) : Option Nat :=
  if c.isDigit then some (c.toNat - '0'.toNat)
  else if 'a' ≤ c ∧ c ≤ 'f' then some (c.toNat - 'a'.toNat + 10)
  else if 'A' ≤ c ∧ c ≤ 'F' then some (c.toNat - 'A'.toNat + 10)
  else none

def decodeToken (text : List Char) : Option SessionToken :=
  if text.length = 64 then
    (text.mapM hexValue).map fun digits =>
      ⟨BitVec.ofNat 256 (digits.foldl (fun value digit => 16 * value + digit) 0)⟩
  else none

def sessionAuth (text : List Char) : Except Error UserAuth :=
  match decodeToken text with
  | some token => .ok (.session token)
  | none => .error .hex

def bearerAuth : Option String → Except Error UserAuth
  | none => .error .bearerMalformed
  | some bearer =>
    match "Bearer".toList.isPrefixOf? bearer.toList with
    | none => .error .authorizationNotBearer
    | some token => sessionAuth (Redaction.trim token)

def tokenAuth (request : HttpRequest) : Except Error UserAuth :=
  match request.header "Authorization" with
  | some bearer => bearerAuth bearer
  | none =>
    match request.sessionCookie with
    | some cookie => sessionAuth cookie.toList
    | none => .ok .none

def extractUserAuth (config : Config) (request : HttpRequest) : Except Error UserAuth :=
  match config.forwardedHeader with
  | none => tokenAuth request
  | some forwarded =>
    if forwardedHeaderPeerTrusted request.peer then
      match request.header forwarded.usernameHeader with
      | some none => .error .headerAuthMalformed
      | some (some username) => .ok (.forwardedHeaders username)
      | none => tokenAuth request
    else tokenAuth request

end Authentication

inductive Reply where
  | ok
  | badRequest
  | tooManyRequests (seconds : Nat)
  | loggedIn (token : SessionToken)
  | user (user : DetailedUser)
  | users (users : List DetailedUser)
  | role (role : DetailedRole)
  | roles (roles : List UndetailedRole)
  | hosts (hosts : List UndetailedHost)
  | host (host : DetailedHost)
  | pin (pin : String)
  | apps (apps : List GameApp)
  | image (image : List UInt8)
  | settings (settings : String)
  | permissions (permissions : RolePermissions)
  | cancelled

section Handlers

variable (config : Config) (pbkdf2 : Pbkdf2)

-- `UserAuth` as an argument of a handler.
def userAuth (http : HttpRequest) : H UserAuth :=
  match extractUserAuth config http with
  | .ok auth => pure auth
  | .error error => fail error

def authenticatedUser (http : HttpRequest) : H User := do
  let auth ← userAuth config http
  userByAuth config pbkdf2 auth

def admin (http : HttpRequest) : H Admin := do
  let user ← authenticatedUser config pbkdf2 http
  user.intoAdmin

def tryAddFirstLogin (username password : String) : H User := do
  let stored ← Calls.attempt (newPassword pbkdf2 password)
  let id ← write (.tryAddFirstLogin username stored.toOption) firstUser
  pure ⟨id, none⟩

def loginUser (name password : String) : H User :=
  if config.webServer.firstLoginCreateAdmin then do
    match ← Calls.attempt (tryAddFirstLogin pbkdf2 name password) with
    | .ok user => pure user
    | .error (.error (.storage .firstUserAlreadyExists)) =>
      userByAuth config pbkdf2 (.userPassword name password)
    | .error failure => throw failure
  else userByAuth config pbkdf2 (.userPassword name password)

def countsAsFailure : Error → Bool
  | .credentialsWrong | .storage .userNotFound | .unauthorized => true
  | _ => false

def peerIp (http : HttpRequest) : IpAddr := http.peer.getD (.v4 0)

def login (http : HttpRequest) (name password : String) : H Reply := do
  match ← call (.checkLimit (peerIp http)) with
  | some seconds => pure (.tooManyRequests seconds)
  | none =>
    match ← Calls.attempt (loginUser config pbkdf2 name password) with
    | .ok user =>
      call (.clearLimit (peerIp http))
      let token ← user.newSession config
      pure (.loggedIn token)
    | .error (.error error) =>
      if countsAsFailure error then
        call (.recordFailure (peerIp http))
        fail error
      else fail error
    | .error .panicked => throw .panicked

def logout (http : HttpRequest) : H Reply := do
  match ← userAuth config http with
  | .session token =>
    change (.removeSessionToken token)
    pure .ok
  | _ => pure .badRequest

-- `try_join_all` over the hosts that were listed, up to one that fails; a task is spawned for each.
def listEach (request : Request) (user : User) : List Host → H (List UndetailedHost)
  | [] => pure []
  | host :: rest => do
    let undetailed ← Calls.attempt (host.undetailedHostCached user)
    call (.spawn (.listed request host user))
    let undetailed ← Calls.give undetailed
    let others ← listEach request user rest
    pure (undetailed :: others)

def listHosts (request : Request) (user : User) : H Reply := do
  let hosts ← user.hosts
  let listed ← listEach request user hosts
  pure (.hosts listed)

def getHostReply (user : User) (hostId : UInt32) : H Reply := do
  let host ← user.host hostId
  let detailed ← host.detailedHost user
  pure (.host detailed)

def postHost (user : User) (address : String) (httpPort : Option UInt16) : H Reply := do
  let (host, user) ← user.hostAdd address (httpPort.getD config.defaultHttpPort)
  let detailed ← host.detailedHost user
  pure (.host detailed)

def noModify : HostModify := ⟨none, none, none, none, none, none⟩

def patchHost (user : User) (hostId : UInt32) (changeOwner : Bool) (owner : Option UInt32) :
    H Reply := do
  let host ← user.host hostId
  let (role, user) ← user.role
  if changeOwner then
    let (ty, _) ← role.ty
    match ty with
    | .admin =>
      let _ ← host.modify user { noModify with owner := some owner }
      pure .ok
    | .user => fail .forbidden
  else
    let _ ← host.modify user noModify
    pure .ok

def deleteHost (user : User) (hostId : UInt32) : H Reply := do
  let host ← user.host hostId
  host.delete user
  pure .ok

def pairHost (request : Request) (user : User) (hostId : UInt32) : H Reply := do
  let host ← user.host hostId
  let pin ← call .newPin
  call (.spawn (.pairing request host user pin))
  pure (.pin pin)

def wakeHost (user : User) (hostId : UInt32) : H Reply := do
  let host ← user.host hostId
  host.wake user
  pure .ok

def getApps (user : User) (hostId : UInt32) : H Reply := do
  let host ← user.host hostId
  let (apps, _) ← host.listApps user
  pure (.apps apps)

def getAppImage (user : User) (hostId appId : UInt32) (forceRefresh : Bool) : H Reply := do
  let host ← user.host hostId
  let image ← host.appImage user appId forceRefresh
  pure (.image image)

def cancelHost (user : User) (hostId : UInt32) : H Reply := do
  let host ← user.host hostId
  let _ ← host.cancelApp user
  pure .cancelled

def getUserReply (user : User) (name : Option String) (userId : Option UInt32) : H Reply :=
  match name, userId with
  | none, none => do
    let (detailed, _) ← user.detailedUserNoAuth config
    pure (.user detailed)
  | none, some id => do
    let target ← userById id
    let detailed ← target.detailedUser config user
    pure (.user detailed)
  | some name, none => do
    let target ← userByName name
    let detailed ← target.detailedUser config user
    pure (.user detailed)
  | some _, some _ => fail .badRequest

def addUser (name password : String) (roleId : UInt32) (clientUniqueId : String) : H Reply := do
  let stored ← newPassword pbkdf2 password
  let user ← addUserNoAuth ⟨roleId, name, some stored, clientUniqueId⟩
  let (detailed, _) ← user.detailedUserNoAuth config
  pure (.user detailed)

def newPasswordIfAny : Option String → H (Option UserPassword)
  | none => pure none
  | some password => do
    let stored ← newPassword pbkdf2 password
    pure (some stored)

def patchUser (user : User) (id : UInt32) (password : Option String) (roleId : Option UInt32)
    (clientUniqueId : Option String) : H Reply := do
  match ← Admin.tryFrom user with
  | .ok _ =>
    let target ← userById id
    let stored ← newPasswordIfAny pbkdf2 password
    change (.modifyUser target.id ⟨roleId, stored.map some, clientUniqueId⟩)
    pure .ok
  | .error user =>
    if user.id ≠ id then fail .forbidden
    else if roleId.isSome ∨ clientUniqueId.isSome then fail .forbidden
    else
      match password with
      | none => pure .ok
      | some password =>
        let stored ← newPassword pbkdf2 password
        let _ ← user.setPassword stored
        pure .ok

def deleteUser (id : UInt32) : H Reply := do
  let user ← userById id
  change (.removeUser user.id)
  pure .ok

-- `join_all` over the listed users; one whose details fail is left out.
def detailEach : List User → H (List DetailedUser)
  | [] => pure []
  | user :: rest => do
    let detailed ← Calls.attempt (user.detailedUserNoAuth config)
    let others ← detailEach rest
    pure ((detailed.toOption.map Prod.fst).toList ++ others)

def listUsersReply : H Reply := do
  let users ← listUsers
  let detailed ← detailEach config (users.map fun entry => ⟨entry.1, some entry.2⟩)
  pure (.users detailed)

def addRoleReply (role : V3Role) : H Reply := do
  let role ← addRoleNoAuth role
  let detailed ← role.detailedRole
  pure (.role detailed)

def getRoleReply (user : User) (id : Option UInt32) : H Reply := do
  let id ← match id with
    | some id => pure id
    | none => do
      let (id, _) ← user.roleId
      pure id
  let role ← roleById id
  let detailed ← role.detailedRole
  pure (.role detailed)

def patchRole (id : UInt32) (name defaultSettings : Option String)
    (permissions : Option RolePermissions) : H Reply := do
  let role ← roleById id
  change (.modifyRole role.id ⟨name, none, defaultSettings, permissions⟩)
  pure .ok

def deleteRole (id : UInt32) : H Reply := do
  let role ← roleById id
  change (.removeRole role.id)
  pure .ok

def listRolesReply : H Reply := do
  let roles ← listRoles
  pure (.roles (roles.map fun entry => ⟨entry.1, entry.2.name⟩))

def getDefaultSettings (user : User) : H Reply := do
  let (role, _) ← user.role
  let (settings, _) ← role.defaultSettings
  pure (.settings settings)

def getPermissions (user : User) : H Reply := do
  let (role, _) ← user.role
  let (permissions, _) ← role.permissions
  pure (.permissions permissions)

def startHost (request : Request) (user : User) : H Reply := do
  let (clientUniqueId, user) ← user.hostUniqueId
  let (role, user) ← user.role
  let (permissions, _) ← role.permissions
  call (.spawn (.streaming request user clientUniqueId permissions))
  pure .ok

def handle (request : Request) : H Reply :=
  match request.endpoint with
  | .login name password => login config pbkdf2 request.http name password
  | .logout => logout config request.http
  | .authenticate => do
    let _ ← authenticatedUser config pbkdf2 request.http
    pure .ok
  | .listHosts => do
    listHosts request (← authenticatedUser config pbkdf2 request.http)
  | .getHost hostId => do
    getHostReply (← authenticatedUser config pbkdf2 request.http) hostId
  | .postHost address httpPort => do
    postHost config (← authenticatedUser config pbkdf2 request.http) address httpPort
  | .patchHost hostId changeOwner owner => do
    patchHost (← authenticatedUser config pbkdf2 request.http) hostId changeOwner owner
  | .deleteHost hostId => do
    deleteHost (← authenticatedUser config pbkdf2 request.http) hostId
  | .pairHost hostId => do
    pairHost request (← authenticatedUser config pbkdf2 request.http) hostId
  | .wakeHost hostId => do
    wakeHost (← authenticatedUser config pbkdf2 request.http) hostId
  | .getApps hostId => do
    getApps (← authenticatedUser config pbkdf2 request.http) hostId
  | .getAppImage hostId appId forceRefresh => do
    getAppImage (← authenticatedUser config pbkdf2 request.http) hostId appId forceRefresh
  | .getUser name userId => do
    getUserReply config (← authenticatedUser config pbkdf2 request.http) name userId
  | .addUser name password roleId clientUniqueId => do
    let _ ← admin config pbkdf2 request.http
    addUser config pbkdf2 name password roleId clientUniqueId
  | .patchUser id password roleId clientUniqueId => do
    patchUser pbkdf2 (← authenticatedUser config pbkdf2 request.http) id password roleId
      clientUniqueId
  | .deleteUser id => do
    let _ ← admin config pbkdf2 request.http
    deleteUser id
  | .listUsers => do
    let _ ← admin config pbkdf2 request.http
    listUsersReply config
  | .addRole role => do
    let _ ← admin config pbkdf2 request.http
    addRoleReply role
  | .getRole id => do
    getRoleReply (← authenticatedUser config pbkdf2 request.http) id
  | .patchRole id name defaultSettings permissions => do
    let _ ← admin config pbkdf2 request.http
    patchRole id name defaultSettings permissions
  | .deleteRole id => do
    let _ ← admin config pbkdf2 request.http
    deleteRole id
  | .listRoles => do
    let _ ← admin config pbkdf2 request.http
    listRolesReply
  | .getDefaultSettings => do
    getDefaultSettings (← authenticatedUser config pbkdf2 request.http)
  | .getPermissions => do
    getPermissions (← authenticatedUser config pbkdf2 request.http)
  | .startHost => do
    startHost request (← authenticatedUser config pbkdf2 request.http)
  | .cancelHost hostId => do
    cancelHost (← authenticatedUser config pbkdf2 request.http) hostId

-- The task of `list_hosts` that asks the host itself.
def listed (host : Host) (user : User) : H Reply := do
  match ← Calls.attempt (host.undetailedHost user) with
  | .ok undetailed =>
    call (.send (.undetailed undetailed))
    pure .ok
  | .error (.error _) => pure .ok
  | .error .panicked => throw .panicked

def pairThenDetail (host : Host) (user : User) (pin : String) : H DetailedHost := do
  let (host, user) ← host.pair user pin
  host.detailedHost user

def pairing (host : Host) (user : User) (pin : String) : H Reply := do
  match ← Calls.attempt (pairThenDetail host user pin) with
  | .ok detailed =>
    call (.send (.paired detailed))
    pure .ok
  | .error (.error _) =>
    call (.send .pairError)
    pure .ok
  | .error .panicked => throw .panicked

-- Between the first message and the streamer's init. Its early returns close the socket, with a
-- `DebugLog` where the source sends one.
def collect (user : User) (hostId appId : UInt32) :
    H (GameApp × (String × UInt16) × HostPairInfo) := do
  let host ← user.host hostId
  let (apps, user) ← host.listApps user
  let app ← known (.storage .hostNotFound) (apps.find? fun app => app.id = appId)
  let (address, user) ← host.addressPort user
  let (pairInfo, _) ← host.pairInfo user
  pure (app, address, pairInfo)

def streaming (user : User) (clientUniqueId : String) (permissions : RolePermissions) :
    H Reply := do
  match ← call .firstMessage with
  | .closed | .other => pure .ok
  | .init hostId appId videoFrameQueueSize audioSampleQueueSize =>
    match ← Calls.attempt (collect user hostId appId) with
    | .error (.error _) =>
      call (.send .debugLog)
      pure .ok
    | .error .panicked => throw .panicked
    | .ok (app, (address, httpPort), pairInfo) =>
      call (.send (.updateApp app))
      call (.send .debugLog)
      let launched : Bool ← call .launch
      if launched then
        call (.sendInit ⟨address, httpPort, clientUniqueId, pairInfo, appId, videoFrameQueueSize,
          audioSampleQueueSize, permissions⟩)
        pure .ok
      else
        call (.send .debugLog)
        pure .ok

def program : Job → Calls.Program Op Answer (Except Failure Reply)
  | .handle request => handle config pbkdf2 request
  | .listed _ host user => listed host user
  | .pairing _ host user pin => pairing host user pin
  | .streaming _ user clientUniqueId permissions => streaming user clientUniqueId permissions

end Handlers

end Api

end BetterParsec
