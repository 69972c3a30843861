import BetterParsec.Library.OrdMap
import BetterParsec.Library.Runs

set_option autoImplicit false
set_option linter.all false

/-!
# JSON storage

The store of `storage/json/mod.rs` with the requests of `app/mod.rs` that read and
write it. A request is a sequence of lock-held sections; `Stage` says which
section of it comes next, and any number of requests interleave. Outer read locks
only delay other sections, so they are left out. Times are in nanoseconds.
-/

namespace BetterParsec

structure UserPassword where
  salt : BitVec 128
  hash : BitVec 256
  iterations : UInt32
  deriving DecidableEq

structure V3User where
  roleId : UInt32
  name : String
  password : Option UserPassword
  clientUniqueId : String
  deriving DecidableEq

structure HostPairInfo where
  clientPrivateKey : String
  clientCertificate : String
  serverCertificate : String
  deriving DecidableEq

structure V2Host where
  owner : Option UInt32
  address : String
  httpPort : UInt16
  pairInfo : Option HostPairInfo
  cacheName : String
  cacheMac : Option (BitVec 48)
  deriving DecidableEq

inductive RoleType where
  | user
  | admin
  deriving DecidableEq

structure RolePermissions where
  allowAddHosts : Bool
  maximumBitrateKbps : Option UInt32
  allowCodecH264 : Bool
  allowCodecH265 : Bool
  allowCodecAv1 : Bool
  allowHdr : Bool
  allowTransportWebrtc : Bool
  allowTransportWebsockets : Bool
  deriving DecidableEq

def RolePermissions.default : RolePermissions := ⟨true, none, true, true, true, true, true, true⟩

-- The default settings are a JSON value that no request looks into; they are kept as its text.
structure V3Role where
  name : String
  ty : RoleType
  defaultSettings : String
  permissions : RolePermissions
  deriving DecidableEq

structure UserModify where
  roleId : Option UInt32
  password : Option (Option UserPassword)
  clientUniqueId : Option String
  deriving DecidableEq

def UserModify.apply (modify : UserModify) (user : V3User) : V3User :=
  { user with
    password := modify.password.getD user.password
    roleId := modify.roleId.getD user.roleId
    clientUniqueId := modify.clientUniqueId.getD user.clientUniqueId }

structure RoleModify where
  name : Option String
  ty : Option RoleType
  defaultSettings : Option String
  permissions : Option RolePermissions
  deriving DecidableEq

def RoleModify.apply (modify : RoleModify) (role : V3Role) : V3Role :=
  { name := modify.name.getD role.name
    ty := modify.ty.getD role.ty
    defaultSettings := modify.defaultSettings.getD role.defaultSettings
    permissions := modify.permissions.getD role.permissions }

structure HostModify where
  owner : Option (Option UInt32)
  address : Option String
  httpPort : Option UInt16
  pairInfo : Option (Option HostPairInfo)
  cacheName : Option String
  cacheMac : Option (Option (BitVec 48))
  deriving DecidableEq

def HostModify.apply (modify : HostModify) (host : V2Host) : V2Host :=
  { owner := modify.owner.getD host.owner
    address := modify.address.getD host.address
    httpPort := modify.httpPort.getD host.httpPort
    pairInfo := modify.pairInfo.getD host.pairInfo
    cacheName := modify.cacheName.getD host.cacheName
    cacheMac := modify.cacheMac.getD host.cacheMac }

structure V3 where
  users : OrdMap UInt32 V3User
  hosts : OrdMap UInt32 V2Host
  roles : OrdMap UInt32 V3Role

structure SessionToken where
  bytes : BitVec 256

instance sessionTokenLinearOrder : LinearOrder SessionToken :=
  LinearOrder.lift' (fun token => token.bytes.toNat) (fun left right same => by
    cases left
    cases right
    exact congrArg SessionToken.mk (BitVec.eq_of_toNat_eq same))

structure JsonStorage.Session where
  createdAt : Nat
  expiration : Nat
  userId : UInt32
  deriving DecidableEq

inductive AppError where
  | userNotFound
  | roleNotFound
  | hostNotFound
  | firstUserAlreadyExists
  | firstLoginCreateAdminNotSet
  | userAlreadyExists
  | sessionTokenNotFound
  | passwordEmpty
  | userNameEmpty
  | openSsl
  deriving DecidableEq

structure WebServerConfig where
  firstLoginCreateAdmin : Bool
  firstLoginAssignGlobalHosts : Bool

-- `password` is what `StoragePassword::new` makes of the text, `none` if it refuses it.
inductive StorageRequest where
  | addRole (role : V3Role)
  | modifyRole (roleId : UInt32) (modify : RoleModify)
  | removeRole (roleId : UInt32)
  | addUser (user : V3User)
  | modifyUser (userId : UInt32) (modify : UserModify)
  | removeUser (userId : UInt32)
  | addHost (host : V2Host)
  | modifyHost (hostId : UInt32) (modify : HostModify)
  | removeHost (hostId : UInt32)
  | createSessionToken (userId : UInt32) (expiration : Nat)
  | removeSessionToken (token : SessionToken)
  | removeAllUserSessionTokens (userId : UInt32)
  | tryAddFirstLogin (username : String) (password : Option UserPassword)
  deriving DecidableEq

inductive StorageReply where
  | done
  | roleAdded (roleId : UInt32)
  | userAdded (userId : UInt32)
  | hostAdded (hostId : UInt32)
  | sessionToken (token : SessionToken)
  | firstLogin (userId : UInt32)
  | failed (error : AppError)
  deriving DecidableEq

-- Where a request goes on after its `force_write`.
inductive AfterWrite where
  | reply (reply : StorageReply)
  | adminAdded (username : String) (password : Option UserPassword) (roleId : UInt32)
  | firstUserAdded (userId : UInt32)
  | hostAssigned (userId : UInt32) (hosts : List UInt32)
  deriving DecidableEq

inductive Stage where
  | begun (request : StorageRequest)
  | noUserYet (username : String) (password : Option UserPassword)
  | adminMissing (username : String) (password : Option UserPassword)
  | adminKnown (username : String) (password : Option UserPassword) (roleId : UInt32)
  | nameFree (user : V3User) (first : Bool)
  | usersRemoved (roleId : UInt32)
  | tokenFree (token : SessionToken) (userId : UInt32) (expiration : Nat)
  | changed (next : AfterWrite)
  | listingHosts (userId : UInt32)
  | assigningHosts (userId : UInt32) (hosts : List UInt32)
  deriving DecidableEq

-- What the request draws at random in its section; `none` is an OpenSSL error.
structure Draw where
  id : Option UInt32
  token : Option SessionToken

inductive EntryKey where
  | user (id : UInt32)
  | host (id : UInt32)
  | role (id : UInt32)
  deriving DecidableEq

inductive FileWriter where
  | waiting
  | received
  | reading (unread : List EntryKey) (copy : V3)
  | writing (copy : V3)

structure JsonStorage where
  data : V3
  sessions : OrdMap SessionToken JsonStorage.Session
  requests : OrdMap Nat Stage
  nextTicket : Nat
  -- The one slot of the channel to the writer task.
  queued : Bool
  writer : FileWriter
  file : V3

inductive StorageEvent where
  | returned (ticket : Nat) (reply : StorageReply)
  | userAdded (userId : UInt32)
  | usersRemoved (userIds : List UInt32)
  | sessionCreated (token : SessionToken) (session : JsonStorage.Session)
  | sessionRemoved (token : SessionToken)
  | userSessionsRemoved (userId : UInt32)
  | sessionsSwept (now : Nat)
  | userBySession (token : SessionToken) (now : Nat) (result : Except AppError UInt32)

inductive StorageStep where
  | call (request : StorageRequest)
  | advance (ticket : Nat) (draw : Draw) (now : Nat)
  | userBySession (token : SessionToken) (now : Nat)
  | sweepSessions (now : Nat)
  | receive
  | snapshot
  | readEntry (key : EntryKey)
  | writeFile

namespace V3

def empty : V3 := ⟨.empty, .empty, .empty⟩

def getUserByName (data : V3) (name : String) : Option UInt32 :=
  (data.users.entries.find? (fun entry => entry.2.name = name)).map Prod.fst

def usersWithRole (data : V3) (roleId : UInt32) : List UInt32 :=
  (data.users.entries.filter (fun entry => entry.2.roleId = roleId)).map Prod.fst

def adminRole (data : V3) : Option UInt32 :=
  (data.roles.entries.find? (fun entry => entry.2.ty = .admin)).map Prod.fst

def listUserHosts (data : V3) (userId : UInt32) : List UInt32 :=
  (data.hosts.entries.filter (fun entry => entry.2.owner = none ∨ entry.2.owner = some userId)).map
    Prod.fst

def keys (data : V3) : List EntryKey :=
  data.users.keys.map .user ++ data.hosts.keys.map .host ++ data.roles.keys.map .role

-- One entry of `source` copied under its read lock.
def copyEntry (copy source : V3) : EntryKey → V3
  | .user id => match source.users.get? id with
      | some user => { copy with users := copy.users.insert id user }
      | none => copy
  | .host id => match source.hosts.get? id with
      | some host => { copy with hosts := copy.hosts.insert id host }
      | none => copy
  | .role id => match source.roles.get? id with
      | some role => { copy with roles := copy.roles.insert id role }
      | none => copy

end V3

def firstAdmin : V3Role := ⟨"Admin", .admin, "null", .default⟩

namespace JsonStorage

def load (data : V3) : JsonStorage := ⟨data, .empty, .empty, 0, false, .waiting, data⟩

def call (storage : JsonStorage) (request : StorageRequest) : JsonStorage :=
  { storage with
    requests := storage.requests.insert storage.nextTicket (.begun request)
    nextTicket := storage.nextTicket + 1 }

def proceed (storage : JsonStorage) (ticket : Nat) (stage : Stage) : JsonStorage :=
  { storage with requests := storage.requests.insert ticket stage }

def reply (storage : JsonStorage) (ticket : Nat) (reply : StorageReply) :
    JsonStorage × List StorageEvent :=
  ({ storage with requests := storage.requests.erase ticket }, [.returned ticket reply])

-- The section has changed `data`; the lock is dropped before `force_write`.
def change (storage : JsonStorage) (ticket : Nat) (data : V3) (next : AfterWrite) : JsonStorage :=
  { storage with data := data, requests := storage.requests.insert ticket (.changed next) }

def putUser (storage : JsonStorage) (userId : UInt32) (user : V3User) : V3 :=
  { storage.data with users := storage.data.users.insert userId user }

def putHost (storage : JsonStorage) (hostId : UInt32) (host : V2Host) : V3 :=
  { storage.data with hosts := storage.data.hosts.insert hostId host }

def putRole (storage : JsonStorage) (roleId : UInt32) (role : V3Role) : V3 :=
  { storage.data with roles := storage.data.roles.insert roleId role }

-- The loop that draws an id until it is free, and the insertion under it. A draw that is taken
-- leaves the request where it is.
def insertFresh (storage : JsonStorage) (ticket : Nat) (id : Option UInt32) (used : UInt32 → Bool)
    (insert : UInt32 → JsonStorage × List StorageEvent) : JsonStorage × List StorageEvent :=
  match id with
  | none => storage.reply ticket (.failed .openSsl)
  | some id => if used id then (storage, []) else insert id

def insertUser (storage : JsonStorage) (ticket : Nat) (draw : Draw) (user : V3User)
    (first : Bool) : JsonStorage × List StorageEvent :=
  storage.insertFresh ticket draw.id storage.data.users.contains fun id =>
    (storage.change ticket (storage.putUser id user)
      (if first then .firstUserAdded id else .reply (.userAdded id)), [.userAdded id])

def modifyUser (storage : JsonStorage) (ticket : Nat) (userId : UInt32) (modify : UserModify) :
    JsonStorage × List StorageEvent :=
  match storage.data.users.get? userId with
  | none => storage.reply ticket (.failed .userNotFound)
  | some user =>
      (storage.change ticket (storage.putUser userId (modify.apply user)) (.reply .done), [])

def removeUser (storage : JsonStorage) (ticket : Nat) (userId : UInt32) :
    JsonStorage × List StorageEvent :=
  match storage.data.users.get? userId with
  | none => (storage.change ticket storage.data (.reply (.failed .userNotFound)), [])
  | some _ =>
      (storage.change ticket
        { storage.data with users := storage.data.users.erase userId } (.reply .done),
        [.usersRemoved [userId]])

def removeRoleUsers (storage : JsonStorage) (ticket : Nat) (roleId : UInt32) :
    JsonStorage × List StorageEvent :=
  ({ storage with
      data := { storage.data with
        users := storage.data.users.filter (fun _ user => user.roleId ≠ roleId) }
      requests := storage.requests.insert ticket (.usersRemoved roleId) },
    [.usersRemoved (storage.data.usersWithRole roleId)])

def removeRole (storage : JsonStorage) (ticket : Nat) (roleId : UInt32) :
    JsonStorage × List StorageEvent :=
  match storage.data.roles.get? roleId with
  | none => (storage.change ticket storage.data (.reply (.failed .roleNotFound)), [])
  | some _ =>
      (storage.change ticket
        { storage.data with roles := storage.data.roles.erase roleId } (.reply .done), [])

def modifyHost (storage : JsonStorage) (ticket : Nat) (hostId : UInt32) (modify : HostModify) :
    JsonStorage × List StorageEvent :=
  match storage.data.hosts.get? hostId with
  | none => storage.reply ticket (.failed .hostNotFound)
  | some host =>
      (storage.change ticket (storage.putHost hostId (modify.apply host)) (.reply .done), [])

def removeHost (storage : JsonStorage) (ticket : Nat) (hostId : UInt32) :
    JsonStorage × List StorageEvent :=
  match storage.data.hosts.get? hostId with
  | none => storage.reply ticket (.failed .hostNotFound)
  | some _ =>
      (storage.change ticket
        { storage.data with hosts := storage.data.hosts.erase hostId } (.reply .done), [])

def addRole (storage : JsonStorage) (ticket : Nat) (draw : Draw) (role : V3Role)
    (next : UInt32 → AfterWrite) : JsonStorage × List StorageEvent :=
  storage.insertFresh ticket draw.id storage.data.roles.contains fun id =>
    (storage.change ticket (storage.putRole id role) (next id), [])

def addHost (storage : JsonStorage) (ticket : Nat) (draw : Draw) (host : V2Host) :
    JsonStorage × List StorageEvent :=
  storage.insertFresh ticket draw.id storage.data.hosts.contains fun id =>
    (storage.change ticket (storage.putHost id host) (.reply (.hostAdded id)), [])

def modifyRole (storage : JsonStorage) (ticket : Nat) (roleId : UInt32) (modify : RoleModify) :
    JsonStorage × List StorageEvent :=
  match storage.data.roles.get? roleId with
  | none => storage.reply ticket (.failed .roleNotFound)
  | some role =>
      (storage.change ticket (storage.putRole roleId (modify.apply role)) (.reply .done), [])

-- The first section of `add_user`, which looks for the name under a lock of its own.
def checkName (storage : JsonStorage) (ticket : Nat) (user : V3User) (first : Bool) :
    JsonStorage × List StorageEvent :=
  match storage.data.getUserByName user.name with
  | some _ => storage.reply ticket (.failed .userAlreadyExists)
  | none => (storage.proceed ticket (.nameFree user first), [])

def drawToken (storage : JsonStorage) (ticket : Nat) (draw : Draw) (userId : UInt32)
    (expiration : Nat) : JsonStorage × List StorageEvent :=
  match draw.token with
  | none => storage.reply ticket (.failed .openSsl)
  | some token =>
      if storage.sessions.contains token then (storage, [])
      else (storage.proceed ticket (.tokenFree token userId expiration), [])

def createSession (storage : JsonStorage) (ticket : Nat) (token : SessionToken)
    (session : JsonStorage.Session) : JsonStorage × List StorageEvent :=
  let created := { storage with sessions := storage.sessions.insert token session }
  ((created.reply ticket (.sessionToken token)).1,
    [.sessionCreated token session, .returned ticket (.sessionToken token)])

def removeSessionToken (storage : JsonStorage) (ticket : Nat) (token : SessionToken) :
    JsonStorage × List StorageEvent :=
  let removed := { storage with sessions := storage.sessions.erase token }
  ((removed.reply ticket .done).1, [.sessionRemoved token, .returned ticket .done])

def removeAllUserSessionTokens (storage : JsonStorage) (ticket : Nat) (userId : UInt32) :
    JsonStorage × List StorageEvent :=
  let removed := { storage with
    sessions := storage.sessions.filter (fun _ session => session.userId ≠ userId) }
  ((removed.reply ticket .done).1, [.userSessionsRemoved userId, .returned ticket .done])

variable (config : WebServerConfig)

def begin (storage : JsonStorage) (ticket : Nat) (draw : Draw) :
    StorageRequest → JsonStorage × List StorageEvent
  | .addRole role => storage.addRole ticket draw role (fun id => .reply (.roleAdded id))
  | .modifyRole roleId modify => storage.modifyRole ticket roleId modify
  | .removeRole roleId => storage.removeRoleUsers ticket roleId
  | .addUser user => storage.checkName ticket user false
  | .modifyUser userId modify => storage.modifyUser ticket userId modify
  | .removeUser userId => storage.removeUser ticket userId
  | .addHost host => storage.addHost ticket draw host
  | .modifyHost hostId modify => storage.modifyHost ticket hostId modify
  | .removeHost hostId => storage.removeHost ticket hostId
  | .createSessionToken userId expiration => storage.drawToken ticket draw userId expiration
  | .removeSessionToken token => storage.removeSessionToken ticket token
  | .removeAllUserSessionTokens userId => storage.removeAllUserSessionTokens ticket userId
  | .tryAddFirstLogin username password =>
      if !config.firstLoginCreateAdmin then
        storage.reply ticket (.failed .firstLoginCreateAdminNotSet)
      else if storage.data.users.size ≠ 0 then
        storage.reply ticket (.failed .firstUserAlreadyExists)
      else (storage.proceed ticket (.noUserYet username password), [])

def addFirstUser (storage : JsonStorage) (ticket : Nat) (username : String)
    (password : Option UserPassword) (roleId : UInt32) : JsonStorage × List StorageEvent :=
  match password with
  | none => storage.reply ticket (.failed .passwordEmpty)
  | some password =>
      if username = "" then storage.reply ticket (.failed .userNameEmpty)
      else storage.checkName ticket ⟨roleId, username, some password, username⟩ true

def assignHost (storage : JsonStorage) (ticket : Nat) (userId : UInt32) :
    List UInt32 → JsonStorage × List StorageEvent
  | [] => storage.reply ticket (.firstLogin userId)
  | hostId :: rest =>
      match storage.data.hosts.get? hostId with
      | none => (storage.proceed ticket (.assigningHosts userId rest), [])
      | some host =>
          (storage.change ticket (storage.putHost hostId { host with owner := some userId })
            (.hostAssigned userId rest), [])

-- `force_write` fills the slot of the channel, or finds it full; then the request goes on.
def forceWrite (storage : JsonStorage) (ticket : Nat) (next : AfterWrite) :
    JsonStorage × List StorageEvent :=
  let sent := { storage with queued := true }
  match next with
  | .reply reply => sent.reply ticket reply
  | .adminAdded username password roleId =>
      (sent.proceed ticket (.adminKnown username password roleId), [])
  | .firstUserAdded userId =>
      if config.firstLoginAssignGlobalHosts then (sent.proceed ticket (.listingHosts userId), [])
      else sent.reply ticket (.firstLogin userId)
  | .hostAssigned userId hosts => (sent.proceed ticket (.assigningHosts userId hosts), [])

def advance (storage : JsonStorage) (ticket : Nat) (draw : Draw) (now : Nat) :
    Stage → JsonStorage × List StorageEvent
  | .begun request => storage.begin config ticket draw request
  | .noUserYet username password =>
      match storage.data.adminRole with
      | some roleId => (storage.proceed ticket (.adminKnown username password roleId), [])
      | none => (storage.proceed ticket (.adminMissing username password), [])
  | .adminMissing username password =>
      storage.addRole ticket draw firstAdmin (.adminAdded username password)
  | .adminKnown username password roleId => storage.addFirstUser ticket username password roleId
  | .nameFree user first => storage.insertUser ticket draw user first
  | .usersRemoved roleId => storage.removeRole ticket roleId
  | .tokenFree token userId expiration =>
      storage.createSession ticket token ⟨now, expiration, userId⟩
  | .changed next => storage.forceWrite config ticket next
  | .listingHosts userId =>
      (storage.proceed ticket (.assigningHosts userId (storage.data.listUserHosts userId)), [])
  | .assigningHosts userId hosts => storage.assignHost ticket userId hosts

def userBySession (storage : JsonStorage) (token : SessionToken) : Except AppError UInt32 :=
  match storage.sessions.get? token with
  | some session => .ok session.userId
  | none => .error .sessionTokenNotFound

def sweepSessions (storage : JsonStorage) (now : Nat) : JsonStorage :=
  { storage with
    sessions := storage.sessions.filter (fun _ session =>
      now - session.createdAt < session.expiration) }

def step (storage : JsonStorage) : StorageStep → JsonStorage × List StorageEvent
  | .call request => (storage.call request, [])
  | .advance ticket draw now =>
      match storage.requests.get? ticket with
      | some stage => storage.advance config ticket draw now stage
      | none => (storage, [])
  | .userBySession token now => (storage, [.userBySession token now (storage.userBySession token)])
  | .sweepSessions now => (storage.sweepSessions now, [.sessionsSwept now])
  | .receive =>
      match storage.writer with
      | .waiting =>
          if storage.queued then ({ storage with queued := false, writer := .received }, [])
          else (storage, [])
      | .received | .reading _ _ | .writing _ => (storage, [])
  | .snapshot =>
      match storage.writer with
      | .received => ({ storage with writer := .reading storage.data.keys .empty }, [])
      | .waiting | .reading _ _ | .writing _ => (storage, [])
  | .readEntry key =>
      match storage.writer with
      | .reading unread copy =>
          if key ∈ unread then
            ({ storage with
                writer := .reading (unread.erase key) (copy.copyEntry storage.data key) }, [])
          else (storage, [])
      | .waiting | .received | .writing _ => (storage, [])
  | .writeFile =>
      match storage.writer with
      | .reading [] copy => ({ storage with writer := .writing copy }, [])
      | .writing copy => ({ storage with writer := .waiting, file := copy }, [])
      | .waiting | .received | .reading (_ :: _) _ => (storage, [])

end JsonStorage

end BetterParsec
