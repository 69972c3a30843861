import BetterParsec.Server.Api
import BetterParsec.Server.Replies

set_option autoImplicit false
set_option linter.all false

/-!
# The server as a system of requests

The handlers of all requests run against one storage and one cache of images. A call of the
storage that changes it is one lock-held section at a time; what is outside the server answers as
it likes.
-/

namespace BetterParsec

namespace Api

structure Store where
  storage : JsonStorage
  -- `app_image_cache`.
  images : List ((UInt32 × UInt32 × UInt32) × List UInt8)

namespace Store

def load (data : V3) : Store := ⟨.load data, []⟩

def getImage (store : Store) (key : UInt32 × UInt32 × UInt32) : Option (List UInt8) :=
  (store.images.find? fun entry => entry.1 = key).map Prod.snd

def insertImage (store : Store) (key : UInt32 × UInt32 × UInt32) (image : List UInt8) : Store :=
  { store with images := (key, image) :: store.images.filter fun entry => entry.1 ≠ key }

def dropImages (store : Store) (hostId : UInt32) : Store :=
  { store with images := store.images.filter fun entry => entry.1.2.1 ≠ hostId }

def work (config : Config) (store : Store) (input : StorageStep) : Store × List StorageEvent :=
  ({ store with storage := (store.storage.step config.webServer input).1 },
    (store.storage.step config.webServer input).2)

def isUser (id : UInt32) (user : V3User) (store : Store) : Prop :=
  store.storage.data.users.get? id = some user

def isRole (id : UInt32) (role : V3Role) (store : Store) : Prop :=
  store.storage.data.roles.get? id = some role

def isHost (id : UInt32) (host : V2Host) (store : Store) : Prop :=
  store.storage.data.hosts.get? id = some host

def isSession (token : SessionToken) (userId : UInt32) (store : Store) : Prop :=
  ∃ session, store.storage.sessions.get? token = some session ∧ session.userId = userId

def isImage (key : UInt32 × UInt32 × UInt32) (image : List UInt8) (store : Store) : Prop :=
  store.getImage key = some image

end Store

-- What is not decided by the server at a piece of work on a call.
def Choice : Op → Type
  | .userIds | .roleIds | .hostIds => List UInt32
  | .write _ => Draw × Nat
  | op => Answer op

def inOrder (keys order : List UInt32) : List UInt32 := if order.Perm keys then order else keys

def replyOf (ticket : Nat) (events : List StorageEvent) : Option StorageReply :=
  events.findSome? fun event =>
    match event with
    | .returned other reply => if other = ticket then some reply else none
    | _ => none

-- The request is called, and then its sections follow one by one.
def serveWrite (config : Config) (store : Store) (request : StorageRequest) (draw : Draw)
    (now : Nat) : Option Nat → Store × (Nat ⊕ StorageReply)
  | none => ((store.work config (.call request)).1, .inl store.storage.nextTicket)
  | some ticket =>
    let worked := store.work config (.advance ticket draw now)
    match replyOf ticket worked.2 with
    | some reply => (worked.1, .inr reply)
    | none => (worked.1, .inl ticket)

def serve (config : Config) (store : Store) (token : Option Nat) :
    (op : Op) → Choice op → Store × (Nat ⊕ Answer op)
  | .userIds, order => (store, .inr (inOrder store.storage.data.users.keys order))
  | .roleIds, order => (store, .inr (inOrder store.storage.data.roles.keys order))
  | .hostIds, order => (store, .inr (inOrder store.storage.data.hosts.keys order))
  | .readUser id, _ => (store, .inr (store.storage.data.users.get? id))
  | .readRole id, _ => (store, .inr (store.storage.data.roles.get? id))
  | .readHost id, _ => (store, .inr (store.storage.data.hosts.get? id))
  | .userBySessionToken session, _ => (store, .inr (store.storage.userBySession session))
  | .write request, choice => serveWrite config store request choice.1 choice.2 token
  | .getImage userId hostId appId, _ => (store, .inr (store.getImage (userId, hostId, appId)))
  | .insertImage userId hostId appId image, _ =>
    (store.insertImage (userId, hostId, appId) image, .inr ())
  | .dropImages hostId, _ => (store.dropImages hostId, .inr ())
  | .pick _, answer => (store, .inr answer)
  | .randomSalt, answer => (store, .inr answer)
  | .newPin, answer => (store, .inr answer)
  | .checkLimit _, answer => (store, .inr answer)
  | .clearLimit _, answer => (store, .inr answer)
  | .recordFailure _, answer => (store, .inr answer)
  | .probe _ _ _, answer => (store, .inr answer)
  | .connect _, answer => (store, .inr answer)
  | .serverInfo _, answer => (store, .inr answer)
  | .pair _ _, answer => (store, .inr answer)
  | .appList _, answer => (store, .inr answer)
  | .requestAppImage _ _, answer => (store, .inr answer)
  | .cancel _, answer => (store, .inr answer)
  | .broadcastMagicPacket _, answer => (store, .inr answer)
  | .spawn _, answer => (store, .inr answer)
  | .send _, answer => (store, .inr answer)
  | .firstMessage, answer => (store, .inr answer)
  | .launch, answer => (store, .inr answer)
  | .sendInit _, answer => (store, .inr answer)

def spawned : Op → Option Job
  | .spawn job => some job
  | _ => none

-- The sweep of expired sessions and the steps of the writer task.
inductive Background where
  | sweepSessions (now : Nat)
  | receive
  | snapshot
  | readEntry (key : EntryKey)
  | writeFile

def Background.step : Background → StorageStep
  | sweepSessions now => .sweepSessions now
  | receive => .receive
  | snapshot => .snapshot
  | readEntry key => .readEntry key
  | writeFile => .writeFile

def server (config : Config) (pbkdf2 : Pbkdf2) :
    Calls.System Store Nat Request Job Op Background (Except Failure Reply) Answer Choice where
  program := program config pbkdf2
  entry := .handle
  serve := serve config
  spawned := spawned
  background store work := (store.work config work.step).1

-- The facts about the data among those about the store.
def ofData (once : Calls.Facts Store) : Calls.Facts V3 := fun fact =>
  once fun store => fact store.storage.data

/-- What an answer says of the store. -/
def Tells (moments : List Store) : Calls.Observation Answer → Prop
  | ⟨.readUser id, answer⟩ =>
    ∀ user, answer = some user → Calls.Amid moments (Store.isUser id user)
  | ⟨.readRole id, answer⟩ =>
    ∀ role, answer = some role → Calls.Amid moments (Store.isRole id role)
  | ⟨.readHost id, answer⟩ =>
    ∀ host, answer = some host → Calls.Amid moments (Store.isHost id host)
  | ⟨.userBySessionToken token, answer⟩ =>
    ∀ id, answer = .ok id → Calls.Amid moments (Store.isSession token id)
  | ⟨.getImage userId hostId appId, answer⟩ =>
    ∀ image, answer = some image → Calls.Amid moments (Store.isImage (userId, hostId, appId) image)
  | ⟨.write request, reply⟩ => JsonStorage.Backed (ofData (Calls.Amid moments)) request reply
  | _ => True

def Awaits (moments : List Store) (store : Store) (ticket : Nat) : Op → Prop
  | .write request =>
    JsonStorage.Awaited (ofData (Calls.Amid moments)) store.storage ticket request
  | _ => True

section Truth

variable {config : Config} {pbkdf2 : Pbkdf2} {moments : List Store} {store : Store}

theorem returned_of_replyOf {ticket : Nat} {events : List StorageEvent} {reply : StorageReply}
    (found : replyOf ticket events = some reply) : .returned ticket reply ∈ events := by
  obtain ⟨event, member, holds⟩ := List.exists_of_findSome?_eq_some found
  cases event with
  | returned other given =>
    simp only [Option.ite_none_right_eq_some, Option.some.injEq] at holds
    obtain ⟨rfl, rfl⟩ := holds
    exact member
  | _ => simp at holds

theorem ofData_mono {once later : Calls.Facts Store} (more : once ≤ later) :
    ofData once ≤ ofData later := fun _ => more _

/-- What held before, or holds of the storage now, held at some moment. -/
theorem after_le_amid (moments : List Store) (next : Store) :
    JsonStorage.After (ofData (Calls.Amid moments)) next.storage.data ≤
      ofData (Calls.Amid (next :: moments)) := by
  rintro fact (⟨store, member, holds⟩ | holds)
  · exact ⟨store, List.mem_cons_of_mem _ member, holds⟩
  · exact ⟨next, List.mem_cons_self, holds⟩

theorem Tells.mono {later : List Store} {told : Calls.Observation Answer}
    (more : moments ⊆ later) (tells : Tells moments told) : Tells later told := by
  obtain ⟨op, answer⟩ := told
  cases op with
  | readUser | readRole | readHost | userBySessionToken | getImage =>
    exact fun value is => Calls.Amid.mono more _ (tells value is)
  | write => exact JsonStorage.Backed.mono (ofData_mono (Calls.Amid.mono more)) tells
  | _ => trivial

theorem awaits_work {ticket : Nat} {op : Op} (awaits : Awaits moments store ticket op)
    (input : StorageStep) :
    Awaits ((store.work config input).1 :: moments) (store.work config input).1 ticket op := by
  cases op with
  | write request =>
    exact (JsonStorage.Awaited.step awaits config.webServer input).mono (after_le_amid moments _)
  | _ => trivial

-- Calls that leave the storage as it is.
theorem awaits_same {next : Store} {ticket : Nat} {op : Op} (same : next.storage = store.storage)
    (awaits : Awaits moments store ticket op) : Awaits (next :: moments) next ticket op := by
  cases op with
  | write request =>
    have held := JsonStorage.Awaited.mono
      (ofData_mono (Calls.Amid.mono (List.subset_cons_self next moments))) awaits
    exact ⟨by rw [same]; exact held.issued, by rw [same]; exact held.stage⟩
  | _ => trivial

theorem serve_keeps {held : Nat} {op other : Op} (token : Option Nat) (choice : Choice other)
    (awaits : Awaits moments store held op) :
    Awaits ((serve config store token other choice).1 :: moments)
      (serve config store token other choice).1 held op := by
  cases other with
  | write request =>
    change Awaits ((serveWrite config store request choice.1 choice.2 token).1 :: moments)
      (serveWrite config store request choice.1 choice.2 token).1 held op
    cases token with
    | none => exact awaits_work awaits (.call request)
    | some ticket =>
      have worked : Awaits _ (store.work config (.advance ticket choice.1 choice.2)).1 held op :=
        awaits_work awaits (.advance ticket choice.1 choice.2)
      simp only [serveWrite]
      split <;> exact worked
  | _ => exact awaits_same rfl awaits

theorem serveWrite_tells {token : Option Nat} {request : StorageRequest} (draw : Draw) (now : Nat)
    (awaits : ∀ held, token = some held → Awaits moments store held (.write request)) :
    Calls.System.WorkTells Tells Awaits moments (.write request)
      (serveWrite config store request draw now token) := by
  cases token with
  | none => exact JsonStorage.awaited_call store.storage request
  | some ticket =>
    have awaited := awaits ticket rfl
    cases found : replyOf ticket (store.work config (.advance ticket draw now)).2 with
    | none =>
      simp only [serveWrite, found]
      exact awaits_work awaited (.advance ticket draw now)
    | some reply =>
      simp only [serveWrite, found]
      exact (JsonStorage.Awaited.returned awaited config.webServer
        (returned_of_replyOf found)).mono (after_le_amid moments _)

theorem serve_tells {token : Option Nat} {op : Op} (choice : Choice op)
    (awaits : ∀ held, token = some held → Awaits moments store held op) :
    Calls.System.WorkTells Tells Awaits moments op (serve config store token op choice) := by
  have here {fact : Store → Prop} (holds : fact store) : Calls.Amid (store :: moments) fact :=
    ⟨store, List.mem_cons_self, holds⟩
  cases op with
  | readUser | readRole | readHost | getImage => exact fun value is => here is
  | userBySessionToken token =>
    intro id is
    refine here ?_
    simp only [JsonStorage.userBySession] at is
    split at is
    next session found => exact ⟨session, found, Except.ok.inj is⟩
    next => simp at is
  | write request => exact serveWrite_tells choice.1 choice.2 awaits
  | _ => trivial

theorem server_truthful : (server config pbkdf2).Truthful Tells Awaits where
  mono _ _ _ more tells := tells.mono more
  serves _ _ _ _ choice awaits := serve_tells choice awaits
  keeps _ _ _ _ token _ choice awaits := serve_keeps token choice awaits
  background _ _ _ _ work awaits := awaits_work awaits work.step

end Truth

end Api

end BetterParsec
