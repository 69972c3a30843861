import BetterParsec.Library.Calls
import BetterParsec.Server.StorageMoves

set_option autoImplicit false
set_option linter.all false

/-!
# What a reply of the storage attests

A request that adds an entry replies after its `force_write`, when the entry may have changed or be
gone. What its reply attests is that the entry was there once since the request was called.
-/

namespace BetterParsec

namespace JsonStorage

def Backed (once : Calls.Facts V3) : StorageRequest → StorageReply → Prop
  | .addRole role, .roleAdded id => once fun data => data.roles.get? id = some role
  | .addUser user, .userAdded id => once fun data => data.users.get? id = some user
  | .addHost host, .hostAdded id => once fun data => data.hosts.get? id = some host
  | .tryAddFirstLogin username password, .firstLogin id =>
      ∃ roleId stored, password = some stored ∧
        once fun data => data.users.get? id = some ⟨roleId, username, some stored, username⟩
  | _, _ => True

-- Where a request can stand, and what the replies that it has in store are backed by.
def Proceeds (once : Calls.Facts V3) (request : StorageRequest) : Stage → Prop
  | .begun other => other = request
  | .noUserYet username password | .adminMissing username password
  | .adminKnown username password _ | .changed (.adminAdded username password _) =>
      request = .tryAddFirstLogin username password
  | .nameFree user false => request = .addUser user
  | .nameFree user true => ∃ roleId username stored,
      request = .tryAddFirstLogin username (some stored) ∧
        user = ⟨roleId, username, some stored, username⟩
  | .usersRemoved _ | .tokenFree _ _ _ => True
  | .changed (.reply reply) => Backed once request reply
  | .changed (.firstUserAdded userId) | .changed (.hostAssigned userId _) | .listingHosts userId
  | .assigningHosts userId _ => Backed once request (.firstLogin userId)

-- The facts that held before or that hold of `data`.
def After (once : Calls.Facts V3) (data : V3) : Calls.Facts V3 := fun fact => once fact ∨ fact data

structure Fair (once : Calls.Facts V3) (request : StorageRequest) (ticket : Nat)
    (result : JsonStorage × List StorageEvent) : Prop where
  replies : ∀ reply, .returned ticket reply ∈ result.2 →
    Backed (After once result.1.data) request reply
  stage : ∀ stage, result.1.requests.get? ticket = some stage →
    Proceeds (After once result.1.data) request stage

variable {once later : Calls.Facts V3} {request : StorageRequest} {storage : JsonStorage}
  {ticket now : Nat} {draw : Draw} {stage : Stage}

theorem Backed.mono (more : once ≤ later) {reply : StorageReply}
    (backed : Backed once request reply) : Backed later request reply := by
  cases request with
  | addRole role =>
    cases reply with
    | roleAdded id => exact more _ backed
    | _ => trivial
  | addUser user =>
    cases reply with
    | userAdded id => exact more _ backed
    | _ => trivial
  | addHost host =>
    cases reply with
    | hostAdded id => exact more _ backed
    | _ => trivial
  | tryAddFirstLogin username password =>
    cases reply with
    | firstLogin id =>
      obtain ⟨roleId, stored, given, added⟩ := backed
      exact ⟨roleId, stored, given, more _ added⟩
    | _ => trivial
  | _ => cases reply <;> trivial

theorem Proceeds.mono (more : once ≤ later) (proceeds : Proceeds once request stage) :
    Proceeds later request stage := by
  cases stage with
  | begun | noUserYet | adminMissing | adminKnown | usersRemoved | tokenFree => exact proceeds
  | nameFree user first => cases first <;> exact proceeds
  | listingHosts | assigningHosts => exact Backed.mono more proceeds
  | changed next =>
    cases next with
    | adminAdded => exact proceeds
    | reply | firstUserAdded | hostAssigned => exact Backed.mono more proceeds

theorem le_after (once : Calls.Facts V3) (data : V3) : once ≤ After once data := fun _ => .inl

@[simp] theorem backed_done : Backed once request .done := by
  cases request <;> trivial

@[simp] theorem backed_failed (error : AppError) : Backed once request (.failed error) := by
  cases request <;> trivial

@[simp] theorem backed_sessionToken (token : SessionToken) :
    Backed once request (.sessionToken token) := by
  cases request <;> trivial

section Sections

theorem fair_reply {reply : StorageReply} (backed : Backed once request reply) :
    Fair once request ticket (storage.reply ticket reply) := by
  constructor
  · intro other returned
    simp only [JsonStorage.reply, List.mem_singleton, StorageEvent.returned.injEq, true_and]
      at returned
    rw [returned]
    exact backed.mono (le_after once _)
  · intro stage found
    simp [JsonStorage.reply, OrdMap.get?_erase] at found

theorem fair_proceed {next : Stage} (proceeds : Proceeds once request next) :
    Fair once request ticket (storage.proceed ticket next, []) := by
  constructor
  · simp
  · intro stage found
    simp only [proceed, OrdMap.get?_insert, if_true, Option.some.injEq] at found
    rw [← found]
    exact proceeds.mono (le_after once _)

theorem fair_wait (found : storage.requests.get? ticket = some stage)
    (proceeds : Proceeds once request stage) : Fair once request ticket (storage, []) := by
  constructor
  · simp
  · intro other same
    obtain rfl : stage = other := Option.some.inj (found.symm.trans same)
    exact proceeds.mono (le_after once _)

theorem fair_change {data : V3} {next : AfterWrite} {events : List StorageEvent}
    (silent : ∀ reply, .returned ticket reply ∉ events)
    (proceeds : Proceeds (After once data) request (.changed next)) :
    Fair once request ticket (storage.change ticket data next, events) := by
  constructor
  · exact fun reply returned => absurd returned (silent reply)
  · intro stage found
    simp only [change, OrdMap.get?_insert, if_true, Option.some.injEq] at found
    rw [← found]
    exact proceeds

theorem insertFresh_fair {used : UInt32 → Bool} {insert : UInt32 → JsonStorage × List StorageEvent}
    (found : storage.requests.get? ticket = some stage) (proceeds : Proceeds once request stage)
    (inserted : ∀ id, Fair once request ticket (insert id)) :
    Fair once request ticket (storage.insertFresh ticket draw.id used insert) := by
  unfold insertFresh
  split
  · exact fair_reply (backed_failed _)
  · split_ifs
    · exact fair_wait found proceeds
    · exact inserted _

theorem begin_fair (config : WebServerConfig)
    (found : storage.requests.get? ticket = some (.begun request)) :
    Fair once request ticket (storage.begin config ticket draw request) := by
  have changed (data : V3) (events : List StorageEvent)
      (silent : ∀ reply, .returned ticket reply ∉ events) :
      Fair once request ticket (storage.change ticket data (.reply .done), events) :=
    fair_change silent backed_done
  have done (data : V3) :
      Fair once request ticket (storage.change ticket data (.reply .done), []) :=
    changed data [] (by simp)
  have refused (data : V3) (error : AppError) :
      Fair once request ticket (storage.change ticket data (.reply (.failed error)), []) :=
    fair_change (by simp) (backed_failed error)
  have failed (error : AppError) :
      Fair once request ticket (storage.reply ticket (.failed error)) :=
    fair_reply (backed_failed error)
  cases request with
  | addRole role =>
    refine insertFresh_fair found rfl fun id => fair_change (by simp) (.inr ?_)
    simp [putRole, OrdMap.get?_insert]
  | addHost host =>
    refine insertFresh_fair found rfl fun id => fair_change (by simp) (.inr ?_)
    simp [putHost, OrdMap.get?_insert]
  | modifyRole roleId modify =>
    simp only [«begin», modifyRole]
    split
    · exact failed _
    · exact done _
  | modifyUser userId modify =>
    simp only [«begin», modifyUser]
    split
    · exact failed _
    · exact done _
  | modifyHost hostId modify =>
    simp only [«begin», modifyHost]
    split
    · exact failed _
    · exact done _
  | removeHost hostId =>
    simp only [«begin», removeHost]
    split
    · exact failed _
    · exact done _
  | removeUser userId =>
    simp only [«begin», removeUser]
    split
    · exact refused _ _
    · exact changed _ _ (by simp)
  | addUser user =>
    simp only [«begin», checkName]
    split
    · exact failed _
    · exact fair_proceed rfl
  | removeRole roleId =>
    simp only [«begin», removeRoleUsers]
    refine ⟨by simp, fun stage found => ?_⟩
    simp only [OrdMap.get?_insert, if_true, Option.some.injEq] at found
    rw [← found]
    trivial
  | createSessionToken userId expiration =>
    simp only [«begin», drawToken]
    split
    · exact failed _
    · split_ifs
      · exact fair_wait found rfl
      · exact fair_proceed trivial
  | removeSessionToken token =>
    refine ⟨fun reply returned => ?_, fun stage found => ?_⟩
    · simp only [«begin», removeSessionToken, List.mem_cons, reduceCtorEq,
        StorageEvent.returned.injEq, true_and, List.not_mem_nil, or_false, false_or] at returned
      rw [returned]
      exact backed_done
    · simp [«begin», removeSessionToken, JsonStorage.reply, OrdMap.get?_erase] at found
  | removeAllUserSessionTokens userId =>
    refine ⟨fun reply returned => ?_, fun stage found => ?_⟩
    · simp only [«begin», removeAllUserSessionTokens, List.mem_cons, reduceCtorEq,
        StorageEvent.returned.injEq, true_and, List.not_mem_nil, or_false, false_or] at returned
      rw [returned]
      exact backed_done
    · simp [«begin», removeAllUserSessionTokens, JsonStorage.reply, OrdMap.get?_erase] at found
  | tryAddFirstLogin username password =>
    simp only [«begin»]
    split_ifs
    · exact failed _
    · exact failed _
    · exact fair_proceed rfl

theorem addFirstUser_fair {username : String} {password : Option UserPassword} {roleId : UInt32} :
    Fair once (.tryAddFirstLogin username password) ticket
      (storage.addFirstUser ticket username password roleId) := by
  unfold addFirstUser
  split
  · exact fair_reply (backed_failed _)
  next stored =>
    split_ifs
    · exact fair_reply (backed_failed _)
    · unfold checkName
      split
      · exact fair_reply (backed_failed _)
      · exact fair_proceed ⟨roleId, username, stored, rfl, rfl⟩

theorem assignHost_fair {userId : UInt32} {hosts : List UInt32}
    (backed : Backed once request (.firstLogin userId)) :
    Fair once request ticket (storage.assignHost ticket userId hosts) := by
  unfold assignHost
  split
  · exact fair_reply backed
  · split
    · exact fair_proceed backed
    · exact fair_change (by simp) (Backed.mono (le_after once _) backed)

/-- Sending to the writer changes neither the data nor what the reply is backed by. -/
theorem forceWrite_fair (config : WebServerConfig) {next : AfterWrite}
    (proceeds : Proceeds once request (.changed next)) :
    Fair once request ticket (storage.forceWrite config ticket next) := by
  cases next with
  | reply reply => exact fair_reply proceeds
  | adminAdded username password roleId => exact fair_proceed proceeds
  | firstUserAdded userId =>
    simp only [forceWrite]
    split_ifs
    · exact fair_proceed proceeds
    · exact fair_reply proceeds
  | hostAssigned userId hosts => exact fair_proceed proceeds

theorem insertUser_fair {user : V3User} {first : Bool}
    (found : storage.requests.get? ticket = some (.nameFree user first))
    (proceeds : Proceeds once request (.nameFree user first)) :
    Fair once request ticket (storage.insertUser ticket draw user first) := by
  refine insertFresh_fair found proceeds fun id => fair_change (by simp) ?_
  have added : (storage.putUser id user).users.get? id = some user := by
    simp [putUser, OrdMap.get?_insert]
  cases first with
  | false =>
    obtain rfl : request = .addUser user := proceeds
    exact .inr added
  | true =>
    obtain ⟨roleId, username, stored, rfl, rfl⟩ := proceeds
    exact ⟨roleId, stored, rfl, .inr added⟩

theorem advance_fair (config : WebServerConfig)
    (found : storage.requests.get? ticket = some stage)
    (proceeds : Proceeds once request stage) :
    Fair once request ticket (storage.advance config ticket draw now stage) := by
  cases stage with
  | begun other =>
    obtain rfl : other = request := proceeds
    exact begin_fair config found
  | noUserYet username password =>
    simp only [advance]
    split
    · exact fair_proceed proceeds
    · exact fair_proceed proceeds
  | adminMissing username password =>
    refine insertFresh_fair found proceeds fun id => fair_change (by simp) ?_
    exact proceeds
  | adminKnown username password roleId =>
    obtain rfl : request = .tryAddFirstLogin username password := proceeds
    exact addFirstUser_fair
  | nameFree user first => exact insertUser_fair found proceeds
  | usersRemoved roleId =>
    simp only [advance, removeRole]
    split
    · exact fair_change (by simp) (backed_failed _)
    · exact fair_change (by simp) backed_done
  | tokenFree token userId expiration =>
    refine ⟨fun reply returned => ?_, fun stage found => ?_⟩
    · simp only [advance, createSession, List.mem_cons, reduceCtorEq,
        StorageEvent.returned.injEq, true_and, List.not_mem_nil, or_false, false_or] at returned
      rw [returned]
      exact backed_sessionToken token
    · simp [advance, createSession, JsonStorage.reply, OrdMap.get?_erase] at found
  | changed next => exact forceWrite_fair config proceeds
  | listingHosts userId => exact fair_proceed proceeds
  | assigningHosts userId hosts => exact assignHost_fair proceeds

end Sections

-- The request with the ticket is `request`, unless it has returned.
structure Awaited (once : Calls.Facts V3) (storage : JsonStorage) (ticket : Nat)
    (request : StorageRequest) : Prop where
  issued : ticket < storage.nextTicket
  stage : ∀ stage, storage.requests.get? ticket = some stage → Proceeds once request stage

theorem Awaited.mono (more : once ≤ later) (awaited : Awaited once storage ticket request) :
    Awaited later storage ticket request :=
  ⟨awaited.issued, fun stage found => (awaited.stage stage found).mono more⟩

theorem awaited_call (storage : JsonStorage) (request : StorageRequest) :
    Awaited once (storage.call request) storage.nextTicket request := by
  refine ⟨Nat.lt_succ_self _, fun stage found => ?_⟩
  simp only [JsonStorage.call, OrdMap.get?_insert, if_true, Option.some.injEq] at found
  rw [← found]
  rfl

theorem Awaited.step (awaited : Awaited once storage ticket request) (config : WebServerConfig)
    (input : StorageStep) :
    Awaited (After once (storage.step config input).1.data) (storage.step config input).1 ticket
      request := by
  have still : Awaited (After once storage.data) storage ticket request :=
    awaited.mono (le_after once _)
  by_cases writes : input.ofWriter
  · obtain ⟨queued, writer, file, same⟩ := storage.step_of_writer config writes
    rw [same]
    exact ⟨still.issued, still.stage⟩
  cases input with
  | call other =>
    refine ⟨Nat.lt_succ_of_lt awaited.issued, fun stage found => still.stage stage ?_⟩
    rw [← found]
    simp only [JsonStorage.step, JsonStorage.call, OrdMap.get?_insert]
    rw [if_neg (Nat.ne_of_lt awaited.issued)]
  | advance other draw now =>
    simp only [JsonStorage.step]
    split
    next stage found =>
      obtain ⟨tickets, others⟩ := (storage.advance_move other draw now config stage).others
      refine ⟨by rw [tickets]; exact awaited.issued, fun next goes => ?_⟩
      by_cases same : ticket = other
      · subst same
        exact (advance_fair config found (awaited.stage stage found)).stage next goes
      · rw [others ticket same] at goes
        exact (awaited.stage next goes).mono (le_after once _)
    · exact still
  | userBySession token now => exact still
  | sweepSessions now => exact ⟨still.issued, still.stage⟩
  | receive | snapshot | readEntry _ | writeFile => exact absurd rfl writes

/-- The reply that ends a request is backed. -/
theorem Awaited.returned (awaited : Awaited once storage ticket request)
    (config : WebServerConfig) {reply : StorageReply}
    (returned : .returned ticket reply ∈ (storage.step config (.advance ticket draw now)).2) :
    Backed (After once (storage.step config (.advance ticket draw now)).1.data) request reply := by
  simp only [JsonStorage.step] at returned ⊢
  cases found : storage.requests.get? ticket with
  | none => simp [found] at returned
  | some stage =>
    simp only [found] at returned ⊢
    exact (advance_fair config found (awaited.stage stage found)).replies reply returned

end JsonStorage

end BetterParsec
