import BetterParsec.Server.LoginLimiter

set_option autoImplicit false
set_option linter.all false

/-!
# Concurrent login handlers

The `login` handler of `auth.rs` as three steps around two awaits: the limiter is
asked, the user is looked up, and the password is verified. Any number of
handlers interleave, and only the last step writes to the limiter.
-/

namespace BetterParsec

inductive AuthError where
  | credentialsWrong
  | userNotFound
  | unauthorized
  | internal
  deriving DecidableEq

def AuthError.counts : AuthError → Bool
  | credentialsWrong | userNotFound | unauthorized => true
  | internal => false

-- `try_add_first_login` answers without a password being verified.
inductive UserLookup where
  | found
  | firstLogin
  | failed (error : AuthError)
  deriving DecidableEq

inductive LoginStage where
  | lookingUp
  | verifying
  deriving DecidableEq

structure LoginHandler where
  peer : IpAddr
  stage : LoginStage

structure LoginServer where
  limiter : LimiterMap
  handlers : OrdMap Nat LoginHandler
  nextTicket : Nat

inductive LoginStep where
  | arrive (peer : IpAddr) (now : Nat)
  | lookedUp (ticket : Nat) (lookup : UserLookup) (now : Nat)
  | verified (ticket : Nat) (failure : Option AuthError) (now : Nat)

inductive LoginEvent where
  | tooManyRequests (retryAfterSecs : Nat)
  | verifying (ticket : Nat)
  | loggedIn (ticket : Nat)
  | refused (ticket : Nat) (error : AuthError)
  deriving DecidableEq

namespace LoginServer

def new : LoginServer := ⟨.empty, .empty, 0⟩

def loggedIn (server : LoginServer) (ticket : Nat) (peer : IpAddr) :
    LoginServer × List LoginEvent :=
  ({ server with
      limiter := server.limiter.erase peer
      handlers := server.handlers.erase ticket }, [.loggedIn ticket])

variable (hash : HashOrder)

def refuse (server : LoginServer) (ticket : Nat) (peer : IpAddr) (error : AuthError) (now : Nat) :
    LoginServer × List LoginEvent :=
  ({ server with
      limiter := if error.counts then server.limiter.recordFailure hash peer now
        else server.limiter
      handlers := server.handlers.erase ticket }, [.refused ticket error])

def arrive (server : LoginServer) (peer : IpAddr) (now : Nat) : LoginServer × List LoginEvent :=
  match server.limiter.check peer now with
  | .deny seconds => (server, [.tooManyRequests seconds])
  | .allow =>
      ({ server with
          handlers := server.handlers.insert server.nextTicket ⟨peer, .lookingUp⟩
          nextTicket := server.nextTicket + 1 }, [])

def lookedUp (server : LoginServer) (ticket : Nat) (lookup : UserLookup) (now : Nat) :
    LoginServer × List LoginEvent :=
  match server.handlers.get? ticket with
  | some ⟨peer, .lookingUp⟩ =>
      match lookup with
      | .found =>
          ({ server with handlers := server.handlers.insert ticket ⟨peer, .verifying⟩ },
            [.verifying ticket])
      | .firstLogin => server.loggedIn ticket peer
      | .failed error => server.refuse hash ticket peer error now
  | some ⟨_, .verifying⟩ | none => (server, [])

def verified (server : LoginServer) (ticket : Nat) (failure : Option AuthError) (now : Nat) :
    LoginServer × List LoginEvent :=
  match server.handlers.get? ticket with
  | some ⟨peer, .verifying⟩ =>
      match failure with
      | none => server.loggedIn ticket peer
      | some error => server.refuse hash ticket peer error now
  | some ⟨_, .lookingUp⟩ | none => (server, [])

def step (server : LoginServer) : LoginStep → LoginServer × List LoginEvent
  | .arrive peer now => server.arrive peer now
  | .lookedUp ticket lookup now => server.lookedUp hash ticket lookup now
  | .verified ticket failure now => server.verified hash ticket failure now

end LoginServer

def LoginEvent.isVerifying : LoginEvent → Bool
  | verifying _ => true
  | tooManyRequests _ | loggedIn _ | refused _ _ => false

-- How many handlers have reached password verification.
def verifications (log : List LoginEvent) : Nat := log.countP LoginEvent.isVerifying

def LoginHandler.guessing (handler : LoginHandler) : Nat :=
  if handler.stage = .verifying then 1 else 0

theorem LoginHandler.guessing_le (handler : LoginHandler) : handler.guessing ≤ 1 := by
  unfold guessing
  split_ifs <;> omega

namespace LoginStep

def succeeds : LoginStep → Bool
  | arrive _ _ => false
  | lookedUp _ lookup _ => lookup = .firstLogin
  | verified _ failure _ => failure = none

def now : LoginStep → Nat
  | arrive _ now | lookedUp _ _ now | verified _ _ now => now

def comesFrom (peer : IpAddr) : LoginStep → Bool
  | arrive other _ => other = peer
  | lookedUp _ _ _ | verified _ _ _ => true

end LoginStep

namespace LoginServer

def recorded (server : LoginServer) (peer : IpAddr) : Nat :=
  (server.limiter.get? peer).elim 0 LimiterEntry.failures

-- A handler passes the limiter only while the recorded failures and the handlers still under way
-- leave room for its own failure, and every verified password is answered with a counted error.
def Accounts (server : LoginServer) : LoginStep → Prop
  | .arrive peer now => server.limiter.check peer now = .allow →
      server.recorded peer + server.handlers.size < maxFailures
  | .verified _ (some error) _ => error.counts
  | .lookedUp _ _ _ | .verified _ none _ => True

instance decidableAccounts (server : LoginServer) :
    (input : LoginStep) → Decidable (server.Accounts input)
  | .arrive _ _ => inferInstanceAs (Decidable (_ → _))
  | .verified _ (some error) _ => instDecidableEqBool error.counts true
  | .lookedUp _ _ _ | .verified _ none _ => .isTrue trivial

-- Only `peer` is in the limiter, with a window that opened no earlier than `opened`.
def Alone (peer : IpAddr) (opened : Nat) (limiter : LimiterMap) : Prop :=
  ∀ ip entry, limiter.get? ip = some entry → ip = peer ∧ opened ≤ entry.windowStart

structure Guarded (peer : IpAddr) (opened : Nat) (log : List LoginEvent) (server : LoginServer) :
    Prop where
  alone : Alone peer opened server.limiter
  peers : ∀ ticket handler, server.handlers.get? ticket = some handler → handler.peer = peer
  issued : ∀ ticket, server.nextTicket ≤ ticket → server.handlers.get? ticket = none
  reached : verifications log ≤ server.recorded peer + server.handlers.weight LoginHandler.guessing
  room : server.recorded peer + server.handlers.size ≤ maxFailures

section Guesses

variable {peer : IpAddr} {opened now : Nat} {limiter : LimiterMap} {log : List LoginEvent}
  {server : LoginServer}

theorem Alone.size (alone : Alone peer opened limiter) : limiter.size < mapLimit := by
  have few : limiter.keys.length ≤ [peer].length := by
    apply (List.subperm_of_subset limiter.keys_nodup _).length_le
    intro ip member
    obtain ⟨entry, found⟩ := (limiter.mem_keys ip).mp member
    simp [(alone ip entry found).1]
  rw [OrdMap.length_keys] at few
  exact few.trans_lt (show 1 < mapLimit by decide)

/-- Within the window a recorded failure is one more failure, and nothing is evicted for it. -/
theorem Alone.recordFailure (hash : HashOrder) (alone : Alone peer opened limiter)
    (after : opened ≤ now) (within : now < opened + loginWindow)
    (few : (limiter.get? peer).elim 0 LimiterEntry.failures < 2 ^ 32 - 1) :
    Alone peer opened (limiter.recordFailure hash peer now) ∧
      ((limiter.recordFailure hash peer now).get? peer).elim 0 LimiterEntry.failures =
        (limiter.get? peer).elim 0 LimiterEntry.failures + 1 := by
  have room : limiter.makeRoom hash peer now = limiter := by
    simp [LimiterMap.makeRoom, alone.size]
  have counted : opened ≤ (limiter.countedEntry peer now).windowStart ∧
      (limiter.countedEntry peer now).failures =
        (limiter.get? peer).elim 0 LimiterEntry.failures + 1 := by
    cases found : limiter.get? peer with
    | none =>
      have current : LimiterEntry.expired ⟨now, 0⟩ now = false := by
        simp [LimiterEntry.expired, loginWindow]
      simp [LimiterMap.countedEntry, found, current, LimiterEntry.count, after]
    | some entry =>
      obtain ⟨-, start⟩ := alone peer entry found
      have current : entry.expired now = false := by
        by_contra expired
        have elapsed := (entry.expired_iff now).mp (by simpa using expired)
        omega
      rw [found, Option.elim_some] at few
      simp only [LimiterMap.countedEntry, found, Option.getD_some, current, LimiterEntry.count,
        Option.elim_some, Bool.false_eq_true, if_false]
      omega
  simp only [LimiterMap.recordFailure, room]
  constructor
  · intro ip entry found
    rw [OrdMap.get?_insert] at found
    split_ifs at found with same
    · exact ⟨same, by rw [← Option.some.inj found]; exact counted.1⟩
    · exact alone ip entry found
  · rw [OrdMap.get?_insert, if_pos rfl]
    exact counted.2

theorem verifications_append (first second : List LoginEvent) :
    verifications (first ++ second) = verifications first + verifications second :=
  List.countP_append

theorem Guarded.arrive (guarded : Guarded peer opened log server)
    (accounts : server.Accounts (.arrive peer now)) :
    Guarded peer opened (log ++ (server.arrive peer now).2) (server.arrive peer now).1 := by
  unfold LoginServer.arrive
  cases checked : server.limiter.check peer now with
  | deny seconds =>
    refine { guarded with reached := ?_ }
    simpa [verifications_append, verifications, LoginEvent.isVerifying] using guarded.reached
  | allow =>
    have fresh := guarded.issued server.nextTicket (Nat.le_refl _)
    have before := accounts checked
    refine ⟨guarded.alone, fun ticket handler found => ?_, fun ticket later => ?_, ?_, ?_⟩
    · simp only [OrdMap.get?_insert] at found
      split_ifs at found
      · rw [← Option.some.inj found]
      · exact guarded.peers ticket handler found
    · simp only [OrdMap.get?_insert] at later ⊢
      rw [if_neg (by omega)]
      exact guarded.issued ticket (by omega)
    · rw [List.append_nil, OrdMap.weight_insert_of_none _ _ _ _ fresh]
      simpa [LoginHandler.guessing, recorded] using guarded.reached
    · rw [OrdMap.size_insert_of_none _ _ _ fresh]
      simp only [recorded] at before ⊢
      omega

/-- A handler that ends: the limiter may have counted it, and no one else moved. -/
theorem Guarded.erase (guarded : Guarded peer opened log server) {ticket : Nat}
    {handler : LoginHandler} (found : server.handlers.get? ticket = some handler)
    (limiter : LimiterMap) (event : LoginEvent) (silent : event.isVerifying = false)
    (alone : Alone peer opened limiter)
    (counted : (limiter.get? peer).elim 0 LimiterEntry.failures = server.recorded peer + 1 ∨
      handler.stage = .lookingUp ∧
        (limiter.get? peer).elim 0 LimiterEntry.failures = server.recorded peer) :
    Guarded peer opened (log ++ [event])
      { server with limiter := limiter, handlers := server.handlers.erase ticket } := by
  have size := server.handlers.size_erase ticket (by simp [found])
  have weight := server.handlers.weight_erase LoginHandler.guessing ticket handler found
  have reached := guarded.reached
  have room := guarded.room
  refine ⟨alone, fun other handler found => ?_, fun other later => ?_, ?_, ?_⟩
  · simp only [OrdMap.get?_erase] at found
    split_ifs at found
    exact guarded.peers other handler found
  · simp only [OrdMap.get?_erase]
    split_ifs
    · rfl
    · exact guarded.issued other later
  · have one := handler.guessing_le
    rw [verifications_append]
    simp only [verifications, List.countP_singleton, silent, Bool.false_eq_true,
      if_false] at reached ⊢
    simp only [recorded] at reached counted ⊢
    obtain counted | ⟨early, counted⟩ := counted
    · omega
    · have none : handler.guessing = 0 := by simp [LoginHandler.guessing, early]
      omega
  · simp only [recorded] at room counted ⊢
    omega

variable (hash : HashOrder)

theorem Guarded.refuse (guarded : Guarded peer opened log server) {ticket : Nat}
    {handler : LoginHandler} (found : server.handlers.get? ticket = some handler)
    (error : AuthError) (after : opened ≤ now) (within : now < opened + loginWindow)
    (counts : error.counts ∨ handler.stage = .lookingUp) :
    Guarded peer opened (log ++ (server.refuse hash ticket handler.peer error now).2)
      (server.refuse hash ticket handler.peer error now).1 := by
  have few : server.recorded peer < 2 ^ 32 - 1 :=
    (Nat.le_add_right _ _).trans_lt (guarded.room.trans_lt (by decide))
  have counted := guarded.alone.recordFailure hash after within few
  rw [guarded.peers ticket handler found]
  cases known : error.counts with
  | true =>
    simp only [LoginServer.refuse, known, if_true]
    exact guarded.erase found _ _ rfl counted.1 (Or.inl counted.2)
  | false =>
    have early := counts.resolve_left (by simp [known])
    simp only [LoginServer.refuse, known, Bool.false_eq_true, if_false]
    exact guarded.erase found _ _ rfl guarded.alone (Or.inr ⟨early, rfl⟩)

theorem Guarded.lookedUp (guarded : Guarded peer opened log server) {ticket : Nat}
    {lookup : UserLookup} (after : opened ≤ now) (within : now < opened + loginWindow)
    (failing : lookup ≠ .firstLogin) :
    Guarded peer opened (log ++ (server.lookedUp hash ticket lookup now).2)
      (server.lookedUp hash ticket lookup now).1 := by
  unfold LoginServer.lookedUp
  split
  next other found =>
    cases lookup with
    | firstLogin => exact absurd rfl failing
    | failed error => exact guarded.refuse hash found error after within (Or.inr rfl)
    | found =>
      have same := server.handlers.size_insert_of_some ticket _ ⟨other, .verifying⟩ found
      have weight := server.handlers.weight_insert_of_some LoginHandler.guessing ticket _
        ⟨other, .verifying⟩ found
      have reached := guarded.reached
      have room := guarded.room
      refine ⟨guarded.alone, fun entry handler held => ?_, fun entry later => ?_, ?_, ?_⟩
      · simp only [OrdMap.get?_insert] at held
        split_ifs at held with here
        · rw [← Option.some.inj held]
          exact guarded.peers ticket ⟨other, .lookingUp⟩ found
        · exact guarded.peers entry handler held
      · simp only [OrdMap.get?_insert]
        rw [if_neg]
        · exact guarded.issued entry later
        · rintro rfl
          simp [guarded.issued entry later] at found
      · rw [verifications_append]
        simp [LoginHandler.guessing] at weight
        simp only [recorded, verifications, LoginEvent.isVerifying, List.countP_singleton,
          if_true] at reached ⊢
        omega
      · simp only [recorded, same] at room ⊢
        exact room
  · simpa using guarded
  · simpa using guarded

theorem Guarded.verified (guarded : Guarded peer opened log server) {ticket : Nat}
    {failure : Option AuthError} (after : opened ≤ now) (within : now < opened + loginWindow)
    (failing : failure ≠ none) (accounts : server.Accounts (.verified ticket failure now)) :
    Guarded peer opened (log ++ (server.verified hash ticket failure now).2)
      (server.verified hash ticket failure now).1 := by
  unfold LoginServer.verified
  split
  next other found =>
    cases failure with
    | none => exact absurd rfl failing
    | some error => exact guarded.refuse hash found error after within (Or.inl accounts)
  · simpa using guarded
  · simpa using guarded

theorem Guarded.step (guarded : Guarded peer opened log server) {input : LoginStep}
    (mine : input.comesFrom peer) (after : opened ≤ input.now)
    (within : input.now < opened + loginWindow) (failing : input.succeeds = false)
    (accounts : server.Accounts input) :
    Guarded peer opened (log ++ (server.step hash input).2) (server.step hash input).1 := by
  cases input with
  | arrive other now =>
    obtain rfl : other = peer := by simpa [LoginStep.comesFrom] using mine
    exact guarded.arrive accounts
  | lookedUp ticket lookup now =>
    exact guarded.lookedUp hash after within (by simpa [LoginStep.succeeds] using failing)
  | verified ticket failure now =>
    exact guarded.verified hash after within (by simpa [LoginStep.succeeds] using failing) accounts

theorem Guarded.verifications_le (guarded : Guarded peer opened log server) :
    verifications log ≤ maxFailures := by
  have weight := server.handlers.weight_le_size LoginHandler.guessing LoginHandler.guessing_le
  exact guarded.reached.trans ((Nat.add_le_add_left weight _).trans guarded.room)

end Guesses

/-- In every interleaving of handlers of one peer within one window, none of which logs in, at most
`MAX_FAILURES` passwords are verified, as long as every handler accounts for those under way. -/
theorem run_guesses_bounded (hash : HashOrder) (peer : IpAddr) (opened : Nat)
    (steps : List LoginStep)
    (oneWindow : ∀ input ∈ steps, input.comesFrom peer ∧ opened ≤ input.now ∧
      input.now < opened + loginWindow ∧ input.succeeds = false)
    (accounts : Runs.Along (step hash) (fun _ => Accounts) [] new steps) :
    verifications (Runs.run (step hash) new steps).2 ≤ maxFailures := by
  have within : Runs.Along (step hash) (fun _ _ input => input.comesFrom peer ∧
      opened ≤ input.now ∧ input.now < opened + loginWindow ∧ input.succeeds = false) [] new steps :=
    Runs.along_of_forall (fun input member _ _ => oneWindow input member) [] new
  have guarded := Runs.run_invariant (step hash) _ (Guarded peer opened)
    (fun log server input held guard =>
      held.step hash guard.1.1 guard.1.2.1 guard.1.2.2.1 guard.1.2.2.2 guard.2)
    [] new steps ?_ (within.and accounts)
  · simpa using guarded.verifications_le
  · constructor <;> simp [new, Alone, verifications, recorded]

-- Ten handlers that pass the limiter one after the other, each once the one before was refused.
def oneByOne : List LoginStep :=
  (List.range 10).flatMap fun ticket =>
    [.arrive (.v4 1) ticket, .lookedUp ticket .found ticket,
      .verified ticket (some .credentialsWrong) ticket]

theorem run_guesses_bounded_one_by_one :
    verifications (Runs.run (step ⟨OrdMap.keys, fun _ => .refl _⟩) new oneByOne).2 ≤ maxFailures :=
  run_guesses_bounded _ (.v4 1) 0 oneByOne (by decide +kernel) (by decide +kernel)

-- Eleven handlers pass the limiter before the first of them records its failure.
def allAtOnce : List LoginStep :=
  List.replicate 11 (LoginStep.arrive (.v4 1) 0) ++
    (List.range 11).map fun ticket => LoginStep.lookedUp ticket .found 0

theorem run_guesses_all_at_once :
    (∀ input ∈ allAtOnce, input.comesFrom (.v4 1) ∧ 0 ≤ input.now ∧
        input.now < 0 + loginWindow ∧ input.succeeds = false) ∧
      ¬ verifications (Runs.run (step ⟨OrdMap.keys, fun _ => .refl _⟩) new allAtOnce).2 ≤
        maxFailures := by
  constructor <;> decide +kernel

end LoginServer

end BetterParsec
