import BetterParsec.Server.StorageMoves

set_option autoImplicit false
set_option linter.all false

/-!
# Users and roles of the store

User names stay unique and roles of users stay defined as long as no request acts
on what it saw in an earlier section and what has changed since: a name that was
free, or a role that is being removed.
-/

namespace BetterParsec

structure V3.Integral (data : V3) : Prop where
  names : ∀ id other user twin, data.users.get? id = some user →
    data.users.get? other = some twin → user.name = twin.name → id = other
  roles : ∀ id user, data.users.get? id = some user → data.roles.get? user.roleId ≠ none

theorem V3.getUserByName_none {data : V3} {name : String} (free : data.getUserByName name = none)
    {id : UInt32} {user : V3User} (found : data.users.get? id = some user) : user.name ≠ name := by
  rw [OrdMap.get?_eq_some] at found
  simp only [getUserByName, Option.map_eq_none_iff, List.find?_eq_none] at free
  simpa using free _ found

theorem V3.Integral.fewer {data next : V3} (integral : data.Integral)
    (users : ∀ id user, next.users.get? id = some user → data.users.get? id = some user)
    (roles : ∀ id user, next.users.get? id = some user → next.roles.get? user.roleId ≠ none) :
    next.Integral :=
  ⟨fun id other user twin found found' => integral.names id other user twin (users id user found)
    (users other twin found'), roles⟩

namespace JsonStorage

-- The role exists, and no `remove_role` has removed its users without having removed it yet.
def RoleStays (storage : JsonStorage) (roleId : UInt32) : Prop :=
  storage.data.roles.get? roleId ≠ none ∧
    ∀ ticket ∈ storage.requests.keys, storage.requests.get? ticket ≠ some (.usersRemoved roleId)

-- `add_user` still finds its name free when it inserts, and every role id is written while the
-- role stays.
def Orderly (storage : JsonStorage) : StorageStep → Prop
  | .advance ticket draw _ =>
      match storage.requests.get? ticket with
      | some (.nameFree user _) =>
          storage.Inserts draw →
            storage.data.getUserByName user.name = none ∧ storage.RoleStays user.roleId
      | some (.begun (.modifyUser _ modify)) => ∀ roleId ∈ modify.roleId, storage.RoleStays roleId
      | _ => True
  | .call _ | .userBySession _ _ | .sweepSessions _ | .receive | .snapshot | .readEntry _
  | .writeFile => True

structure Ordered (storage : JsonStorage) : Prop where
  integral : storage.data.Integral
  cleared : ∀ ticket roleId, storage.requests.get? ticket = some (.usersRemoved roleId) →
    ∀ id user, storage.data.users.get? id = some user → user.roleId ≠ roleId

variable {storage : JsonStorage} {ticket now : Nat} {draw : Draw}

theorem RoleStays.not_removed {roleId : UInt32} (stays : storage.RoleStays roleId) (ticket : Nat) :
    storage.requests.get? ticket ≠ some (.usersRemoved roleId) := by
  intro found
  exact stays.2 ticket ((storage.requests.mem_keys ticket).mpr ⟨_, found⟩) found

theorem Ordered.requests (ordered : storage.Ordered) {next : JsonStorage}
    (data : next.data = storage.data)
    (removed : ∀ ticket roleId, next.requests.get? ticket = some (.usersRemoved roleId) →
      storage.requests.get? ticket = some (.usersRemoved roleId)) : next.Ordered := by
  refine ⟨data ▸ ordered.integral, fun ticket roleId found id user => ?_⟩
  rw [data]
  exact ordered.cleared ticket roleId (removed ticket roleId found) id user

theorem Ordered.reply (ordered : storage.Ordered) (ticket : Nat) (reply : StorageReply) :
    (storage.reply ticket reply).1.Ordered := by
  refine ordered.requests rfl (fun other roleId found => ?_)
  simp only [JsonStorage.reply, OrdMap.get?_erase] at found
  split_ifs at found
  exact found

theorem Ordered.proceed (ordered : storage.Ordered) (ticket : Nat) {stage : Stage}
    (clean : stage.unsaved = false) : (storage.proceed ticket stage).Ordered := by
  refine ordered.requests rfl (fun other roleId found => ?_)
  simp only [JsonStorage.proceed, OrdMap.get?_insert] at found
  split_ifs at found
  · rw [Option.some.inj found] at clean
    simp [Stage.unsaved] at clean
  · exact found

/-- A section that writes the store leaves the request before its `force_write`. -/
theorem ordered_change (ticket : Nat) {data : V3} (next : AfterWrite) (integral : data.Integral)
    (cleared : ∀ other roleId, storage.requests.get? other = some (.usersRemoved roleId) →
      other ≠ ticket → ∀ id user, data.users.get? id = some user → user.roleId ≠ roleId) :
    (storage.change ticket data next).Ordered := by
  refine ⟨integral, fun other roleId found => ?_⟩
  simp only [JsonStorage.change, OrdMap.get?_insert] at found
  split_ifs at found with same
  · simp at found
  · exact cleared other roleId found same

theorem Ordered.userWritten (ordered : storage.Ordered) (ticket : Nat) (next : AfterWrite)
    {id : UInt32} {user : V3User}
    (name : ∀ other twin, other ≠ id → storage.data.users.get? other = some twin →
      user.name ≠ twin.name)
    (stays : storage.RoleStays user.roleId) :
    (storage.change ticket (storage.putUser id user) next).Ordered := by
  apply ordered_change
  · constructor
    · intro a b userA userB foundA foundB same
      simp only [putUser, OrdMap.get?_insert] at foundA foundB
      split_ifs at foundA foundB with isA isB isB
      · exact isA.trans isB.symm
      · rw [← Option.some.inj foundA] at same
        exact absurd same (name b userB isB foundB)
      · rw [← Option.some.inj foundB] at same
        exact absurd same.symm (name a userA isA foundA)
      · exact ordered.integral.names a b userA userB foundA foundB same
    · intro other twin found
      simp only [putUser, OrdMap.get?_insert] at found ⊢
      split_ifs at found
      · rw [← Option.some.inj found]
        exact stays.1
      · exact ordered.integral.roles other twin found
  · intro other roleId removed _ holder twin found
    simp only [putUser, OrdMap.get?_insert] at found
    split_ifs at found
    · rw [← Option.some.inj found]
      rintro rfl
      exact stays.not_removed other removed
    · exact ordered.cleared other roleId removed holder twin found

/-- Roles and users are only taken away, and no user is left without its role. -/
theorem Ordered.fewer (ordered : storage.Ordered) (ticket : Nat) (next : AfterWrite) {data : V3}
    (users : ∀ id user, data.users.get? id = some user → storage.data.users.get? id = some user)
    (roles : ∀ id user, data.users.get? id = some user → data.roles.get? user.roleId ≠ none) :
    (storage.change ticket data next).Ordered :=
  ordered_change ticket next (ordered.integral.fewer users roles)
    (fun other roleId removed _ id user found =>
      ordered.cleared other roleId removed id user (users id user found))

theorem Ordered.roleUsersRemoved (ordered : storage.Ordered) (ticket : Nat) (roleId : UInt32) :
    (storage.removeRoleUsers ticket roleId).1.Ordered := by
  have kept (id : UInt32) (user : V3User)
      (found : (storage.data.users.filter (fun _ user => user.roleId ≠ roleId)).get? id =
        some user) : storage.data.users.get? id = some user ∧ user.roleId ≠ roleId := by
    simpa [OrdMap.get?_filter, Option.filter_eq_some_iff] using found
  refine ⟨ordered.integral.fewer (fun id user found => (kept id user found).1)
    (fun id user found => ordered.integral.roles id user (kept id user found).1),
    fun other removed found id user held => ?_⟩
  simp only [removeRoleUsers, OrdMap.get?_insert] at found
  split_ifs at found
  · simp only [Option.some.injEq, Stage.usersRemoved.injEq] at found
    exact found ▸ (kept id user held).2
  · exact ordered.cleared other removed found id user (kept id user held).1

theorem Ordered.move (ordered : storage.Ordered) {stage : Stage} {next : JsonStorage}
    {events : List StorageEvent} (found : storage.requests.get? ticket = some stage)
    (move : Move storage ticket draw now stage next events)
    (orderly : storage.Orderly (.advance ticket draw now)) : next.Ordered := by
  simp only [Orderly, found] at orderly
  cases move with
  | wait => exact ordered
  | ended reply => exact ordered.reply ticket reply
  | moved following _ clean => exact ordered.proceed ticket clean
  | userAdded user first id drawn fresh =>
    obtain ⟨free, stays⟩ := orderly ⟨id, drawn, fresh⟩
    refine ordered.userWritten ticket _ (fun other twin _ held => ?_) stays
    exact Ne.symm (V3.getUserByName_none free held)
  | userModified id modify user held =>
    refine ordered.userWritten ticket _ (fun other twin different held' same => ?_) ?_
    · exact different (ordered.integral.names other id twin user held' held same.symm)
    · cases role : modify.roleId with
      | some roleId => simpa [UserModify.apply, role] using orderly roleId (by simp [role])
      | none =>
        simp only [UserModify.apply, role, Option.getD_none]
        refine ⟨ordered.integral.roles id user held, fun other _ removed => ?_⟩
        exact ordered.cleared other _ removed id user held rfl
  | userRemoved id =>
    have kept (other : UInt32) (user : V3User)
        (held : (storage.data.users.erase id).get? other = some user) :
        storage.data.users.get? other = some user := by
      rw [OrdMap.get?_erase] at held
      split_ifs at held
      exact held
    exact ordered.fewer ticket _ kept
      (fun other user held => ordered.integral.roles other user (kept other user held))
  | roleUsersRemoved roleId => exact ordered.roleUsersRemoved ticket roleId
  | roleRemoved roleId =>
    refine ordered.fewer ticket _ (fun _ _ => id) (fun id user held => ?_)
    simp only [OrdMap.get?_erase]
    rw [if_neg (ordered.cleared ticket roleId found id user held)]
    exact ordered.integral.roles id user held
  | roleWritten roleId role following =>
    refine ordered.fewer ticket _ (fun _ _ => id) (fun id user held => ?_)
    simp only [putRole, OrdMap.get?_insert]
    split_ifs
    · simp
    · exact ordered.integral.roles id user held
  | hostsWritten hosts following =>
    exact ordered.fewer ticket _ (fun _ _ => id) ordered.integral.roles
  | unchanged reply =>
    exact ordered.fewer ticket _ (fun _ _ => id) ordered.integral.roles
  | sent reply =>
    have queued : { storage with queued := true }.Ordered := ⟨ordered.integral, ordered.cleared⟩
    exact queued.reply ticket reply
  | sentOn following clean =>
    have queued : { storage with queued := true }.Ordered := ⟨ordered.integral, ordered.cleared⟩
    exact queued.proceed ticket clean
  | sessionCreated token userId expiration =>
    have created (sessions : OrdMap SessionToken JsonStorage.Session) :
        { storage with sessions := sessions }.Ordered := ⟨ordered.integral, ordered.cleared⟩
    exact (created _).reply ticket (.sessionToken token)
  | sessionRemoved token =>
    have removed : { storage with sessions := storage.sessions.erase token }.Ordered :=
      ⟨ordered.integral, ordered.cleared⟩
    exact removed.reply ticket .done
  | sessionsRemoved userId =>
    have removed (sessions : OrdMap SessionToken JsonStorage.Session) :
        { storage with sessions := sessions }.Ordered := ⟨ordered.integral, ordered.cleared⟩
    exact (removed _).reply ticket .done

theorem Ordered.step (ordered : storage.Ordered) (config : WebServerConfig) (input : StorageStep)
    (orderly : storage.Orderly input) : (storage.step config input).1.Ordered := by
  by_cases writes : input.ofWriter
  · obtain ⟨_, _, _, same⟩ := storage.step_of_writer config writes
    rw [same]
    exact ⟨ordered.integral, ordered.cleared⟩
  cases input with
  | call request =>
    refine ordered.requests rfl (fun other roleId found => ?_)
    simp only [JsonStorage.step, JsonStorage.call, OrdMap.get?_insert] at found
    split_ifs at found
    · simp at found
    · exact found
  | advance ticket draw now =>
    simp only [JsonStorage.step]
    split
    next stage found =>
      exact ordered.move found (storage.advance_move ticket draw now config stage) orderly
    · exact ordered
  | userBySession token now => exact ordered
  | sweepSessions now => exact ⟨ordered.integral, ordered.cleared⟩
  | receive | snapshot | readEntry _ | writeFile => exact absurd rfl writes

/-- In every interleaving, user names stay unique and users keep existing roles, as long as names
are still free when they are inserted and no role that is being removed is given to a user. -/
theorem run_keeps_integrity (config : WebServerConfig) (data : V3) (sound : data.Integral)
    (steps : List StorageStep)
    (orderly : Runs.Along (step config) (fun _ => Orderly) [] (load data) steps) :
    (Runs.run (step config) (load data) steps).1.data.Integral := by
  have ordered := Runs.run_invariant (step config) _ (fun _ => Ordered)
    (fun _ storage input held guard => held.step config input guard) [] (load data) steps ?_ orderly
  · exact ordered.integral
  · exact ⟨sound, fun ticket roleId found => by simp [load] at found⟩

-- The caller passes a role that exists when its request begins.
def KnownRole (storage : JsonStorage) : StorageStep → Prop
  | .call (.addUser user) => storage.data.roles.get? user.roleId ≠ none
  | .call (.modifyUser _ modify) =>
      ∀ roleId ∈ modify.roleId, storage.data.roles.get? roleId ≠ none
  | _ => True

instance decidableKnownRole (storage : JsonStorage) (input : StorageStep) :
    Decidable (storage.KnownRole input) := by
  unfold KnownRole
  split <;> infer_instance

instance decidableRoleStays (storage : JsonStorage) (roleId : UInt32) :
    Decidable (storage.RoleStays roleId) :=
  inferInstanceAs (Decidable (_ ∧ _))

instance decidableOrderly (storage : JsonStorage) (input : StorageStep) :
    Decidable (storage.Orderly input) :=
  match input with
  | .advance ticket draw _ => by
      dsimp only [Orderly]
      generalize storage.requests.get? ticket = stage
      split <;> infer_instance
  | .call _ | .userBySession _ _ | .sweepSessions _ | .receive | .snapshot | .readEntry _
  | .writeFile => .isTrue trivial

def oneAdmin : V3 := { V3.empty with roles := V3.empty.roles.insert 1 firstAdmin }

def drawn (id : UInt32) : Draw := ⟨some id, none⟩

theorem oneAdmin_integral : oneAdmin.Integral :=
  ⟨fun _ _ _ _ found => by simp [oneAdmin, V3.empty] at found,
    fun _ _ found => by simp [oneAdmin, V3.empty] at found⟩

-- Two users are added one after the other, then their role is removed with them.
def oneAfterTheOther : List StorageStep :=
  [.call (.addUser ⟨1, "ann", none, "a"⟩), .advance 0 (drawn 1) 0, .advance 0 (drawn 1) 0,
    .advance 0 (drawn 1) 0, .call (.addUser ⟨1, "bob", none, "b"⟩), .advance 1 (drawn 2) 0,
    .advance 1 (drawn 2) 0, .advance 1 (drawn 2) 0, .call (.removeRole 1), .advance 2 (drawn 2) 0,
    .advance 2 (drawn 2) 0, .advance 2 (drawn 2) 0]

theorem run_keeps_integrity_one_after_the_other :
    (Runs.run (step ⟨true, true⟩) (load oneAdmin) oneAfterTheOther).1.data.Integral :=
  run_keeps_integrity _ oneAdmin oneAdmin_integral oneAfterTheOther (by decide +kernel)

-- Both requests look for the name before either inserts it.
def sameNameAtOnce : List StorageStep :=
  [.call (.addUser ⟨1, "ann", none, "a"⟩), .call (.addUser ⟨1, "ann", none, "b"⟩),
    .advance 0 (drawn 1) 0, .advance 1 (drawn 2) 0, .advance 0 (drawn 1) 0, .advance 1 (drawn 2) 0,
    .advance 0 (drawn 1) 0, .advance 1 (drawn 2) 0]

-- A user is added to the role after its users were removed and before it is.
def addedBetween : List StorageStep :=
  [.call (.addUser ⟨1, "ann", none, "a"⟩), .call (.removeRole 1), .advance 0 (drawn 1) 0,
    .advance 1 (drawn 1) 0, .advance 0 (drawn 1) 0, .advance 1 (drawn 1) 0, .advance 0 (drawn 1) 0,
    .advance 1 (drawn 1) 0]

theorem run_breaks_integrity :
    oneAdmin.Integral ∧
    (Runs.Along (step ⟨true, true⟩) (fun _ => KnownRole) [] (load oneAdmin) sameNameAtOnce ∧
      (Runs.run (step ⟨true, true⟩) (load oneAdmin) sameNameAtOnce).1.requests.size = 0 ∧
      ¬ (Runs.run (step ⟨true, true⟩) (load oneAdmin) sameNameAtOnce).1.data.Integral) ∧
    (Runs.Along (step ⟨true, true⟩) (fun _ => KnownRole) [] (load oneAdmin) addedBetween ∧
      (Runs.run (step ⟨true, true⟩) (load oneAdmin) addedBetween).1.requests.size = 0 ∧
      ¬ (Runs.run (step ⟨true, true⟩) (load oneAdmin) addedBetween).1.data.Integral) := by
  refine ⟨oneAdmin_integral, ⟨by decide +kernel, by decide +kernel, fun integral => ?_⟩,
    by decide +kernel, by decide +kernel, fun integral => ?_⟩
  · have same := integral.names 1 2 ⟨1, "ann", none, "a"⟩ ⟨1, "ann", none, "b"⟩
      (by decide +kernel) (by decide +kernel) rfl
    simp at same
  · exact integral.roles 1 ⟨1, "ann", none, "a"⟩ (by decide +kernel) (by decide +kernel)

end JsonStorage

end BetterParsec
