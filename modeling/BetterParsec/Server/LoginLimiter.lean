import BetterParsec.Library.OrdMap
import BetterParsec.Library.Runs

set_option autoImplicit false
set_option linter.all false

/-!
# Login limiter

The fixed-window limiter of `login_limiter.rs`, and what one address sees of it
while other addresses use the same bounded map. Times are in nanoseconds.
-/

namespace BetterParsec

inductive IpAddr where
  | v4 (addr : BitVec 32)
  | v6 (addr : BitVec 128)

namespace IpAddr

def rank : IpAddr → Nat
  | v4 addr => addr.toNat
  | v6 addr => 2 ^ 32 + addr.toNat

theorem rank_injective : Function.Injective rank := by
  intro left right same
  cases left with
  | v4 left =>
    cases right with
    | v4 right => exact congrArg v4 (BitVec.eq_of_toNat_eq same)
    | v6 right =>
      have := left.isLt
      simp only [rank] at same
      omega
  | v6 left =>
    cases right with
    | v4 right =>
      have := right.isLt
      simp only [rank] at same
      omega
    | v6 right => exact congrArg v6 (BitVec.eq_of_toNat_eq (Nat.add_left_cancel same))

end IpAddr

instance ipAddrLinearOrder : LinearOrder IpAddr :=
  LinearOrder.lift' IpAddr.rank IpAddr.rank_injective

def maxFailures : Nat := 10

def loginWindow : Nat := 10 * 60 * 10 ^ 9

def mapLimit : Nat := 4096

structure LimiterEntry where
  windowStart : Nat
  failures : Nat

namespace LimiterEntry

-- `saturating_duration_since` is zero when the window starts later.
def expired (entry : LimiterEntry) (now : Nat) : Bool := now - entry.windowStart ≥ loginWindow

def count (entry : LimiterEntry) : LimiterEntry :=
  { entry with failures := min (entry.failures + 1) (2 ^ 32 - 1) }

theorem expired_iff (entry : LimiterEntry) (now : Nat) :
    entry.expired now = true ↔ entry.windowStart + loginWindow ≤ now := by
  have : 0 < loginWindow := by decide
  rw [expired, decide_eq_true_eq]
  omega

end LimiterEntry

inductive LimitCheck where
  | allow
  | deny (retryAfterSecs : Nat)
  deriving DecidableEq

abbrev LimiterMap := OrdMap IpAddr LimiterEntry

-- The order in which the hash map yields its keys.
structure HashOrder where
  order : LimiterMap → List IpAddr
  perm : ∀ map, (order map).Perm map.keys

inductive LimiterCall where
  | check (ip : IpAddr) (now : Nat)
  | recordFailure (ip : IpAddr) (now : Nat)
  | clear (ip : IpAddr)

namespace LimiterMap

def check (map : LimiterMap) (ip : IpAddr) (now : Nat) : LimitCheck :=
  match map.get? ip with
  | none => .allow
  | some entry =>
      if entry.expired now then .allow
      else if entry.failures ≥ maxFailures then
        .deny (max ((loginWindow - (now - entry.windowStart)) / 10 ^ 9) 1)
      else .allow

def retainLive (map : LimiterMap) (now : Nat) : LimiterMap :=
  map.filter (fun _ entry => !entry.expired now)

def windowStart (map : LimiterMap) (ip : IpAddr) : Nat :=
  (map.get? ip).elim 0 LimiterEntry.windowStart

variable (hash : HashOrder)

def evict (map : LimiterMap) (now : Nat) : LimiterMap :=
  let live := map.retainLive now
  if live.size ≥ mapLimit then
    match (hash.order live).argmin live.windowStart with
    | some oldest => live.erase oldest
    | none => live
  else live

def makeRoom (map : LimiterMap) (ip : IpAddr) (now : Nat) : LimiterMap :=
  if !map.contains ip && map.size ≥ mapLimit then map.evict hash now else map

def countedEntry (map : LimiterMap) (ip : IpAddr) (now : Nat) : LimiterEntry :=
  let entry := (map.get? ip).getD ⟨now, 0⟩
  (if entry.expired now then ⟨now, 0⟩ else entry).count

def recordFailure (map : LimiterMap) (ip : IpAddr) (now : Nat) : LimiterMap :=
  let room := map.makeRoom hash ip now
  room.insert ip (room.countedEntry ip now)

def step (map : LimiterMap) : LimiterCall → LimiterMap × List LimitCheck
  | .check ip now => (map, [map.check ip now])
  | .recordFailure ip now => (map.recordFailure hash ip now, [])
  | .clear ip => (map.erase ip, [])

end LimiterMap

-- What the limiter is for: one fixed window per address, from the calls made for it alone.

structure FailureWindow where
  opened : Nat
  failures : Nat

namespace LimiterCall

def concerns (ip : IpAddr) : LimiterCall → Bool
  | check other _ | recordFailure other _ | clear other => other = ip

def time? : LimiterCall → Option Nat
  | check _ now | recordFailure _ now => some now
  | clear _ => none

def openWindow : Option FailureWindow → LimiterCall → Option FailureWindow
  | held, check _ _ => held
  | _, clear _ => none
  | none, recordFailure _ now => some ⟨now, 1⟩
  | some window, recordFailure _ now =>
      if now < window.opened + loginWindow then
        some { window with failures := window.failures + 1 }
      else some ⟨now, 1⟩

end LimiterCall

def windowOf (ip : IpAddr) (calls : List LimiterCall) : Option FailureWindow :=
  (calls.filter (·.concerns ip)).foldl LimiterCall.openWindow none

def Blocked (ip : IpAddr) (calls : List LimiterCall) (now : Nat) : Prop :=
  ∃ window, windowOf ip calls = some window ∧ now < window.opened + loginWindow ∧
    maxFailures ≤ window.failures

def callTimes (calls : List LimiterCall) : List Nat := calls.filterMap LimiterCall.time?

theorem windowOf_concat (ip : IpAddr) (past : List LimiterCall) (call : LimiterCall) :
    windowOf ip (past ++ [call]) =
      if call.concerns ip then call.openWindow (windowOf ip past) else windowOf ip past := by
  simp only [windowOf, List.filter_append, List.foldl_append]
  split_ifs with here <;> simp [here]

namespace LimiterMap

-- Every address without an entry has no window that is still open at `latest`.
structure Tracks (past : List LimiterCall) (latest : Nat) (map : LimiterMap) : Prop where
  held : ∀ ip entry, map.get? ip = some entry → ∃ failures,
    windowOf ip past = some ⟨entry.windowStart, failures⟩ ∧
      entry.failures = min failures (2 ^ 32 - 1)
  gone : ∀ ip window, map.get? ip = none → windowOf ip past = some window →
    window.opened + loginWindow ≤ latest

-- A new address finds room without a window that is still open being evicted.
def KeepsWindows (map : LimiterMap) : LimiterCall → Prop
  | .recordFailure ip now => map.contains ip ∨ (map.retainLive now).size < mapLimit
  | .check _ _ | .clear _ => True

instance decidableKeepsWindows (map : LimiterMap) :
    (call : LimiterCall) → Decidable (map.KeepsWindows call)
  | .recordFailure _ _ => instDecidableOr
  | .check _ _ | .clear _ => .isTrue trivial

theorem retainLive_some {map : LimiterMap} {now : Nat} {ip : IpAddr} {entry : LimiterEntry} :
    (map.retainLive now).get? ip = some entry ↔
      map.get? ip = some entry ∧ entry.expired now = false := by
  simp [retainLive, OrdMap.get?_filter, Option.filter_eq_some_iff]

section Isolation

variable {past : List LimiterCall} {latest now : Nat} {map : LimiterMap}

theorem tracks_empty : Tracks [] 0 OrdMap.empty := by
  constructor
  · simp
  · simp [windowOf]

theorem Tracks.later (tracks : Tracks past latest map) (after : latest ≤ now) :
    Tracks past now map :=
  ⟨tracks.held, fun ip window missing found => (tracks.gone ip window missing found).trans after⟩

theorem Tracks.retainLive (tracks : Tracks past latest map) (after : latest ≤ now) :
    Tracks past now (map.retainLive now) := by
  refine ⟨fun ip entry found => tracks.held ip entry (retainLive_some.mp found).1,
    fun ip window dropped found => ?_⟩
  cases kept : map.get? ip with
  | none => exact (tracks.gone ip window kept found).trans after
  | some entry =>
    have expired : entry.expired now = true := by
      by_contra live
      simp [retainLive_some.mpr ⟨kept, by simpa using live⟩] at dropped
    obtain ⟨failures, same, -⟩ := tracks.held ip entry kept
    rw [found, Option.some.injEq] at same
    rw [same]
    exact (entry.expired_iff now).mp expired

theorem Tracks.clear (tracks : Tracks past latest map) (ip : IpAddr) :
    Tracks (past ++ [LimiterCall.clear ip]) latest (map.erase ip) := by
  constructor
  · intro other entry found
    rw [OrdMap.get?_erase] at found
    split_ifs at found with same
    rw [windowOf_concat, if_neg (by simpa [LimiterCall.concerns] using Ne.symm same)]
    exact tracks.held other entry found
  · intro other window missing found
    rw [windowOf_concat] at found
    split_ifs at found with same
    · simp [LimiterCall.openWindow] at found
    · rw [OrdMap.get?_erase, if_neg] at missing
      · exact tracks.gone other window missing found
      · rintro rfl
        simp [LimiterCall.concerns] at same

theorem Tracks.check (tracks : Tracks past latest map) (ip : IpAddr) :
    Tracks (past ++ [LimiterCall.check ip now]) latest map := by
  have same (other : IpAddr) :
      windowOf other (past ++ [LimiterCall.check ip now]) = windowOf other past := by
    rw [windowOf_concat, LimiterCall.openWindow, ite_self]
  constructor
  · intro other entry found
    rw [same]
    exact tracks.held other entry found
  · intro other window missing found
    rw [same] at found
    exact tracks.gone other window missing found

/-- The entry a failure leaves behind is the window of the address after that failure. -/
theorem Tracks.countedEntry (tracks : Tracks past now map) (ip : IpAddr) :
    ∃ failures, LimiterCall.openWindow (windowOf ip past) (.recordFailure ip now) =
        some ⟨(map.countedEntry ip now).windowStart, failures⟩ ∧
      (map.countedEntry ip now).failures = min failures (2 ^ 32 - 1) := by
  cases kept : map.get? ip with
  | none =>
    have fresh : LimiterEntry.expired ⟨now, 0⟩ now = false := by
      simp [LimiterEntry.expired, loginWindow]
    have written : map.countedEntry ip now = ⟨now, 1⟩ := by
      simp [LimiterMap.countedEntry, kept, fresh, LimiterEntry.count]
    rw [written]
    refine ⟨1, ?_, by simp⟩
    cases earlier : windowOf ip past with
    | none => rfl
    | some window =>
      have closed := tracks.gone ip window kept earlier
      simp [LimiterCall.openWindow, closed]
  | some entry =>
    obtain ⟨failures, window, counted⟩ := tracks.held ip entry kept
    rw [window, LimiterCall.openWindow]
    cases expired : entry.expired now with
    | true =>
      have closed := (entry.expired_iff now).mp expired
      have written : map.countedEntry ip now = ⟨now, 1⟩ := by
        simp [LimiterMap.countedEntry, kept, expired, LimiterEntry.count]
      rw [written]
      exact ⟨1, by simp [closed], by simp⟩
    | false =>
      have within : now < entry.windowStart + loginWindow := by
        by_contra closed
        simp [(entry.expired_iff now).mpr (Nat.not_lt.mp closed)] at expired
      have written : map.countedEntry ip now = entry.count := by
        simp [LimiterMap.countedEntry, kept, expired]
      rw [written]
      refine ⟨failures + 1, by simp [LimiterEntry.count, within], ?_⟩
      simp only [LimiterEntry.count, counted]
      omega

theorem Tracks.insert (tracks : Tracks past now map) (ip : IpAddr) :
    Tracks (past ++ [LimiterCall.recordFailure ip now]) now
      (map.insert ip (map.countedEntry ip now)) := by
  have other {address : IpAddr} (different : address ≠ ip) :
      windowOf address (past ++ [LimiterCall.recordFailure ip now]) = windowOf address past := by
    rw [windowOf_concat, if_neg (by simpa [LimiterCall.concerns] using Ne.symm different)]
  constructor
  · intro address entry found
    by_cases same : address = ip
    · subst same
      rw [OrdMap.get?_insert, if_pos rfl, Option.some.injEq] at found
      rw [windowOf_concat, if_pos (by simp [LimiterCall.concerns]), ← found]
      exact tracks.countedEntry address
    · rw [OrdMap.get?_insert, if_neg same] at found
      rw [other same]
      exact tracks.held address entry found
  · intro address window missing found
    rw [OrdMap.get?_insert] at missing
    split_ifs at missing with same
    rw [other same] at found
    exact tracks.gone address window missing found

variable (hash : HashOrder)

theorem Tracks.makeRoom (tracks : Tracks past latest map) (after : latest ≤ now) {ip : IpAddr}
    (keeps : map.KeepsWindows (.recordFailure ip now)) :
    Tracks past now (map.makeRoom hash ip now) := by
  unfold LimiterMap.makeRoom
  split_ifs with full
  · have fits : ¬ (map.retainLive now).size ≥ mapLimit := by
      obtain held | fits := keeps
      · simp [held] at full
      · exact Nat.not_le.mpr fits
    simp only [evict]
    rw [if_neg fits]
    exact tracks.retainLive after
  · exact tracks.later after

/-- A run of calls keeps track of every window, up to any time after the last call. -/
theorem Tracks.run (tracks : Tracks past latest map) (calls : List LimiterCall)
    (times : (latest :: callTimes calls ++ [now]).Pairwise (· ≤ ·)) (seen : List LimitCheck)
    (keeps : Runs.Along (step hash) (fun _ => KeepsWindows) seen map calls) :
    Tracks (past ++ calls) now (Runs.run (step hash) map calls).1 := by
  induction calls generalizing past latest map seen with
  | nil =>
    have after : latest ≤ now := by simpa [callTimes] using times
    simpa [Runs.run] using tracks.later after
  | cons call rest ih =>
    rw [← List.singleton_append, ← List.append_assoc]
    cases call with
    | check ip time =>
      obtain ⟨earlier, later⟩ := List.pairwise_cons.mp times
      exact ih ((tracks.check ip).later (earlier time (by simp [callTimes, LimiterCall.time?])))
        later _ keeps.2
    | recordFailure ip time =>
      obtain ⟨earlier, later⟩ := List.pairwise_cons.mp times
      have room := tracks.makeRoom hash (earlier time (by simp [callTimes, LimiterCall.time?]))
        keeps.1
      exact ih (room.insert ip) later _ keeps.2
    | clear ip =>
      exact ih (tracks.clear ip) times _ keeps.2

theorem Tracks.check_denies (tracks : Tracks past now map) (ip : IpAddr) :
    (∃ seconds, map.check ip now = .deny seconds) ↔ Blocked ip past now := by
  have few : maxFailures ≤ 2 ^ 32 - 1 := by decide
  cases found : map.get? ip with
  | none =>
    simp only [LimiterMap.check, found, reduceCtorEq, exists_false, false_iff]
    rintro ⟨window, opened, within, -⟩
    have closed := tracks.gone ip window found opened
    omega
  | some entry =>
    obtain ⟨failures, window, counted⟩ := tracks.held ip entry found
    have expired := entry.expired_iff now
    simp only [LimiterMap.check, found, Blocked, window, Option.some.injEq, exists_eq_left']
    split_ifs with elapsed enough
    · have closed := expired.mp elapsed
      simp only [exists_false, false_iff]
      omega
    · have within : ¬ entry.windowStart + loginWindow ≤ now :=
        fun closed => elapsed (expired.mpr closed)
      simp only [LimitCheck.deny.injEq, exists_eq', true_iff]
      omega
    · simp only [exists_false, false_iff]
      omega

end Isolation

section Bound

variable (hash : HashOrder) {map : LimiterMap}

theorem evict_missing {ip : IpAddr} (now : Nat) (missing : map.get? ip = none) :
    (map.evict hash now).get? ip = none := by
  have retained : (map.retainLive now).get? ip = none := by
    simp [retainLive, OrdMap.get?_filter, missing]
  simp only [evict]
  split_ifs
  · cases (hash.order (map.retainLive now)).argmin (map.retainLive now).windowStart with
    | none => exact retained
    | some oldest => simp [OrdMap.get?_erase, retained]
  · exact retained

theorem evict_size (now : Nat) (bounded : map.size ≤ mapLimit) :
    (map.evict hash now).size < mapLimit := by
  have shrunk : (map.retainLive now).size ≤ map.size :=
    OrdMap.size_le_of_get? _ _ (fun ip entry found => (retainLive_some.mp found).1)
  simp only [evict]
  split_ifs with full
  · cases chosen : (hash.order (map.retainLive now)).argmin (map.retainLive now).windowStart with
    | none =>
      have empty := (hash.perm (map.retainLive now)).length_eq
      rw [List.argmin_eq_none.mp chosen, OrdMap.length_keys] at empty
      have : 0 < mapLimit := by decide
      simp only [List.length_nil] at empty
      omega
    | some oldest =>
      have member := (hash.perm (map.retainLive now)).subset (List.argmin_mem chosen)
      obtain ⟨entry, found⟩ := (OrdMap.mem_keys _ _).mp member
      have smaller := (map.retainLive now).size_erase oldest (by simp [found])
      dsimp only
      omega
  · omega

theorem recordFailure_size (ip : IpAddr) (now : Nat) (bounded : map.size ≤ mapLimit) :
    (map.recordFailure hash ip now).size ≤ mapLimit := by
  cases held : map.contains ip with
  | true =>
    obtain ⟨entry, found⟩ := Option.ne_none_iff_exists'.mp ((OrdMap.contains_eq_true _ _).mp held)
    have room : map.makeRoom hash ip now = map := by simp [makeRoom, held]
    simp only [recordFailure, room]
    rw [map.size_insert_of_some ip entry _ found]
    exact bounded
  | false =>
    have room : (map.makeRoom hash ip now).size < mapLimit ∧
        (map.makeRoom hash ip now).get? ip = none := by
      have missing := (OrdMap.contains_eq_false _ _).mp held
      unfold makeRoom
      split_ifs with full
      · exact ⟨evict_size hash now bounded, evict_missing hash now missing⟩
      · exact ⟨by simpa [held] using full, missing⟩
    simp only [recordFailure]
    rw [OrdMap.size_insert_of_none _ _ _ room.2]
    exact room.1

theorem step_size (call : LimiterCall) (bounded : map.size ≤ mapLimit) :
    (map.step hash call).1.size ≤ mapLimit := by
  cases call with
  | check ip now => exact bounded
  | recordFailure ip now => exact recordFailure_size hash ip now bounded
  | clear ip =>
    have shrunk : (map.erase ip).size ≤ map.size := OrdMap.size_le_of_get? _ _ (by grind)
    exact shrunk.trans bounded

end Bound

/-- The map stays bounded; while no open window is evicted, an address is denied exactly by its own
failures. -/
theorem run_isolated (hash : HashOrder) (calls : List LimiterCall) :
    (Runs.run (step hash) OrdMap.empty calls).1.size ≤ mapLimit ∧
      ∀ ip now, (callTimes (calls ++ [LimiterCall.check ip now])).Pairwise (· ≤ ·) →
        Runs.Along (step hash) (fun _ => KeepsWindows) [] OrdMap.empty calls →
        ((∃ seconds, (Runs.run (step hash) OrdMap.empty calls).1.check ip now = .deny seconds) ↔
          Blocked ip calls now) := by
  constructor
  · exact Runs.run_invariant_of_forall (step hash) (fun _ map => map.size ≤ mapLimit)
      (fun _ _ call bounded => step_size hash call bounded) [] OrdMap.empty calls (Nat.zero_le _)
  · intro ip now times keeps
    have times' : (0 :: callTimes calls ++ [now]).Pairwise (· ≤ ·) := by
      simpa [callTimes, LimiterCall.time?] using times
    have tracks := tracks_empty.run hash calls times' [] keeps
    exact tracks.check_denies ip

section Flood

variable (hash : HashOrder)

-- The address that is locked out before the flood, and the addresses of the flood.
def flooder (index : Nat) : IpAddr := .v4 (BitVec.ofNat 32 index)

def flood (count : Nat) : List LimiterCall :=
  (List.range count).map (fun index => .recordFailure (flooder (index + 1)) 1)

def lockedOut : List LimiterCall := List.replicate 10 (.recordFailure (flooder 0) 0)

theorem flooder_injective {left right : Nat} (small : left < 2 ^ 32) (small' : right < 2 ^ 32)
    (same : flooder left = flooder right) : left = right := by
  have numbers := congrArg IpAddr.rank same
  simp only [flooder, IpAddr.rank, BitVec.toNat_ofNat] at numbers
  rwa [Nat.mod_eq_of_lt small, Nat.mod_eq_of_lt small'] at numbers

structure Flooded (count : Nat) (map : LimiterMap) : Prop where
  size : map.size = count + 1
  first : map.get? (flooder 0) = some ⟨0, 10⟩
  rest : ∀ ip entry, map.get? ip = some entry → ip = flooder 0 ∨ entry.windowStart = 1
  known : ∀ index < 2 ^ 32, count < index → map.get? (flooder index) = none

theorem run_failures (ip : IpAddr) (count : Nat) (small : count < 2 ^ 32 - 1) :
    (Runs.run (step hash) OrdMap.empty (List.replicate (count + 1) (.recordFailure ip 0))).1 =
      OrdMap.empty.insert ip ⟨0, count + 1⟩ := by
  have fresh (failures : Nat) : LimiterEntry.expired ⟨0, failures⟩ 0 = false := by
    simp [LimiterEntry.expired, loginWindow]
  induction count with
  | zero =>
    have room : makeRoom hash OrdMap.empty ip 0 = OrdMap.empty := by
      simp [makeRoom, mapLimit]
    simp [Runs.run, step, recordFailure, room, countedEntry, fresh, LimiterEntry.count]
  | succ count ih =>
    have held : (OrdMap.empty.insert ip (⟨0, count + 1⟩ : LimiterEntry)).get? ip =
        some ⟨0, count + 1⟩ := by
      simp [OrdMap.get?_insert]
    have room : makeRoom hash (OrdMap.empty.insert ip ⟨0, count + 1⟩) ip 0 =
        OrdMap.empty.insert ip ⟨0, count + 1⟩ := by
      simp [makeRoom, OrdMap.contains, held]
    rw [List.replicate_succ', Runs.run_append, ih (by omega)]
    simp only [Runs.run, step, recordFailure, room, countedEntry, held, Option.getD_some, fresh,
      Bool.false_eq_true, if_false, LimiterEntry.count]
    apply OrdMap.ext
    intro other
    simp only [OrdMap.get?_insert, OrdMap.get?_empty]
    split_ifs
    · rw [Nat.min_eq_left (by omega)]
    · rfl

theorem flooded_lockedOut : Flooded 0 (Runs.run (step hash) OrdMap.empty lockedOut).1 := by
  have entries : (Runs.run (step hash) OrdMap.empty lockedOut).1 =
      OrdMap.empty.insert (flooder 0) ⟨0, 10⟩ := run_failures hash (flooder 0) 9 (by decide)
  have lookup (ip : IpAddr) : (Runs.run (step hash) OrdMap.empty lockedOut).1.get? ip =
      if ip = flooder 0 then some ⟨0, 10⟩ else none := by
    rw [entries, OrdMap.get?_insert, OrdMap.get?_empty]
  refine ⟨?_, by rw [lookup, if_pos rfl], fun ip entry found => ?_, fun index small later => ?_⟩
  · rw [entries, OrdMap.size_insert_of_none _ _ _ (OrdMap.get?_empty _), OrdMap.size_empty]
  · rw [lookup] at found
    split_ifs at found with same
    exact Or.inl same
  · rw [lookup, if_neg]
    intro same
    have := flooder_injective small (by decide) same
    omega

theorem Flooded.next {count : Nat} {map : LimiterMap} (flooded : Flooded count map)
    (room : count + 1 < mapLimit) :
    Flooded (count + 1) (map.recordFailure hash (flooder (count + 1)) 1) := by
  have small : count + 1 < 2 ^ 32 := room.trans (by decide)
  have missing := flooded.known (count + 1) small (Nat.lt_succ_self count)
  have written : map.recordFailure hash (flooder (count + 1)) 1 =
      map.insert (flooder (count + 1)) ⟨1, 1⟩ := by
    have same : map.makeRoom hash (flooder (count + 1)) 1 = map := by
      simp [makeRoom, flooded.size, room]
    simp [recordFailure, same, countedEntry, missing, LimiterEntry.expired, loginWindow,
      LimiterEntry.count]
  have other (index : Nat) (bound : index < 2 ^ 32) (different : index ≠ count + 1) :
      flooder index ≠ flooder (count + 1) :=
    fun same => different (flooder_injective bound small same)
  rw [written]
  refine ⟨?_, ?_, fun ip entry found => ?_, fun index bound later => ?_⟩
  · rw [OrdMap.size_insert_of_none _ _ _ missing, flooded.size]
  · rw [OrdMap.get?_insert, if_neg (other 0 (by decide) (by omega)), flooded.first]
  · rw [OrdMap.get?_insert] at found
    split_ifs at found with same
    · exact Or.inr (by rw [← Option.some.inj found])
    · exact flooded.rest ip entry found
  · rw [OrdMap.get?_insert, if_neg (other index bound (by omega))]
    exact flooded.known index bound (by omega)

theorem flood_succ (count : Nat) :
    flood (count + 1) = flood count ++ [LimiterCall.recordFailure (flooder (count + 1)) 1] := by
  rw [flood, List.range_succ, List.map_append]
  rfl

theorem Flooded.run {map : LimiterMap} (flooded : Flooded 0 map) (count : Nat)
    (room : count < mapLimit) : Flooded count (Runs.run (step hash) map (flood count)).1 := by
  induction count with
  | zero => exact flooded
  | succ count ih =>
    have earlier := ih (Nat.lt_of_succ_lt room)
    rw [flood_succ, Runs.run_append]
    exact earlier.next hash room

/-- The flood that fills the map evicts the oldest window, although it is still open. -/
theorem Flooded.evicts {map : LimiterMap} (flooded : Flooded (mapLimit - 1) map) :
    (map.recordFailure hash (flooder mapLimit) 1).get? (flooder 0) = none := by
  have small : mapLimit < 2 ^ 32 := by decide
  have size : map.size = mapLimit := flooded.size
  have missing := flooded.known mapLimit small (by decide)
  have live : map.retainLive 1 = map := by
    apply OrdMap.ext
    intro ip
    apply Option.ext
    intro entry
    rw [retainLive_some, and_iff_left_iff_imp]
    intro _
    by_contra expired
    have elapsed := (entry.expired_iff 1).mp (by simpa using expired)
    have : 1 < loginWindow := by decide
    omega
  -- The locked-out address is the only one whose window opened at 0, whatever the hash order.
  have oldest : (hash.order map).argmin map.windowStart = some (flooder 0) := by
    have listed : flooder 0 ∈ hash.order map :=
      (hash.perm map).symm.subset ((map.mem_keys _).mpr ⟨_, flooded.first⟩)
    have nonempty : (hash.order map).argmin map.windowStart ≠ none := fun none =>
      List.ne_nil_of_mem listed (List.argmin_eq_none.mp none)
    obtain ⟨chosen, found⟩ := Option.ne_none_iff_exists'.mp nonempty
    have least : map.windowStart chosen ≤ map.windowStart (flooder 0) :=
      List.le_of_mem_argmin listed found
    obtain ⟨entry, held⟩ :=
      (map.mem_keys _).mp ((hash.perm map).subset (List.argmin_mem found))
    obtain rfl | late := flooded.rest chosen entry held
    · exact found
    · simp [windowStart, held, flooded.first, late] at least
  have room : map.makeRoom hash (flooder mapLimit) 1 = map.erase (flooder 0) := by
    simp [makeRoom, evict, live, oldest, size, OrdMap.contains, missing]
  have different : flooder 0 ≠ flooder mapLimit := fun same =>
    absurd (flooder_injective (by decide) small same) (by decide)
  simp [recordFailure, room, OrdMap.get?_insert, OrdMap.get?_erase, different]

theorem run_flood_evicts :
    (Runs.run (step hash) OrdMap.empty (lockedOut ++ flood mapLimit)).1.get? (flooder 0) = none := by
  obtain ⟨count, limit⟩ : ∃ count, mapLimit = count + 1 := ⟨4095, rfl⟩
  have filled := (flooded_lockedOut hash).run hash count (by omega)
  rw [limit, flood_succ, ← List.append_assoc, Runs.run_append, Runs.run_append, ← limit]
  exact Flooded.evicts hash (by simpa [limit] using filled)

theorem flood_callTimes (count : Nat) : callTimes (flood count) = List.replicate count 1 := by
  rw [callTimes, flood, List.filterMap_map]
  simp [Function.comp_def, LimiterCall.time?]

theorem windowOf_flooded (count : Nat) (small : count < 2 ^ 32) :
    windowOf (flooder 0) (lockedOut ++ flood count) = some ⟨0, 10⟩ := by
  have elsewhere : (flood count).filter (·.concerns (flooder 0)) = [] := by
    rw [List.filter_eq_nil_iff]
    intro call member here
    obtain ⟨index, bound, rfl⟩ := List.mem_map.mp member
    rw [List.mem_range] at bound
    have same : flooder (index + 1) = flooder 0 := by simpa [LimiterCall.concerns] using here
    have := flooder_injective (by omega) (by decide) same
    omega
  rw [windowOf, List.filter_append, elsewhere, List.append_nil]
  simp [lockedOut, LimiterCall.concerns, List.replicate, LimiterCall.openWindow, loginWindow]

end Flood

theorem run_isolated_locked_out :
    (∃ seconds, (Runs.run (step ⟨OrdMap.keys, fun _ => .refl _⟩) OrdMap.empty
        lockedOut).1.check (flooder 0) 1 = .deny seconds) ↔
      Blocked (flooder 0) lockedOut 1 := by
  have isolated := run_isolated ⟨OrdMap.keys, fun _ => .refl _⟩ lockedOut
  exact isolated.2 (flooder 0) 1 (by decide) (by decide +kernel)

/-- Ten failures lock an address out; the flood that fills the map then lets it in again. -/
theorem run_lets_locked_out_in :
    (callTimes (lockedOut ++ flood mapLimit ++ [LimiterCall.check (flooder 0) 1])).Pairwise
      (· ≤ ·) ∧
      ¬ ((∃ seconds, (Runs.run (step ⟨OrdMap.keys, fun _ => .refl _⟩) OrdMap.empty
          (lockedOut ++ flood mapLimit)).1.check (flooder 0) 1 = .deny seconds) ↔
        Blocked (flooder 0) (lockedOut ++ flood mapLimit) 1) := by
  constructor
  · have times : callTimes (lockedOut ++ flood mapLimit ++ [LimiterCall.check (flooder 0) 1]) =
        List.replicate 10 0 ++ (callTimes (flood mapLimit) ++ [1]) := by
      simp [callTimes, lockedOut, LimiterCall.time?]
    rw [times, flood_callTimes]
    simp [List.pairwise_append, List.pairwise_replicate, List.mem_replicate]
  · have blocked : Blocked (flooder 0) (lockedOut ++ flood mapLimit) 1 :=
      ⟨_, windowOf_flooded mapLimit (by decide), by decide, by decide⟩
    rw [iff_true_right blocked, check, run_flood_evicts]
    simp

end LimiterMap

end BetterParsec
